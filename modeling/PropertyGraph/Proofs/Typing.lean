import PropertyGraph.Proofs.Descent
import PropertyGraph.Proofs.Kinds
import PropertyGraph.Proofs.Registration
import PropertyGraph.Proofs.Building
import PropertyGraph.Proofs.Selecting

/-!
# Items of the declared type

A traversal declares a type for its results. The builder keeps the declaration and a shape in step, and
the engine keeps the items in step with both. An item of an element type is an element of its kind that
has its label or is gone. This stays true of an item whatever happens to the graph, since an element that
has been numbered keeps its label, so it can be carried through continuations and selectors, which may
change the graph at any depth.
-/

namespace PropertyGraph

namespace ResultType

/-- The shape that belongs to a type. -/
def shape : ResultType → Shape
  | start => .start
  | anyVertex => .elements .vertex none
  | anyEdge => .elements .edge none
  | element type => .elements type.kind (some type.label)
  | value _ => .value
  | folded inner => .folded inner.shape

/-- A model has the element types in a type under their own labels. -/
def RegisteredIn (model : GraphModel) : ResultType → Prop
  | element type => model.labelOf type = .ok (.ofType type)
  | folded inner => inner.RegisteredIn model
  | start | anyVertex | anyEdge | value _ => True

end ResultType

/-- An item is of a type. Of the source and of values nothing is asked. -/
def Item.Fits (g : Graph) : ResultType → Item → Prop
  | .start, _ | .value _, _ => True
  | .anyVertex, item => ∃ id, item = .element .vertex id
  | .anyEdge, item => ∃ id, item = .element .edge id
  | .element type, item => ∃ id, item = .element type.kind id ∧ id ≤ g.counter ∧
      ∀ label, g.label? type.kind id = some label → label = type.label
  | .folded inner, item => ∃ items, item = .list items ∧ ∀ member ∈ items, Fits g inner member

/-- All traversers are at items of a type. -/
def AllFit (g : Graph) (result : ResultType) (input : List Traverser) : Prop :=
  ∀ t ∈ input, t.item.Fits g result

section Fitting

variable {g g' : Graph} {result : ResultType} {input out : List Traverser} {item : Item}
  {kind : ElementKind} {type : ElementType}

theorem Item.Fits.later (h : item.Fits g result) (hR : Descends g g') : item.Fits g' result := by
  induction result generalizing item with
  | start | anyVertex | anyEdge | value _ => exact h
  | element type =>
      obtain ⟨id, rfl, hle, hlabel⟩ := h
      refine ⟨id, rfl, Nat.le_trans hle hR.counter, fun label hlater => hlabel label ?_⟩
      rw [label?_eq] at hlater ⊢
      obtain ⟨nature, hnature, rfl⟩ := Option.map_eq_some_iff.mp hlater
      rw [hR.nature hnature hle]
      rfl
  | folded inner ih =>
      obtain ⟨items, rfl, hall⟩ := h
      exact ⟨items, rfl, fun member hmember => ih (hall member hmember)⟩

theorem AllFit.later (h : AllFit g result input) (hR : Descends g g') : AllFit g' result input :=
  fun t ht => (h t ht).later hR

theorem AllFit.of_subset (h : AllFit g result input) (hsub : out ⊆ input) : AllFit g result out :=
  fun t ht => h t (hsub ht)

theorem Item.Fits.kind?_eq (h : item.Fits g result) (hkind : result.elementKind? = some kind) :
    item.kind? = some kind := by
  cases result with
  | anyVertex | anyEdge =>
      cases hkind
      obtain ⟨id, rfl⟩ := h
      rfl
  | element type =>
      cases hkind
      obtain ⟨id, rfl, -⟩ := h
      rfl
  | start | value _ | folded _ => cases hkind

theorem fits_of_hasLabel (hkind : item.kind? = some type.kind)
    (h : g.hasLabel [type.label] item = true) : item.Fits g (.element type) := by
  obtain ⟨id, rfl⟩ := exists_of_kind?_eq_some hkind
  have hlabel := hasLabel_singleton_iff.mp h
  refine ⟨id, rfl, le_counter_of_mem_ids (mem_ids_of_label? hlabel), fun label hother => ?_⟩
  exact Option.some.inj (hother.symm.trans hlabel)

theorem allFit_anyVertex (h : AllOf (some .vertex) input) : AllFit g .anyVertex input :=
  fun t ht => exists_of_kind?_eq_some (h t ht .vertex rfl)

theorem allFit_anyEdge (h : AllOf (some .edge) input) : AllFit g .anyEdge input :=
  fun t ht => exists_of_kind?_eq_some (h t ht .edge rfl)

theorem allFit_folded {scope : Bindings} (h : AllFit g result input) :
    AllFit g (.folded result) [⟨.list (reached input), scope⟩] := by
  refine List.forall_mem_singleton.mpr ⟨reached input, rfl, fun member hmember => ?_⟩
  obtain ⟨t, ht, rfl⟩ := List.mem_map.mp (List.mem_of_mem_filter hmember)
  exact h t ht

theorem hasLabel_of_mem_incident {vertex id : Nat} {direction : Direction} {label : String}
    (h : id ∈ g.incident vertex direction [label]) : g.hasLabel [label] (.element .edge id) = true := by
  have hwhere : ∀ condition, id ∈ g.edgesWhere [label] condition →
      g.hasLabel [label] (.element .edge id) = true := by
    intro condition hid
    obtain ⟨e, he, -, hlabel⟩ := mem_edgesWhere_iff.mp hid
    rw [hasLabel_singleton_iff, Graph.label?, Table.get?_eq_some_iff.mpr he]
    simpa using hlabel
  cases direction with
  | outgoing => exact hwhere (·.source == vertex) h
  | incoming => exact hwhere (·.target == vertex) h
  | both =>
      rcases List.mem_append.mp h with hout | hin
      · exact hwhere _ hout
      · exact hwhere _ hin

/-- A walk to the edges of a label. -/
theorem allFit_of_walkEdges {direction : Direction} {scope : Bindings} (hedge : type.kind = .edge)
    (h : g.look scope input (.traverse direction [type.label] .edges) = .ok out) :
    AllFit g (.element type) out := by
  intro t' ht'
  obtain ⟨t, -, items, hitems, hmem, -⟩ := exists_of_mem_expand h ht'
  obtain ⟨vertex, -, hwalk⟩ := exists_of_bind_eq_ok hitems
  cases hwalk
  obtain ⟨id, hid, heq⟩ := List.mem_map.mp hmem
  rw [← heq]
  exact fits_of_hasLabel (congrArg some hedge.symm) (hasLabel_of_mem_incident hid)

end Fitting

/-- A traversal continues another one with steps. Where the other one ends at items of its type, these
lead to items of the new type. -/
structure Continues (model : GraphModel) (t t' : Traversal) (added : List Step) : Prop where
  steps : t'.steps = t.steps ++ added
  shape : t.shape = t.result.shape → t'.shape = t'.result.shape
  registered : t.result.RegisteredIn model → t'.result.RegisteredIn model
  fits : ∀ {access : Access} {input : List Traverser} {scope : Bindings} {g : Graph},
    AllFit g t.result input →
      Ensures (evaluateSteps access added input scope) g (fun out g' => AllFit g' t'.result out)
        fun _ _ => True

namespace Call

mutual
/-- The element types that a call mentions, also inside of its further programs. -/
def types : Call → List ElementType
  | verticesOf type | edgesOf type | vertexOf type _ | addVertex type _ | ofType type
  | walk _ type | walkEdges _ type => [type]
  | addEdge type _ _ selector => type :: typesOfAll selector
  | bind _ _ continuation => typesOfAll continuation
  | _ => []
termination_by structural call => call
def typesOfAll : List Call → List ElementType
  | [] => []
  | call :: rest => types call ++ typesOfAll rest
termination_by structural calls => calls
end

end Call

section Calls

variable {model : GraphModel} {t t' t'' : Traversal} {added more : List Step}

namespace Continues

theorem refl (t : Traversal) : Continues model t t [] where
  steps := (List.append_nil _).symm
  shape h := h
  registered h := h
  fits h := .pure h

theorem trans (h : Continues model t t' added) (h' : Continues model t' t'' more) :
    Continues model t t'' (added ++ more) where
  steps := by rw [h'.steps, h.steps, List.append_assoc]
  shape hshape := h'.shape (h.shape hshape)
  registered hregistered := h'.registered (h.registered hregistered)
  fits hinput := by
    rw [evaluateSteps_append]
    exact .bind ((h.fits hinput).mono (fun _ _ hout => h'.fits hout) fun _ _ _ => trivial)

theorem push {step : Step} {result : ResultType} {shape : Shape}
    (hshape : t.shape = t.result.shape → shape = result.shape)
    (hregistered : t.result.RegisteredIn model → result.RegisteredIn model)
    (hfits : ∀ {access : Access} {input : List Traverser} {scope : Bindings} {g : Graph},
      AllFit g t.result input →
        Ensures (evaluateStep access step input scope) g (fun out g' => AllFit g' result out)
          fun _ _ => True) :
    Continues model t (t.push step result shape) [step] where
  steps := rfl
  shape := hshape
  registered := hregistered
  fits hinput := by
    rw [evaluateSteps_cons]
    exact .bind ((hfits hinput).mono (fun _ _ hout => .pure hout) fun _ _ _ => trivial)

/-- A step that looks. -/
theorem push_look {step : Step} {result : ResultType} {shape : Shape}
    (hlooks : step.looks = true) (hshape : t.shape = t.result.shape → shape = result.shape)
    (hregistered : t.result.RegisteredIn model → result.RegisteredIn model)
    (hfits : ∀ {input out : List Traverser} {scope : Bindings} {g : Graph},
      AllFit g t.result input → g.look scope input step = .ok out → AllFit g result out) :
    Continues model t (t.push step result shape) [step] := by
  refine push hshape hregistered fun hinput => ?_
  rw [evaluateStep_of_looks hlooks]
  exact .read (fun _ hout => hfits hinput hout) fun _ _ => trivial

/-- A step after which nothing is asked of the results. -/
theorem push_value {step : Step} (type : ValueType) (hlooks : step.looks = true) :
    Continues model t (t.push step (.value type) .value) [step] :=
  push_look hlooks (fun _ => rfl) (fun _ => trivial) fun _ _ _ _ => trivial

theorem push_vertices {step : Step} (hlooks : step.looks = true)
    (hkind : step.kindAfter none = some .vertex) :
    Continues model t (t.push step .anyVertex (.elements .vertex none)) [step] :=
  push_look hlooks (fun _ => rfl) (fun _ => trivial) fun {input} _ _ _ _ hout =>
    allFit_anyVertex (hkind ▸ (AllOf.none input).of_look hlooks hout)

theorem push_edges {step : Step} (hlooks : step.looks = true)
    (hkind : step.kindAfter none = some .edge) :
    Continues model t (t.push step .anyEdge (.elements .edge none)) [step] :=
  push_look hlooks (fun _ => rfl) (fun _ => trivial) fun {input} _ _ _ _ hout =>
    allFit_anyEdge (hkind ▸ (AllOf.none input).of_look hlooks hout)

/-- A step that leaves out some of the traversers. -/
theorem push_keep {step : Step} (hlooks : step.looks = true)
    (hsub : ∀ {g : Graph} {scope : Bindings} {input out : List Traverser},
      g.look scope input step = .ok out → out ⊆ input) :
    Continues model t (t.push step t.result t.shape) [step] :=
  push_look hlooks (fun h => h) (fun h => h) fun hinput hout => hinput.of_subset (hsub hout)

end Continues

theorem of_lift_eq_ok {α : Type} {r : Except SchemaError α} {a : α}
    (h : Traversal.lift r = .ok a) : r = .ok a := by
  cases r with
  | ok b =>
      cases h
      rfl
  | error e => cases h

/-- What is built from the label of a type is built from its own label. -/
theorem of_label_bind {α : Type} {types : List ElementType} {type : ElementType}
    {f : LabelDescriptor → Except TraversalError α} {a : α} (hlabels : model.Labels types)
    (htype : type ∈ types) (h : (Traversal.lift (model.labelOf type) >>= f) = .ok a) :
    model.labelOf type = .ok (.ofType type) ∧ f (.ofType type) = .ok a := by
  obtain ⟨label, hlift, h⟩ := exists_of_bind_eq_ok h
  have hlabel := of_lift_eq_ok hlift
  obtain rfl := hlabels type htype label hlabel
  exact ⟨hlabel, h⟩

theorem continues_ofType {types : List ElementType} {type : ElementType}
    (hlabels : model.Labels types) (htype : type ∈ types)
    (hkind : t.result.elementKind? = some type.kind) (h : t.ofType model type = .ok t') :
    Continues model t t' [.typeFilter [type.label]] := by
  obtain ⟨hlabel, h⟩ := of_label_bind hlabels htype h
  obtain ⟨shape, hshape, h⟩ := exists_of_bind_eq_ok h
  cases h
  refine .push_look rfl (fun _ => ?_) (fun _ => hlabel) fun hinput hout t' ht' => ?_
  · unfold Shape.narrow at hshape
    dsimp only at hshape
    split at hshape
    · split at hshape
      · cases hshape
        rfl
      · cases hshape
    · cases hshape
  · cases hout
    obtain ⟨hold, hhas⟩ := List.mem_filter.mp ht'
    exact fits_of_hasLabel ((hinput t' hold).kind?_eq hkind) hhas

theorem continues_selection_ofType {types : List ElementType} {type : ElementType}
    {kind : ElementKind} {selected : Traversal} (hlabels : model.Labels types)
    (htype : type ∈ types) (hselected : Continues model t selected added)
    (hresult : selected.result.elementKind? = some kind) (hkind : type.kind = kind)
    (h : selected.ofType model type = .ok t') : ∃ added, Continues model t t' added := by
  subst hkind
  exact ⟨_, hselected.trans (continues_ofType hlabels htype hresult h)⟩

theorem fits_addVertex {type : ElementType} (hkind : type.kind = .vertex) (g : Graph)
    (properties : List Property) :
    (Item.element .vertex (g.addVertex type.label properties).1).Fits
      (g.addVertex type.label properties).2 (.element type) := by
  refine ⟨g.counter + 1, by rw [hkind]; rfl, Nat.le_refl _, fun label hlabel => ?_⟩
  rw [hkind, label?_addVertex] at hlabel
  exact (Option.some.inj hlabel).symm

theorem fits_addEdge {type : ElementType} (hkind : type.kind = .edge) (g : Graph)
    (properties : List Property) (source target : Nat) :
    (Item.element .edge (g.addEdge type.label properties source target).1).Fits
      (g.addEdge type.label properties source target).2 (.element type) := by
  refine ⟨g.counter + 1, by rw [hkind]; rfl, Nat.le_refl _, fun label hlabel => ?_⟩
  rw [hkind, label?_addEdge] at hlabel
  exact (Option.some.inj hlabel).symm

/-- Elements that are created in turn are of their type in the end. -/
theorem Ensures.allFit_mapM {result : ResultType} {input : List Traverser}
    {f : Traverser → Evaluation Traverser} {g : Graph}
    (hround : ∀ t ∈ input, ∀ g', Descends g g' → Ensures (f t) g'
      (fun t' g'' => t'.item.Fits g'' result ∧ Descends g' g'') fun _ g'' => Descends g' g'') :
    Ensures (input.mapM f) g (fun out g' => AllFit g' result out) fun _ _ => True :=
  (Ensures.mapM_along (P := fun (t : Traverser) g' => t.item.Fits g' result) Descends.refl
    Descends.trans (fun hR h => h.later hR) hround).mono (fun _ _ h => h.1) fun _ _ _ => True.intro

theorem Continues.push_addVertex {type : ElementType} (hkind : type.kind = .vertex)
    (hlabel : model.labelOf type = .ok (.ofType type)) (properties : List Property) :
    Continues model t (t.push (.addVertex type.label properties) (.element type)
      (.elements .vertex (some type.label))) [.addVertex type.label properties] := by
  refine push (fun _ => by rw [ResultType.shape, hkind]) (fun _ => hlabel) fun _ => ?_
  rw [evaluateStep_addVertex]
  refine .allFit_mapM fun t _ g' _ => .addVertexFrom ?_ fun _ _ => .refl g'
  exact ⟨fits_addVertex hkind g' properties, Descends.persists.addVertex type.label properties g'⟩

theorem Continues.push_addEdge {type : ElementType} (hkind : type.kind = .edge)
    (hlabel : model.labelOf type = .ok (.ofType type)) (properties : List Property)
    (source target : Option (List Step)) :
    Continues model t (t.push (.addEdge type.label properties source target) (.element type)
      (.elements .edge (some type.label))) [.addEdge type.label properties source target] := by
  refine push (fun _ => by rw [ResultType.shape, hkind]) (fun _ => hlabel) fun _ => ?_
  rw [evaluateStep_addEdge]
  refine .allFit_mapM fun t _ g' _ => ?_
  refine .connect (fun _ _ => .refl g') (fun _ _ => .refl g') fun current edgeEnd selector _ _ => ?_
  refine (Descends.persists.along.holdsOfAll selector).mono (fun found g'' hR => ?_) fun _ _ hR => hR
  refine .read (fun chosen _ => ⟨⟨fits_addEdge hkind g'' properties _ _, ?_⟩, fun _ _ => hR⟩)
    fun _ _ => hR
  exact hR.trans (Descends.persists.addEdge type.label properties _ _ g'')

theorem Continues.push_update (properties : List Property) :
    Continues model t (t.push (.update properties) t.result t.shape) [.update properties] := by
  refine push (fun h => h) (fun h => h) fun hinput => ?_
  rw [evaluateStep_update]
  refine .bind ((Ensures.forM_along Descends.refl Descends.trans fun t _ g' => ?_).mono
    (fun _ _ hR => .pure (hinput.later hR)) fun _ _ _ => trivial)
  exact .updateItem (fun kind id _ => Descends.persists.update kind id properties g')
    (fun _ _ => .refl g') fun _ => .refl g'

/-- What a continuation has made of each item is of the type that it declares, also after what it makes
of the later items. -/
theorem continues_closed {binding : Binding} {inner : Traversal}
    (h : Continues model (t.opened binding) inner added) :
    Continues model t (t.closed binding.name inner) [.bind binding.name inner.steps] := by
  have hsteps : inner.steps = added := h.steps
  refine .push h.shape h.registered fun {access input scope g} hinput => ?_
  rw [evaluateStep_bind, hsteps]
  refine .bind ((Ensures.mapM_along (R := Descends)
    (P := fun part g' => AllFit g' inner.result part) Descends.refl Descends.trans
    (fun hR hpart => hpart.later hR) fun current hcurrent g' hR => ?_).mono
    (fun parts _ hends => .pure (forall_mem_flatten hends.1)) fun _ _ _ => trivial)
  have hstart : AllFit g' (t.opened binding).result
      [⟨current.item, (binding.name, current.item) :: current.bindings⟩] :=
    List.forall_mem_singleton.mpr ((hinput current hcurrent).later hR)
  refine .continueFrom (((h.fits hstart).and (Descends.persists.along.holdsOfAll added)).mono
    (fun results g'' ⟨hresults, hR'⟩ => ⟨?_, hR'⟩) fun _ _ h => h.2)
  exact List.forall_mem_map.mpr hresults

/-! ### Calls and programs -/

theorem continues_runSimple {call : Call} (hlabels : model.Labels call.types)
    (havailable : call.available t.result = true) (h : call.runSimple model t = .ok t') :
    ∃ added, Continues model t t' added := by
  cases call with
  | vertices | verticesById _ =>
      cases h
      exact ⟨_, .push_vertices rfl rfl⟩
  | edges =>
      cases h
      exact ⟨_, .push_edges rfl rfl⟩
  | verticesOf type | vertexOf type _ =>
      have hkind : type.kind = .vertex := beq_iff_eq.mp havailable
      exact continues_selection_ofType hlabels List.mem_cons_self (.push_vertices rfl rfl) rfl hkind h
  | edgesOf type =>
      have hkind : type.kind = .edge := beq_iff_eq.mp havailable
      exact continues_selection_ofType hlabels List.mem_cons_self (.push_edges rfl rfl) rfl hkind h
  | addVertex type value =>
      have hkind : type.kind = .vertex := beq_iff_eq.mp havailable
      obtain ⟨value', -, h⟩ := exists_of_bind_eq_ok h
      obtain ⟨hlabel, h⟩ := of_label_bind hlabels List.mem_cons_self h
      obtain ⟨properties, -, h⟩ := exists_of_bind_eq_ok h
      cases h
      exact ⟨_, .push_addVertex hkind hlabel properties⟩
  | inject _ | count | id | label =>
      cases h
      exact ⟨_, .push_value _ rfl⟩
  | values key type =>
      obtain ⟨-, -, h⟩ := exists_of_bind_eq_ok h
      cases h
      exact ⟨_, .push_value _ rfl⟩
  | fold =>
      cases h
      refine ⟨_, .push_look rfl (fun hshape => ?_) (fun h => h) fun hinput hout => ?_⟩
      · exact congrArg Shape.folded hshape
      · cases hout
        exact allFit_folded hinput
  | limit size =>
      cases h
      refine ⟨_, .push_keep rfl fun hout => ?_⟩
      cases hout
      exact List.take_subset _ _
  | drop =>
      cases h
      refine ⟨_, .push (fun _ => rfl) (fun _ => trivial) fun _ => ?_⟩
      exact Ensures.trivial.mono (fun _ _ _ _ _ => trivial) fun _ _ h => h
  | ofType type =>
      exact ⟨_, continues_ofType hlabels List.mem_cons_self (beq_iff_eq.mp havailable) h⟩
  | update value =>
      obtain ⟨type, hresult⟩ := exists_of_available_update havailable
      simp only [Call.runSimple, hresult] at h
      obtain ⟨value', -, h⟩ := exists_of_bind_eq_ok h
      obtain ⟨properties, -, h⟩ := exists_of_bind_eq_ok h
      cases h
      exact ⟨_, .push_update properties⟩
  | walk direction type =>
      obtain ⟨-, h⟩ := of_label_bind hlabels List.mem_cons_self h
      cases h
      exact ⟨_, .push_vertices rfl rfl⟩
  | walkEdges direction type =>
      obtain ⟨-, hedge⟩ := Bool.and_eq_true_iff.mp havailable
      have hkind : type.kind = .edge := beq_iff_eq.mp hedge
      obtain ⟨hlabel, h⟩ := of_label_bind hlabels List.mem_cons_self h
      cases h
      refine ⟨_, .push_look rfl (fun _ => ?_) (fun _ => hlabel) fun _ hout => ?_⟩
      · rw [ResultType.shape, hkind]
        rfl
      · exact allFit_of_walkEdges hkind hout
  | walkAny direction | endpoint direction =>
      cases h
      exact ⟨_, .push_vertices rfl rfl⟩
  | unreadable error => cases h
  | filter _ | addEdge _ _ _ _ | bind _ _ _ | probe _ =>
      cases h
      exact ⟨_, .refl t⟩

theorem continues_filter {predicate : Predicate Reference}
    (h : t.filter model predicate = .ok t') : ∃ added, Continues model t t' added := by
  obtain ⟨-, -, h⟩ := exists_of_bind_eq_ok h
  obtain ⟨-, -, h⟩ := exists_of_bind_eq_ok h
  cases h
  exact ⟨_, .push_keep rfl fun hout => (sublist_of_satisfying_eq_ok hout).subset⟩

theorem continues_addEdge {type : ElementType} {value : Json} {draft : Traversal.EdgeDraft}
    {edgeEnd : EdgeEnd} {selector : List Step} {types : List ElementType}
    (hlabels : model.Labels types) (htype : type ∈ types) (hkind : type.kind = .edge)
    (hdraft : Traversal.draftEdge model type value = .ok draft)
    (h : t.addEdge draft edgeEnd selector = .ok t') : ∃ added, Continues model t t' added := by
  obtain ⟨hlabel, hdraft⟩ := of_label_bind hlabels htype hdraft
  obtain ⟨properties, -, hdraft⟩ := exists_of_bind_eq_ok hdraft
  cases hdraft
  obtain ⟨_, -, h⟩ := exists_of_bind_eq_ok h
  cases h
  cases edgeEnd with
  | source => exact ⟨_, .push_addEdge hkind hlabel properties (some selector) none⟩
  | target => exact ⟨_, .push_addEdge hkind hlabel properties none (some selector)⟩

/-- A computation of the builder whose result continues a traversal. -/
def ContinuesTraversal (model : GraphModel) (t : Traversal) (state : BuildState)
    (program : Build Traversal) : Prop :=
  Ensures program state (fun t' _ => ∃ added, Continues model t t' added) fun _ _ => True

variable {state : BuildState}

theorem continues_of_isSimple {call : Call} (hsimple : call.isSimple = true)
    (hlabels : model.Labels call.types) : ContinuesTraversal model t state (call.run model t) := by
  rw [run_of_isSimple hsimple]
  exact .bind (.require fun havailable =>
    .ofExcept fun _ hok => continues_runSimple hlabels havailable hok)

mutual
theorem continues_run (model : GraphModel) : ∀ (call : Call) (t : Traversal) (state : BuildState),
    model.Labels call.types → ContinuesTraversal model t state (call.run model t)
  | .filter predicate, t, state, _ => .ofExcept fun _ hok => continues_filter hok
  | .addEdge type value edgeEnd selector, t, state, hlabels => by
      refine .bind (.require fun havailable => .bind (.ofExcept fun value' _ =>
        .bind (.ofExcept fun draft hdraft => .bind ?_)))
      obtain ⟨-, hedge⟩ := Bool.and_eq_true_iff.mp havailable
      refine Ensures.trivial.mono (fun chosen state' _ => ?_) fun _ _ h => h
      refine .bind (.require fun _ => .ofExcept fun t' hok => ?_)
      exact continues_addEdge hlabels List.mem_cons_self (beq_iff_eq.mp hedge) hdraft hok
  | .bind name key continuation, t, state, hlabels => by
      unfold Call.run ContinuesTraversal
      dsimp only
      split
      · exact .bind True.intro
      · refine .bind (.get (.bind (.set (.bind ?_))))
        refine (continues_runAll model continuation _ _ hlabels).mono ?_ fun _ _ h => h
        intro inner _ ⟨added, hadded⟩
        exact .pure ⟨_, continues_closed hadded⟩
  | .probe question, t, state, _ => ⟨[], .refl t⟩
  | .vertices, _, _, h | .edges, _, _, h | .verticesOf _, _, _, h | .edgesOf _, _, _, h
  | .vertexOf _ _, _, _, h | .verticesById _, _, _, h | .addVertex _ _, _, _, h
  | .inject _, _, _, h | .fold, _, _, h | .limit _, _, _, h | .count, _, _, h | .drop, _, _, h
  | .ofType _, _, _, h | .id, _, _, h | .label, _, _, h | .values _ _, _, _, h
  | .update _, _, _, h | .walk _ _, _, _, h | .walkEdges _ _, _, _, h | .walkAny _, _, _, h
  | .endpoint _, _, _, h | .unreadable _, _, _, h => continues_of_isSimple rfl h
termination_by structural call => call
theorem continues_runAll (model : GraphModel) : ∀ (calls : List Call) (t : Traversal)
    (state : BuildState), model.Labels (Call.typesOfAll calls) →
      ContinuesTraversal model t state (Call.runAll model t calls)
  | [], t, state, _ => ⟨[], .refl t⟩
  | call :: rest, t, state, hlabels => by
      have hcall : model.Labels call.types := hlabels.of_subset (List.subset_append_left ..)
      have hrest : model.Labels (Call.typesOfAll rest) :=
        hlabels.of_subset (List.subset_append_right ..)
      refine .bind ((continues_run model call t state hcall).mono ?_ fun _ _ h => h)
      intro t' state' ⟨added, hadded⟩
      refine (continues_runAll model rest t' state' hrest).mono ?_ fun _ _ h => h
      intro t'' _ ⟨more, hmore⟩
      exact ⟨_, hadded.trans hmore⟩
termination_by structural calls => calls
end

end Calls

end PropertyGraph
