import PropertyGraph.Proofs.Evolution
import PropertyGraph.Proofs.Visits

/-!
# Numbers that have been given

Elements are numbered from a counter, and a number past the counter has not been given yet. The endpoints
of a new edge are not looked up, so that they have been numbered is not a matter of the graph alone: it
needs that traversers only reach what has been numbered, and that they keep it while the counter moves
on.
-/

namespace PropertyGraph

/-- The endpoints of edges have been numbered. -/
def Graph.Numbered (g : Graph) : Prop :=
  ∀ id e, (id, e) ∈ g.edges.rows → ∀ v ∈ e.ends .both, v ≤ g.counter

def Item.NumberedBy (g : Graph) (item : Item) : Prop :=
  ∀ kind id, item = .element kind id → id ≤ g.counter

def AllNumbered (g : Graph) (input : List Traverser) : Prop := ∀ t ∈ input, t.item.NumberedBy g

/-- The counter does not go back, and numbered endpoints stay so. -/
def Renumbers (g g' : Graph) : Prop := g.counter ≤ g'.counter ∧ (g.Numbered → g'.Numbered)

/-- All edges of the later graph are as old as the earlier graph. -/
def AddsNoEdge (g g' : Graph) : Prop := ∀ id ∈ g'.edges.keys, id ≤ g.counter

section Numbers

variable {g g' g'' : Graph}

theorem addsNoEdge_addVertex (label : String) (properties : List Property) (g : Graph) :
    AddsNoEdge g (g.addVertex label properties).2 := g.edges_le

theorem addsNoEdge_update (kind : ElementKind) (id : Nat) (properties : List Property) (g : Graph) :
    AddsNoEdge g (g.update kind id properties) := by
  have hcounter : (g.update kind id properties).counter = g.counter := by cases kind <;> rfl
  intro edge hedge
  exact hcounter ▸ (g.update kind id properties).edges_le edge hedge

theorem addsNoEdge_remove (kind : ElementKind) (id : Nat) (g : Graph) :
    AddsNoEdge g (g.remove kind id) := by
  have hcounter : (g.remove kind id).counter = g.counter := by
    cases kind with
    | vertex =>
        unfold Graph.remove
        dsimp only
        split <;> rfl
    | edge => rfl
  intro edge hedge
  exact hcounter ▸ (g.remove kind id).edges_le edge hedge

theorem Renumbers.refl (g : Graph) : Renumbers g g := ⟨Nat.le_refl _, fun h => h⟩

theorem Renumbers.trans (h : Renumbers g g') (h' : Renumbers g' g'') : Renumbers g g'' :=
  ⟨Nat.le_trans h.1 h'.1, fun hg => h'.2 (h.2 hg)⟩

theorem Renumbers.of_addsNoEdge (h : Evolves g g') (hno : AddsNoEdge g g') : Renumbers g g' := by
  refine ⟨h.counter, fun hg id e' he' v hv => ?_⟩
  obtain ⟨e, he, hends, -⟩ := h.edges id e' he' (hno id (Table.mem_keys_of_mem_rows he'))
  have hold : v ≤ g.counter := hg id e he v (hends ▸ hv)
  exact Nat.le_trans hold h.counter

theorem Renumbers.addEdge {label : String} {properties : List Property} {source target : Nat}
    (hsource : source ≤ g.counter) (htarget : target ≤ g.counter) :
    Renumbers g (g.addEdge label properties source target).2 := by
  refine ⟨Nat.le_succ _, fun hg id e he v hv => Nat.le_succ_of_le ?_⟩
  rcases Evolves.mem_rows_addEdge he with hold | ⟨-, hends⟩
  · exact hg id e hold v hv
  · rw [hends] at hv
    have heq : v = source ∨ v = target := by simpa using hv
    rcases heq with rfl | rfl
    · exact hsource
    · exact htarget

theorem Item.NumberedBy.later {item : Item} (h : item.NumberedBy g) (hle : Renumbers g g') :
    item.NumberedBy g' := fun kind id heq => Nat.le_trans (h kind id heq) hle.1

theorem AllNumbered.later {input : List Traverser} (h : AllNumbered g input)
    (hle : Renumbers g g') : AllNumbered g' input := fun t ht => (h t ht).later hle

theorem AllNumbered.of_subset {input out : List Traverser} (h : AllNumbered g input)
    (hsub : out ⊆ input) : AllNumbered g out := fun t ht => h t (hsub ht)

theorem numberedBy_element {kind : ElementKind} {id : Nat} (h : id ≤ g.counter) :
    (Item.element kind id).NumberedBy g := by
  intro _ _ heq
  cases heq
  exact h

theorem numberedBy_of_kind?_eq_none {item : Item} (h : item.kind? = none) : item.NumberedBy g := by
  rintro kind id rfl
  cases h

/-- What looking leads to has been numbered, if the endpoints of edges have been. -/
theorem Reached.numberedBy {kind : Option ElementKind} {item : Item} (hg : g.Numbered)
    (h : Reached g kind item) : item.NumberedBy g := by
  cases h with
  | @present kind id hid =>
      cases kind with
      | vertex => exact numberedBy_element (g.vertices_le id hid)
      | edge => exact numberedBy_element (g.edges_le id hid)
  | endpoint he hv => exact numberedBy_element (hg _ _ he _ hv)
  | other hkind => exact numberedBy_of_kind?_eq_none hkind

theorem AllNumbered.of_look {step : Step} {scope : Bindings} {input out : List Traverser}
    (h : AllNumbered g input) (hg : g.Numbered) (hlooks : step.looks = true)
    (hout : g.look scope input step = .ok out) : AllNumbered g out := by
  intro t' ht'
  rcases of_mem_look hlooks hout ht' with ⟨hold, -⟩ | ⟨hreached, -⟩
  · exact h t' hold
  · exact (hreached none).numberedBy hg

/-- From numbered items and endpoints a step leads to numbered ones, and when it fails the endpoints are
numbered still. -/
def KeepsNumbers (step : Step) : Prop :=
  ∀ {access : Access} {input : List Traverser} {scope : Bindings} {g : Graph},
    g.Numbered → AllNumbered g input →
      Ensures (evaluateStep access step input scope) g
        (fun out g' => AllNumbered g' out ∧ Renumbers g g') fun _ g' => Renumbers g g'

def KeepsNumbersAll (steps : List Step) : Prop :=
  ∀ {access : Access} {input : List Traverser} {scope : Bindings} {g : Graph},
    g.Numbered → AllNumbered g input →
      Ensures (evaluateSteps access steps input scope) g
        (fun out g' => AllNumbered g' out ∧ Renumbers g g') fun _ g' => Renumbers g g'

theorem le_of_vertexFor {item : Item} {step : String} {id : Nat} (hitem : item.NumberedBy g)
    (h : item.vertexFor step = .ok id) : id ≤ g.counter :=
  hitem .vertex id (eq_of_vertexFor_eq_ok h)

theorem le_of_chosenVertex {label : String} {found : List Traverser} {id : Nat}
    (hfound : AllNumbered g found) (h : chosenVertex label found = .ok id) : id ≤ g.counter := by
  unfold chosenVertex at h
  split at h
  · exact le_of_vertexFor (hfound _ (by simp)) h
  · cases h

theorem join_le (edgeEnd : EdgeEnd) {current chosen : Nat} (hcurrent : current ≤ g.counter)
    (hchosen : chosen ≤ g.counter) :
    (edgeEnd.join current chosen).1 ≤ g.counter ∧ (edgeEnd.join current chosen).2 ≤ g.counter := by
  cases edgeEnd with
  | source => exact ⟨hchosen, hcurrent⟩
  | target => exact ⟨hcurrent, hchosen⟩

theorem keepsNumbers : Step.Induction KeepsNumbers KeepsNumbersAll where
  look step hlooks := by
    intro access input scope g hg h
    rw [evaluateStep_of_looks hlooks]
    exact .read (fun _ hout => ⟨h.of_look hg hlooks hout, .refl g⟩) fun _ _ => .refl g
  addVertex label properties := by
    intro access input scope g hg h
    rw [evaluateStep_addVertex]
    refine .mapM_along (R := Renumbers) (P := fun (t : Traverser) g' => t.item.NumberedBy g')
      Renumbers.refl Renumbers.trans (fun hR ht => ht.later hR) fun t _ g' _ => ?_
    refine .addVertexFrom ⟨numberedBy_element (Nat.le_refl _), ?_⟩ fun _ _ => .refl g'
    exact .of_addsNoEdge (.addVertex label properties g')
      (addsNoEdge_addVertex label properties g')
  addEdge label properties source target hsource htarget := by
    intro access input scope g hg h
    rw [evaluateStep_addEdge]
    refine .mapM_along (R := Renumbers) (P := fun (t : Traverser) g' => t.item.NumberedBy g')
      Renumbers.refl Renumbers.trans (fun hR ht => ht.later hR) fun t ht g' hR => ?_
    have hitem : t.item.NumberedBy g' := (h t ht).later hR
    refine .connect (fun _ _ => .refl g') (fun _ _ => .refl g')
      fun current edgeEnd selector hok honly => ?_
    have hselector : KeepsNumbersAll selector := Step.all_of_onlySelector? hsource htarget honly
    have hstart : AllNumbered g' [t] := List.forall_mem_singleton.mpr hitem
    refine (hselector (hR.2 hg) hstart).mono (fun found g'' ⟨hfound, hR'⟩ => ?_)
      fun _ _ hR' => hR'
    refine .read (fun chosen hchosen => ⟨⟨numberedBy_element (Nat.le_refl _), ?_⟩,
      fun _ _ => hR'⟩) fun _ _ => hR'
    have hcurrent : current ≤ g''.counter := Nat.le_trans (le_of_vertexFor hitem hok) hR'.1
    obtain ⟨hfirst, hsecond⟩ := join_le edgeEnd hcurrent (le_of_chosenVertex hfound hchosen)
    exact hR'.trans (.addEdge hfirst hsecond)
  update properties := by
    intro access input scope g hg h
    rw [evaluateStep_update]
    refine .bind ((Ensures.forM_along (R := Renumbers) Renumbers.refl Renumbers.trans
      fun t _ g' => ?_).mono (fun _ g' hR => .pure ⟨h.later hR, hR⟩) fun _ _ hR => hR)
    refine .updateItem (fun kind id _ => ?_) (fun _ _ => .refl g') fun _ => .refl g'
    exact .of_addsNoEdge (.update kind id properties g') (addsNoEdge_update kind id properties g')
  bind name continuation ih := by
    intro access input scope g hg h
    rw [evaluateStep_bind]
    refine .bind ((Ensures.mapM_along (R := Renumbers) (P := fun part g' => AllNumbered g' part)
      Renumbers.refl Renumbers.trans (fun hR hpart => hpart.later hR) fun t ht g' hR => ?_).mono
      (fun parts _ hends => .pure ⟨forall_mem_flatten hends.1, hends.2⟩) fun _ _ hR => hR)
    have hstart : AllNumbered g' [⟨t.item, (name, t.item) :: t.bindings⟩] :=
      List.forall_mem_singleton.mpr ((h t ht).later hR)
    refine .continueFrom ((ih (hR.2 hg) hstart).mono (fun results g'' ⟨hresults, hR'⟩ => ⟨?_, hR'⟩)
      fun _ _ hR' => hR')
    exact List.forall_mem_map.mpr hresults
  drop := by
    intro access input scope g hg h
    rw [evaluateStep_drop]
    refine .bind ((Ensures.forM_along (R := Renumbers) Renumbers.refl Renumbers.trans
      fun t _ g' => ?_).mono (fun _ g' hR => .pure ⟨(fun _ h => nomatch h), hR⟩) fun _ _ hR => hR)
    refine .dropItem (fun kind id _ => ?_) (fun _ => .refl g') fun _ _ => .refl g'
    exact .of_addsNoEdge (.remove kind id g') (addsNoEdge_remove kind id g')
  nil := fun _ h => .pure ⟨h, .refl _⟩
  cons step rest hstep hrest := by
    intro access input scope g hg h
    rw [evaluateSteps_cons]
    refine .bind ((hstep hg h).mono (fun out g' ⟨hout, hR⟩ => ?_) fun _ _ hR => hR)
    exact (hrest (hR.2 hg) hout).mono (fun _ _ ⟨hout', hR'⟩ => ⟨hout', hR.trans hR'⟩)
      fun _ _ hR' => hR.trans hR'

/-- At each moment of an evaluation that starts with numbered endpoints, all that is there is numbered. -/
theorem numbered_of_visits {access : Access} {steps : List Step} {env : Bindings} {m : Moment}
    (hg : g.Numbered) (h : Visits access steps g env m) :
    m.graph.Numbered ∧ AllNumbered m.graph m.input := by
  induction h with
  | start =>
      exact ⟨hg, List.forall_mem_singleton.mpr (numberedBy_of_kind?_eq_none rfl)⟩
  | next _ hrun ih =>
      obtain ⟨hbefore, hinput⟩ := ih
      obtain ⟨hout, hR⟩ := (keepsNumbers.holds _ hbefore hinput).of_ok hrun
      exact ⟨hR.2 hbefore, hout⟩
  | @continuation env scope name continuation rest earlier later t parts before after _ hrun ih =>
      obtain ⟨hbefore, hinput⟩ := ih
      have hstep := run_bind_of_mapM_eq_ok scope hrun
      have hearlier : AllNumbered before earlier := hinput.of_subset (by simp)
      obtain ⟨-, hR⟩ := (keepsNumbers.holds _ hbefore hearlier).of_ok hstep
      exact ⟨hR.2 hbefore, List.forall_mem_singleton.mpr ((hinput t (by simp)).later hR)⟩
  | @selector env scope label properties source target rest selector edgeEnd earlier later created t
      before after _ hrun _ _ ih =>
      obtain ⟨hbefore, hinput⟩ := ih
      have hstep : (evaluateStep access (.addEdge label properties source target) earlier scope).run
          before = (.ok created, after) := hrun
      have hearlier : AllNumbered before earlier := hinput.of_subset (by simp)
      obtain ⟨-, hR⟩ := (keepsNumbers.holds _ hbefore hearlier).of_ok hstep
      exact ⟨hR.2 hbefore, List.forall_mem_singleton.mpr ((hinput t (by simp)).later hR)⟩

end Numbers

end PropertyGraph
