import PropertyGraph.Proofs.Looking

/-!
# Steps that fit the items they meet

Steps are checked against the kind of element that the items before them are known to be. `fits` asks
whether a step can handle such items, and the check goes on with the kind after it; nothing is known of
values, of lists and of the source. A continuation is checked with the kind that its bind
meets, and a selector has to end with vertices.

The engine does not check kinds beforehand, it fails when it meets an item that it cannot handle. It does
not meet one in steps that fit, whatever has become of the elements in the meantime: an element that has
been removed is still an item of its kind.
-/

namespace PropertyGraph

namespace Step

mutual
/-- Whether a step can handle all items of a kind, and the steps inside of it those that they meet. -/
def fits (kind : Option ElementKind) : Step → Bool
  | addEdge _ _ source target =>
    kind == some .vertex && (onlySelector? source target).isSome && selectorFits kind source &&
      selectorFits kind target
  | bind _ continuation => fitsAll kind continuation
  | step => step.accepts kind
termination_by structural s => s
def selectorFits (kind : Option ElementKind) : Option (List Step) → Bool
  | none => true
  | some steps => fitsAll kind steps && kindAfterAll kind steps == some .vertex
termination_by structural s => s
def fitsAll (kind : Option ElementKind) : List Step → Bool
  | [] => true
  | step :: rest => fits kind step && fitsAll (kindAfter kind step) rest
termination_by structural s => s
end

theorem kindAfterAll_append (kind : Option ElementKind) (steps rest : List Step) :
    kindAfterAll kind (steps ++ rest) = kindAfterAll (kindAfterAll kind steps) rest := by
  induction steps generalizing kind with
  | nil => rfl
  | cons step steps ih => exact ih (kindAfter kind step)

theorem fitsAll_append (kind : Option ElementKind) (steps rest : List Step) :
    fitsAll kind (steps ++ rest) = (fitsAll kind steps && fitsAll (kindAfterAll kind steps) rest) := by
  induction steps generalizing kind with
  | nil => rfl
  | cons step steps ih =>
      have hrest := ih (kindAfter kind step)
      simp only [List.cons_append, fitsAll, kindAfterAll, hrest, Bool.and_assoc]

end Step

/-- An item is of a kind; without a kind, nothing is known of it. -/
def Item.IsOf (kind : Option ElementKind) (item : Item) : Prop :=
  ∀ known, kind = some known → item.kind? = some known

def AllOf (kind : Option ElementKind) (input : List Traverser) : Prop :=
  ∀ t ∈ input, t.item.IsOf kind

theorem Item.isOf_element (kind : ElementKind) (id : Nat) :
    (Item.element kind id).IsOf (some kind) := fun _ h => h

theorem Item.isOf_none (item : Item) : item.IsOf none := fun _ h => nomatch h

theorem Reached.isOf {g : Graph} {kind : Option ElementKind} {item : Item}
    (h : Reached g kind item) : item.IsOf kind := by
  cases h with
  | present _ => exact Item.isOf_element _ _
  | endpoint _ _ => exact Item.isOf_element .vertex _
  | other _ => exact item.isOf_none

theorem Step.accepts_of_isOf {step : Step} {kind : Option ElementKind} {item : Item}
    (haccepts : step.accepts kind = true) (hitem : item.IsOf kind) :
    step.accepts item.kind? = true := by
  cases kind with
  | some known => rwa [hitem known rfl]
  | none =>
      -- a step that accepts items of which nothing is known accepts all items
      cases step with
      | project projection =>
          cases projection with
          | count => rfl
          | id | label | values _ => cases haccepts
      | addEdge _ _ _ _ | traverse _ _ _ | edgeVertex _ | update _ => cases haccepts
      | selectAll _ | selectById _ _ | typeFilter _ | addVertex _ _ | filter _ | inject _ | fold
      | bind _ _ | limit _ | drop => rfl

namespace AllOf

variable {kind : Option ElementKind} {input out : List Traverser} {g : Graph}

theorem none (input : List Traverser) : AllOf none input := fun t _ => t.item.isOf_none

theorem of_look {step : Step} {scope : Bindings} (h : AllOf kind input)
    (hlooks : step.looks = true) (hout : g.look scope input step = .ok out) :
    AllOf (step.kindAfter kind) out := by
  intro t' ht'
  rcases of_mem_look hlooks hout ht' with ⟨hold, hkind⟩ | ⟨hreached, -⟩
  · exact fun known hknown => h t' hold known (hkind kind known hknown)
  · exact (hreached kind).isOf

end AllOf

/-- A failure that does not refuse an item or a request. -/
def Handles (e : EngineError) : Prop :=
  (∀ step found, e ≠ .unsupportedInput step found) ∧ ∀ reason, e ≠ .invalidRequest reason

theorem handles_of_look {kind : Option ElementKind} {input : List Traverser} {step : Step}
    {scope : Bindings} {g : Graph} {e : EngineError} (h : AllOf kind input)
    (haccepts : step.accepts kind = true) (hfails : g.look scope input step = .error e) :
    Handles e := by
  rcases of_look_eq_error hfails with ⟨t, ht, hrefuses, -⟩ | ⟨-, -, -, -, name, -, rfl, -⟩
  · rw [Step.accepts_of_isOf haccepts (h t ht)] at hrefuses
    cases hrefuses
  · exact ⟨(fun _ _ h => nomatch h), fun _ h => nomatch h⟩

theorem handles_of_chosenVertex {label : String} {found : List Traverser} {e : EngineError}
    (h : AllOf (some .vertex) found) (hfails : chosenVertex label found = .error e) : Handles e := by
  unfold chosenVertex at hfails
  split at hfails
  · exact absurd (h _ (by simp) .vertex rfl) (of_vertexFor_eq_error hfails).1
  · cases hfails
    exact ⟨(fun _ _ h => nomatch h), fun _ h => nomatch h⟩

/-- A step that fits the items before it handles them and leaves items of the kind it should, as long as
it does not change the graph without access. -/
def KeepsKinds (step : Step) : Prop :=
  ∀ {kind : Option ElementKind} {access : Access} {input : List Traverser} {scope : Bindings}
    {g : Graph}, step.fits kind = true → (access = .read → step.mutates = false) →
      AllOf kind input →
        Ensures (evaluateStep access step input scope) g
          (fun out _ => AllOf (step.kindAfter kind) out) fun e _ => Handles e

def KeepsKindsAll (steps : List Step) : Prop :=
  ∀ {kind : Option ElementKind} {access : Access} {input : List Traverser} {scope : Bindings}
    {g : Graph}, Step.fitsAll kind steps = true →
      (access = .read → Step.anyMutates steps = false) → AllOf kind input →
        Ensures (evaluateSteps access steps input scope) g
          (fun out _ => AllOf (Step.kindAfterAll kind steps) out) fun e _ => Handles e

theorem fits_of_looks {step : Step} {kind : Option ElementKind} (hlooks : step.looks = true) :
    step.fits kind = step.accepts kind := by
  cases step <;> first | rfl | cases hlooks

theorem keepsKinds : Step.Induction KeepsKinds KeepsKindsAll where
  look step hlooks := by
    intro kind access input scope g hfits _ h
    rw [fits_of_looks hlooks] at hfits
    rw [evaluateStep_of_looks hlooks]
    exact .read (fun _ hout => h.of_look hlooks hout) fun _ hfails => handles_of_look h hfits hfails
  addVertex label properties := by
    intro kind access input scope g _ haccess _
    rw [evaluateStep_addVertex]
    refine (Ensures.mapM_pure (P := fun t : Traverser => t.item.IsOf (some .vertex))
      (F := Handles) fun t _ g' => ?_).mono (fun _ _ h => h.2) fun _ _ h => h
    exact .addVertexFrom (Item.isOf_element .vertex _) fun hread => nomatch haccess hread
  addEdge label properties source target hsource htarget := by
    intro kind access input scope g hfits haccess h
    simp only [Step.fits, Bool.and_eq_true, beq_iff_eq] at hfits
    obtain ⟨⟨⟨rfl, honly⟩, hsourceFits⟩, htargetFits⟩ := hfits
    rw [evaluateStep_addEdge]
    refine (Ensures.mapM_pure (P := fun t : Traverser => t.item.IsOf (some .edge))
      (F := Handles) fun t ht g' => ?_).mono (fun _ _ h => h.2) fun _ _ h => h
    refine .connect ?_ ?_ fun current edgeEnd selector _ honly => ?_
    · intro e hfails
      exact absurd (h t ht .vertex rfl) (of_vertexFor_eq_error hfails).1
    · intro hnone
      rw [hnone] at honly
      cases honly
    · have hselector : KeepsKindsAll selector := Step.all_of_onlySelector? hsource htarget honly
      have hchecked : Step.selectorFits (some .vertex) (some selector) = true :=
        Step.of_onlySelector? (P := fun chosen => Step.selectorFits (some .vertex) chosen = true)
          hsourceFits htargetFits honly
      simp only [Step.selectorFits, Bool.and_eq_true, beq_iff_eq] at hchecked
      obtain ⟨hselectorFits, hvertices⟩ := hchecked
      have hstart : AllOf (some .vertex) [t] := List.forall_mem_singleton.mpr (h t ht)
      refine (hselector hselectorFits (fun hread => nomatch haccess hread) hstart).mono ?_
        fun _ _ h => h
      intro found _ hfound
      rw [hvertices] at hfound
      exact .read (fun _ _ => ⟨Item.isOf_element .edge _, fun hread => nomatch haccess hread⟩)
        fun _ hfails => handles_of_chosenVertex hfound hfails
  update properties := by
    intro kind access input scope g hfits haccess h
    rw [evaluateStep_update]
    refine .bind ((Ensures.forM_pure (F := Handles) fun t ht g' => ?_).mono
      (fun _ _ _ => .pure h) fun _ _ h => h)
    refine .updateItem (fun _ _ _ => trivial) (fun hread => nomatch haccess hread) fun hnone => ?_
    have haccepts : (Step.update properties).accepts kind = true := hfits
    have hitem := Step.accepts_of_isOf haccepts (h t ht)
    rw [hnone] at hitem
    cases hitem
  bind name continuation ih := by
    intro kind access input scope g hfits haccess h
    rw [evaluateStep_bind]
    refine .bind ((Ensures.mapM_pure
      (P := AllOf ((Step.bind name continuation).kindAfter kind)) (F := Handles)
      fun t ht g' => ?_).mono (fun parts _ ⟨_, hparts⟩ => .pure (forall_mem_flatten hparts))
      fun _ _ h => h)
    have hstart : AllOf kind [⟨t.item, (name, t.item) :: t.bindings⟩] :=
      List.forall_mem_singleton.mpr (h t ht)
    refine .continueFrom ((ih hfits haccess hstart).mono (fun results _ hresults => ?_)
      fun _ _ h => h)
    exact List.forall_mem_map.mpr hresults
  drop := by
    intro kind access input scope g _ haccess _
    rw [evaluateStep_drop]
    refine .bind ((Ensures.forM_pure (F := Handles) fun t _ g' => ?_).mono
      (fun _ _ _ => .pure fun _ h => nomatch h) fun _ _ h => h)
    exact .dropItem (fun _ _ _ => trivial) (fun _ => trivial) fun hread => nomatch haccess hread
  nil := fun _ _ h => .pure h
  cons step rest hstep hrest := by
    intro kind access input scope g hfits haccess h
    simp only [Step.fitsAll, Bool.and_eq_true] at hfits
    have hboth : access = .read → step.mutates = false ∧ Step.anyMutates rest = false := by
      intro hread
      have hneither := haccess hread
      simpa [Step.anyMutates] using hneither
    rw [evaluateSteps_cons]
    refine .bind ((hstep hfits.1 (fun hread => (hboth hread).1) h).mono (fun out _ hout => ?_)
      fun _ _ h => h)
    exact hrest hfits.2 (fun hread => (hboth hread).2) hout

end PropertyGraph
