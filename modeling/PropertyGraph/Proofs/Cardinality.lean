import PropertyGraph.Proofs.Looking

/-!
# The bound on results holds of the engine

`Cardinality.of` predicts how many results steps can have for one input, and edges are only built with
selectors for which it predicts at most one. The bound is read as a set of numbers (`Admits`), and each
entry of the analysis is shown to contain what the engine does, for a list of inputs instead of a single
one: that is what the steps after the first one start from, and the continuation of a bind starts anew
for each member of it.

From this follows what the engine can say of a selector. One that has been accepted resolves to at most
one vertex, and steps whose selectors have all been accepted never report more than that.
-/

namespace PropertyGraph

namespace Cardinality

/-- The numbers of results that a bound allows. -/
def Admits : Cardinality → Nat → Prop
  | zero, n => n = 0
  | atMostOne, n | one, n => n ≤ 1
  | many, _ => True

theorem Admits.of_le {c : Cardinality} {m n : Nat} (h : c.Admits n) (hle : m ≤ n) : c.Admits m := by
  cases c with
  | zero => exact Nat.le_zero.mp (h ▸ hle)
  | atMostOne => exact Nat.le_trans hle h
  | one => exact Nat.le_trans hle h
  | many => trivial

theorem Admits.of_zero {c : Cardinality} {n : Nat} (h : n = 0) : c.Admits n := by
  cases c <;> simp [Admits, h]

theorem Admits.times {c d : Cardinality} {parts : List (List Traverser)}
    (h : c.Admits parts.length) (hparts : ∀ part ∈ parts, d.Admits part.length) :
    (c.times d).Admits parts.flatten.length := by
  cases parts with
  | nil => exact .of_zero rfl
  | cons part rest =>
      have hpart : d.Admits part.length := hparts part (by simp)
      cases hrest : rest with
      | nil =>
          -- a single input: the results are those of the only part
          have hflat : [part].flatten.length = part.length := by simp
          rw [hflat]
          cases c with
          | zero => simp [hrest, Admits] at h
          | atMostOne => cases d <;> exact hpart
          | one => cases d <;> exact hpart
          | many => cases d <;> first | exact hpart | trivial
      | cons part' rest' =>
          -- several inputs, which only one bound allows
          cases c with
          | zero => simp [hrest, Admits] at h
          | atMostOne => simp [hrest, Admits] at h
          | one => simp [hrest, Admits] at h
          | many =>
              cases d with
              | zero =>
                  have hnil : ∀ p ∈ part :: part' :: rest', p = [] := fun p hp =>
                    List.length_eq_zero_iff.mp (hparts p (hrest ▸ hp))
                  change (List.flatten _).length = 0
                  rw [List.length_eq_zero_iff, List.flatten_eq_nil_iff]
                  exact hnil
              | atMostOne => trivial
              | one => trivial
              | many => trivial

theorem Admits.of_times_one {c : Cardinality} {n : Nat} (h : (c.times one).Admits n) : c.Admits n := by
  cases c with
  | zero => exact h
  | atMostOne => exact h
  | one => exact h
  | many => trivial

theorem one_admits_singleton (t : Traverser) : one.Admits [t].length := Nat.le_refl 1

theorem ofCount_admits (n : Nat) : (ofCount n).Admits n := by
  match n with
  | 0 => rfl
  | 1 => exact Nat.le_refl 1
  | _ + 2 => trivial

section Look

variable {derive : Item → Except EngineError (List Item)} {input out : List Traverser}
  {c d : Cardinality} {g : Graph}

theorem admits_of_expand (h : c.Admits input.length) (hout : expand derive input = .ok out)
    (hderive : ∀ item items, derive item = .ok items → d.Admits items.length) :
    (c.times d).Admits out.length := by
  obtain ⟨parts, rfl, hlength, hparts⟩ := parts_of_expand_eq_ok hout
  refine Admits.times (hlength ▸ h) fun part hpart => ?_
  obtain ⟨t, -, items, hitems, rfl⟩ := hparts part hpart
  rw [List.length_map]
  exact hderive t.item items hitems

theorem admits_of_expand_le_one (h : c.Admits input.length) (hout : expand derive input = .ok out)
    (hderive : ∀ item items, derive item = .ok items → items.length ≤ 1) : c.Admits out.length :=
  .of_times_one (admits_of_expand (d := one) h hout hderive)

theorem length_endpoints_le {direction : Direction} {item : Item} {items : List Item}
    (hdirection : direction ≠ .both) (h : g.endpoints direction item = .ok items) :
    items.length ≤ 1 := by
  unfold Graph.endpoints at h
  split at h
  · cases h
    cases g.edges.get? _ with
    | none => exact Nat.zero_le 1
    | some e => cases direction <;> first | exact Nat.le_refl 1 | exact absurd rfl hdirection
  · cases h

theorem length_projected_le {projection : Projection} {item : Item} {items : List Item}
    (h : g.projected projection item = .ok items) : items.length ≤ 1 := by
  unfold Graph.projected at h
  split at h <;> cases h
  · exact Nat.le_refl 1
  · exact Option.length_toList_le
  · exact Option.length_toList_le
  · exact Nat.le_refl 1

theorem admits_of_injected {values : List Json} {scope : Bindings} (h : c.Admits input.length) :
    (c.afterInject values.length).Admits (injected values scope input).length := by
  match values with
  | [] =>
      -- without constants an injection can only take the source away
      unfold injected
      split
      · rw [List.flatMap_def]
        refine Admits.of_times_one (Admits.times (by rwa [List.length_map]) fun part hpart => ?_)
        obtain ⟨t, -, rfl⟩ := List.mem_map.mp hpart
        split
        · exact Nat.zero_le 1
        · exact Nat.le_refl 1
      · simpa [afterInject] using h
  | [v] =>
      cases c with
      | zero =>
          have hnil : input = [] := List.length_eq_zero_iff.mp h
          subst hnil
          exact Nat.le_refl 1
      | atMostOne => trivial
      | one => trivial
      | many => trivial
  | _ :: _ :: _ => cases c <;> trivial

theorem admits_of_take {count : UInt64} (h : c.Admits input.length) :
    (c.afterLimit count).Admits (input.take count.toNat).length := by
  have hle : (input.take count.toNat).length ≤ input.length :=
    List.length_take_le' _ _
  unfold afterLimit
  split
  · rename_i hzero
    subst hzero
    simp [Admits]
  · split
    · rename_i hone
      subst hone
      have hle_one : (input.take (1 : UInt64).toNat).length ≤ 1 := List.length_take_le _ _
      cases c with
      | zero => exact h.of_le hle
      | atMostOne => exact hle_one
      | one => exact hle_one
      | many => exact hle_one
    · exact h.of_le hle

theorem admits_of_look {step : Step} {scope : Bindings} (hlooks : step.looks = true)
    (h : c.Admits input.length) (hout : g.look scope input step = .ok out) :
    (c.step step).Admits out.length := by
  unfold Graph.look at hout
  cases step with
  | selectAll kind => exact admits_of_expand h hout fun _ _ _ => trivial
  | selectById kind ids =>
      refine admits_of_expand h hout fun _ items hitems => ?_
      cases hitems
      rw [List.length_map]
      exact (ofCount_admits ids.length).of_le (List.length_filterMap_le _ _)
  | typeFilter labels =>
      cases hout
      have hle := List.length_filter_le (fun t => g.hasLabel labels t.item) input
      cases c <;> exact Admits.of_le h hle
  | traverse direction labels target => exact admits_of_expand h hout fun _ _ _ => trivial
  | edgeVertex direction =>
      cases direction with
      | outgoing =>
          exact admits_of_expand_le_one h hout fun _ _ => length_endpoints_le Direction.noConfusion
      | incoming =>
          exact admits_of_expand_le_one h hout fun _ _ => length_endpoints_le Direction.noConfusion
      | both => exact admits_of_expand h hout fun _ _ _ => trivial
  | filter predicate =>
      have hle := (sublist_of_satisfying_eq_ok hout).length_le
      cases c <;> exact Admits.of_le h hle
  | inject values =>
      cases hout
      exact admits_of_injected h
  | fold =>
      cases hout
      exact Nat.le_refl 1
  | project projection =>
      cases projection with
      | count =>
          cases hout
          exact Nat.le_refl 1
      | id => exact admits_of_expand_le_one h hout fun _ _ => length_projected_le
      | label => exact admits_of_expand_le_one h hout fun _ _ => length_projected_le
      | values key => exact admits_of_expand_le_one h hout fun _ _ => length_projected_le
  | limit count =>
      cases hout
      exact admits_of_take h
  | addVertex _ _ | addEdge _ _ _ _ | update _ | bind _ _ | drop => cases hlooks

end Look

/-! ### All steps

The bound of a bind is made with the bound of its continuation from a single traverser. So steps and sequences
are taken together, by the structure of the steps. -/

/-- A bound on the inputs of a step gives a bound on its results. -/
def BoundsStep (step : Step) : Prop :=
  ∀ {c : Cardinality} {access : Access} {input : List Traverser} {scope : Bindings} {g : Graph},
    c.Admits input.length →
      Ensures (evaluateStep access step input scope) g
        (fun out _ => (c.step step).Admits out.length) fun _ _ => True

def BoundsSteps (sequence : List Step) : Prop :=
  ∀ {c : Cardinality} {access : Access} {input : List Traverser} {scope : Bindings} {g : Graph},
    c.Admits input.length →
      Ensures (evaluateSteps access sequence input scope) g
        (fun out _ => (c.steps sequence).Admits out.length) fun _ _ => True

theorem bounds : Step.Induction BoundsStep BoundsSteps where
  look step hlooks := by
    intro c access input scope g h
    rw [evaluateStep_of_looks hlooks]
    exact .read (fun out hout => admits_of_look hlooks h hout) fun _ _ => trivial
  addVertex label properties := by
    intro c access input scope g h
    rw [evaluateStep_addVertex]
    refine (Ensures.mapM_pure (P := fun _ => True) (F := fun _ => True) fun _ _ _ =>
      .trivial).mono ?_ fun _ _ _ => trivial
    intro out _ ⟨hlength, _⟩
    change c.Admits out.length
    rwa [hlength]
  addEdge label properties source target _ _ := by
    intro c access input scope g h
    rw [evaluateStep_addEdge]
    refine (Ensures.mapM_pure (P := fun _ => True) (F := fun _ => True) fun _ _ _ =>
      .trivial).mono ?_ fun _ _ _ => trivial
    intro out _ ⟨hlength, _⟩
    change c.Admits out.length
    rwa [hlength]
  update properties := by
    intro c access input scope g h
    rw [evaluateStep_update]
    exact .bind (Ensures.trivial.mono (fun _ _ _ => .pure h) fun _ _ _ => trivial)
  bind name continuation ih := by
    intro c access input scope g h
    rw [evaluateStep_bind]
    refine .bind ((Ensures.mapM_pure (P := fun part => (steps one continuation).Admits part.length)
      (F := fun _ => True) fun t _ g' => ?_).mono ?_ fun _ _ _ => trivial)
    · -- the continuation starts from a single traverser, whatever the bound on the inputs is
      refine .bind ((ih (one_admits_singleton _)).mono ?_ fun _ _ _ => trivial)
      intro results _ hresults
      refine .pure ?_
      rwa [List.length_map]
    · intro parts _ ⟨hlength, hparts⟩
      exact .pure (Admits.times (hlength ▸ h) hparts)
  drop := by
    intro c access input scope g h
    rw [evaluateStep_drop]
    exact .bind (Ensures.trivial.mono (fun _ _ _ => .pure rfl) fun _ _ _ => trivial)
  nil := fun h => .pure h
  cons step rest hstep hrest := by
    intro c access input scope g h
    rw [evaluateSteps_cons]
    exact .bind ((hstep h).mono (fun out _ hout => hrest hout) fun _ _ h => h)

theorem of_admits {access : Access} {sequence : List Step} {t : Traverser} {scope : Bindings}
    {g g' : Graph} {out : List Traverser}
    (h : (evaluateSteps access sequence [t] scope).run g = (.ok out, g')) :
    (of sequence).Admits out.length :=
  (bounds.holdsOfAll sequence (one_admits_singleton t)).of_ok h

/-- A bound with which a selector is accepted. -/
def isSingle : Cardinality → Bool
  | one | atMostOne => true
  | zero | many => false

theorem checkSelector_eq_ok_iff {draft : Traversal.EdgeDraft} {edgeEnd : EdgeEnd}
    {selector : List Step} :
    Traversal.checkSelector draft edgeEnd selector = .ok () ↔ (of selector).isSingle = true := by
  unfold Traversal.checkSelector
  cases of selector <;> simp [isSingle]

/-- The message for a selector without results is given to no other one. -/
theorem of_eq_zero_of_checkSelector {draft : Traversal.EdgeDraft} {edgeEnd : EdgeEnd}
    {selector : List Step}
    (h : Traversal.checkSelector draft edgeEnd selector = .error (.cardinality
      s!"'{edgeEnd.text}' selector of edge '{draft.label}' resolves to no vertex")) :
    of selector = zero := by
  unfold Traversal.checkSelector at h
  cases hof : of selector with
  | zero => rfl
  | one | atMostOne => simp [hof] at h
  | many =>
      simp only [hof, Except.error.injEq, TraversalError.cardinality.injEq] at h
      have hlength := congrArg String.length h
      have hquote : "'".length = 1 := rfl
      have hresolves : "' resolves to no vertex".length = 23 := rfl
      have hmay : " may resolve to more than one vertex".length = 36 := rfl
      simp only [toString, String.length_append, hquote, hresolves, hmay] at hlength
      omega

theorem length_le_one_of_isSingle {c : Cardinality} {n : Nat} (hsingle : c.isSingle = true)
    (h : c.Admits n) : n ≤ 1 := by
  cases c with
  | zero | many => cases hsingle
  | atMostOne | one => exact h

end Cardinality

namespace Step

mutual
/-- Whether all selectors of a step have been accepted, also those inside of it. -/
def selectorsAccepted : Step → Bool
  | addEdge _ _ source target => selectorAccepted source && selectorAccepted target
  | bind _ continuation => allSelectorsAccepted continuation
  | _ => true
termination_by structural s => s
def selectorAccepted : Option (List Step) → Bool
  | none => true
  | some steps => (Cardinality.of steps).isSingle && allSelectorsAccepted steps
termination_by structural s => s
def allSelectorsAccepted : List Step → Bool
  | [] => true
  | step :: rest => selectorsAccepted step && allSelectorsAccepted rest
termination_by structural s => s
end

end Step

/-- A failure that does not report several vertices in the place of one. -/
def Unambiguous (e : EngineError) : Prop := ∀ label n, e = .endpoint label n → n = 0

theorem unambiguous_unsupportedInput {step found : String} :
    Unambiguous (.unsupportedInput step found) := fun _ _ h => nomatch h

theorem unambiguous_of_look {g : Graph} {scope : Bindings} {input : List Traverser} {step : Step}
    {e : EngineError} (h : g.look scope input step = .error e) : Unambiguous e := by
  intro label n he
  rcases of_look_eq_error h with ⟨t, -, -, name, hname⟩ | ⟨predicate, -, t, -, name, -, hname, -⟩
  · rw [he] at hname
    cases hname
  · rw [he] at hname
    cases hname

theorem unambiguous_of_vertexFor {step : String} {item : Item} {e : EngineError}
    (h : item.vertexFor step = .error e) : Unambiguous e := by
  rw [(of_vertexFor_eq_error h).2]
  exact unambiguous_unsupportedInput

theorem unambiguous_of_chosenVertex {label : String} {found : List Traverser} {e : EngineError}
    (hfound : found.length ≤ 1) (h : chosenVertex label found = .error e) : Unambiguous e := by
  match found with
  | [] =>
      intro name n he
      cases h
      cases he
      rfl
  | [t] => exact unambiguous_of_vertexFor h
  | _ :: _ :: _ => simp at hfound

/-- Steps whose selectors have been accepted fail unambiguously. -/
def FailsUnambiguously (step : Step) : Prop :=
  step.selectorsAccepted = true →
    ∀ {access : Access} {input : List Traverser} {scope : Bindings} {g : Graph},
      Ensures (evaluateStep access step input scope) g (fun _ _ => True) fun e _ => Unambiguous e

def FailsUnambiguouslyAll (steps : List Step) : Prop :=
  Step.allSelectorsAccepted steps = true →
    ∀ {access : Access} {input : List Traverser} {scope : Bindings} {g : Graph},
      Ensures (evaluateSteps access steps input scope) g (fun _ _ => True) fun e _ => Unambiguous e

theorem unambiguous_invalidRequest {reason : String} : Unambiguous (.invalidRequest reason) :=
  fun _ _ h => nomatch h

theorem failsUnambiguously : Step.Induction FailsUnambiguously FailsUnambiguouslyAll where
  look step hlooks := by
    intro _ access input scope g
    rw [evaluateStep_of_looks hlooks]
    exact .read (fun _ _ => trivial) fun _ h => unambiguous_of_look h
  addVertex label properties := by
    intro _ access input scope g
    rw [evaluateStep_addVertex]
    refine (Ensures.mapM_pure (P := fun _ => True) fun t _ g' => ?_).mono
      (fun _ _ _ => trivial) fun _ _ h => h
    exact .addVertexFrom trivial fun _ _ => unambiguous_invalidRequest
  addEdge label properties source target hsource htarget := by
    intro haccepted access input scope g
    simp only [Step.selectorsAccepted, Bool.and_eq_true] at haccepted
    rw [evaluateStep_addEdge]
    refine (Ensures.mapM_pure (P := fun _ => True) fun t _ g' => ?_).mono
      (fun _ _ _ => trivial) fun _ _ h => h
    refine .connect (fun _ h => unambiguous_of_vertexFor h)
      (fun _ _ => unambiguous_invalidRequest) fun current edgeEnd selector _ honly => ?_
    have hchecked : Step.selectorAccepted (some selector) = true :=
      Step.of_onlySelector? (P := fun chosen => Step.selectorAccepted chosen = true)
        haccepted.1 haccepted.2 honly
    simp only [Step.selectorAccepted, Bool.and_eq_true] at hchecked
    obtain ⟨hsingle, hinner⟩ := hchecked
    have hselector : FailsUnambiguouslyAll selector :=
      Step.all_of_onlySelector? hsource htarget honly
    have hlength : Ensures (evaluateSteps access selector [t] t.bindings) g'
        (fun found _ => (Cardinality.of selector).Admits found.length) fun _ _ => True :=
      Cardinality.bounds.holdsOfAll selector (Cardinality.one_admits_singleton t)
    refine (hlength.and (hselector hinner)).mono ?_ fun _ _ h => h.2
    intro found _ ⟨hfound, _⟩
    exact .read (fun _ _ => ⟨trivial, fun _ _ => unambiguous_invalidRequest⟩) fun _ h =>
      unambiguous_of_chosenVertex (Cardinality.length_le_one_of_isSingle hsingle hfound) h
  update properties := by
    intro _ access input scope g
    rw [evaluateStep_update]
    refine .bind ((Ensures.forM_pure fun t _ g' => ?_).mono (fun _ _ _ => .pure trivial)
      fun _ _ h => h)
    exact .updateItem (fun _ _ _ => trivial) (fun _ _ => unambiguous_invalidRequest)
      fun _ => unambiguous_unsupportedInput
  bind name continuation ih := by
    intro haccepted access input scope g
    rw [evaluateStep_bind]
    refine .bind ((Ensures.mapM_pure (P := fun _ => True) fun t _ g' => ?_).mono
      (fun _ _ _ => .pure trivial) fun _ _ h => h)
    exact .continueFrom ((ih haccepted).mono (fun _ _ _ => trivial) fun _ _ h => h)
  drop := by
    intro _ access input scope g
    rw [evaluateStep_drop]
    refine .bind ((Ensures.forM_pure fun t _ g' => ?_).mono (fun _ _ _ => .pure trivial)
      fun _ _ h => h)
    exact .dropItem (fun _ _ _ => trivial) (fun _ => trivial) fun _ _ => unambiguous_invalidRequest
  nil := fun _ => .pure trivial
  cons step rest hstep hrest := by
    intro haccepted access input scope g
    simp only [Step.allSelectorsAccepted, Bool.and_eq_true] at haccepted
    rw [evaluateSteps_cons]
    exact .bind ((hstep haccepted.1).mono (fun _ _ _ => hrest haccepted.2) fun _ _ h => h)

/-- The bound on the results of steps for one input is right, whatever the steps do to the graph on the
way, so an endpoint is never reported to be several vertices if the selectors have been accepted. -/
theorem results_within_cardinality (steps : List Step) :
    (∀ {access : Access} {t : Traverser} {scope : Bindings} {g g' : Graph} {out : List Traverser},
      (evaluateSteps access steps [t] scope).run g = (.ok out, g') →
        (Cardinality.of steps = .zero → out.length = 0) ∧
        (Cardinality.of steps = .one ∨ Cardinality.of steps = .atMostOne → out.length ≤ 1) ∧
        ∀ (draft : Traversal.EdgeDraft) (edgeEnd : EdgeEnd),
          (Traversal.checkSelector draft edgeEnd steps = .ok () → ∀ name n,
            chosenVertex draft.label out = .error (.endpoint name n) → n = 0) ∧
          (Traversal.checkSelector draft edgeEnd steps = .error (.cardinality
            s!"'{edgeEnd.text}' selector of edge '{draft.label}' resolves to no vertex") →
            out = [])) ∧
    (Step.allSelectorsAccepted steps = true →
      ∀ {access : Access} {input : List Traverser} {scope : Bindings} {g g' : Graph} {name : String}
        {n : Nat},
        (evaluateSteps access steps input scope).run g = (.error (.endpoint name n), g') →
          n = 0) := by
  refine ⟨?_, fun haccepted => ?_⟩
  · intro access t scope g g' out hrun
    have hbound : (Cardinality.of steps).Admits out.length := Cardinality.of_admits hrun
    have hzero : Cardinality.of steps = .zero → out.length = 0 := by
      intro hof
      rw [hof] at hbound
      exact hbound
    refine ⟨hzero, ?_, fun draft edgeEnd => ⟨?_, ?_⟩⟩
    · rintro (hof | hof) <;> rw [hof] at hbound <;> exact hbound
    · intro hcheck name n hfails
      have hsingle := Cardinality.checkSelector_eq_ok_iff.mp hcheck
      have hlength := Cardinality.length_le_one_of_isSingle hsingle hbound
      exact unambiguous_of_chosenVertex hlength hfails name n rfl
    · intro hcheck
      exact List.length_eq_zero_iff.mp (hzero (Cardinality.of_eq_zero_of_checkSelector hcheck))
  · intro access input scope g g' name n hrun
    exact (failsUnambiguously.holdsOfAll steps haccepted).of_error hrun name n rfl

theorem selectors_within_cardinality :
    let g := (Graph.empty.addVertex "person" []).2
    let first : List Step := [.selectAll .vertex, .limit 1]
    let places : List Step := [.typeFilter ["place"]]
    let connects : List Step := [.addEdge "knows" [] none (some places)]
    (∃ out, (evaluateSteps .read first [⟨.root, []⟩] []).run g = (.ok out, g) ∧ out.length ≤ 1) ∧
    (∃ out g', (evaluateSteps .write [.drop] [⟨.element .vertex 1, []⟩] []).run g = (.ok out, g') ∧
      out = []) ∧
    (∃ out n, (evaluateSteps .write places [⟨.element .vertex 1, []⟩] []).run g = (.ok out, g) ∧
      chosenVertex "knows" out = .error (.endpoint "knows" n) ∧ n = 0) ∧
    ∃ n, (evaluateSteps .write connects [⟨.element .vertex 1, []⟩] []).run g
        = (.error (.endpoint "knows" n), g) ∧ n = 0 := by
  intro g first places connects
  have hfirst : (evaluateSteps .read first [⟨.root, []⟩] []).run g
      = (.ok [⟨.element .vertex 1, []⟩], g) := rfl
  have hdrop : (evaluateSteps .write [.drop] [⟨.element .vertex 1, []⟩] []).run g
      = (.ok [], g.remove .vertex 1) := rfl
  have hplaces : (evaluateSteps .write places [⟨.element .vertex 1, []⟩] []).run g
      = (.ok [], g) := rfl
  have hconnects : (evaluateSteps .write connects [⟨.element .vertex 1, []⟩] []).run g
      = (.error (.endpoint "knows" 0), g) := rfl
  refine ⟨⟨_, hfirst, ?_⟩, ⟨_, _, hdrop, ?_⟩, ⟨_, 0, hplaces, rfl, ?_⟩,
    ⟨0, hconnects, ?_⟩⟩
  · exact ((results_within_cardinality first).1 hfirst).2.1 (.inr rfl)
  · have hall := ((results_within_cardinality [.drop]).1 hdrop).2.2 ⟨default, "knows", []⟩ .target
    exact hall.2 rfl
  · have hall := ((results_within_cardinality places).1 hplaces).2.2 ⟨default, "knows", []⟩ .target
    exact hall.1 rfl "knows" 0 rfl
  · exact (results_within_cardinality connects).2 rfl hconnects

end PropertyGraph
