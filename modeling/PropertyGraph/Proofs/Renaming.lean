import Mathlib.Data.List.Forall2
import PropertyGraph.Proofs.Agreement
import PropertyGraph.Proofs.Predicates
import PropertyGraph.Proofs.SelfContained

/-!
# Names of binds do not matter

A sequence of steps is renamed by giving its binds other names and letting each reference follow the bind
that it belongs to. `Renames` describes this without saying which names are chosen: a correspondence tells
which references of one side stand for which of the other, and inside of two binds their names correspond to
each other and to nothing else, so neither shadows what the other does not. The engine looks names up in the
bindings of each traverser. Under bindings that give corresponding references the same item, both sides go
through the same items, one step after the other, and change the graph alike.
-/

namespace PropertyGraph

/-- Which references of one sequence stand for which of another one. -/
abbrev Correspondence := BoundName → BoundName → Prop

/-- Inside of two binds: their names correspond to each other, and others as they do outside. -/
def Correspondence.under (E : Correspondence) (name name' : BoundName) : Correspondence :=
  fun n n' => (n = name ∧ n' = name') ∨ (n ≠ name ∧ n' ≠ name' ∧ E n n')

namespace Step

/-- A step without references and without further steps. -/
def isPlain : Step → Bool
  | addEdge _ _ _ _ | filter _ | bind _ _ => false
  | _ => true

mutual
/-- A step is another one, apart from the names of binds inside of it and the references that correspond. -/
inductive Renames : Correspondence → Step → Step → Prop
  | plain {E : Correspondence} {step : Step} : step.isPlain = true → Renames E step step
  /-- The two predicates are the two sides of one that refers to pairs of corresponding names. -/
  | filter {E : Correspondence} (predicate : Predicate (BoundName × BoundName)) :
      (∀ r ∈ predicate.references, E r.1 r.2) →
      Renames E (.filter (predicate.map Prod.fst)) (.filter (predicate.map Prod.snd))
  | bind {E : Correspondence} {name name' : BoundName} {continuation continuation' : List Step} :
      RenamesAll (E.under name name') continuation continuation' →
      Renames E (.bind name continuation) (.bind name' continuation')
  | addEdge {E : Correspondence} {label : String} {properties : List Property}
      {source source' target target' : Option (List Step)} :
      RenamesSelector E source source' → RenamesSelector E target target' →
      Renames E (.addEdge label properties source target)
        (.addEdge label properties source' target')
inductive RenamesSelector : Correspondence → Option (List Step) → Option (List Step) → Prop
  | absent {E : Correspondence} : RenamesSelector E none none
  | present {E : Correspondence} {steps steps' : List Step} :
      RenamesAll E steps steps' → RenamesSelector E (some steps) (some steps')
inductive RenamesAll : Correspondence → List Step → List Step → Prop
  | nil {E : Correspondence} : RenamesAll E [] []
  | cons {E : Correspondence} {step step' : Step} {rest rest' : List Step} :
      Renames E step step' → RenamesAll E rest rest' → RenamesAll E (step :: rest) (step' :: rest')
end

theorem RenamesSelector.only {E : Correspondence} {source source' target target' : Option (List Step)}
    (hsource : RenamesSelector E source source') (htarget : RenamesSelector E target target') :
    (onlySelector? source target = none ∧ onlySelector? source' target' = none) ∨
      ∃ edgeEnd selector selector', onlySelector? source target = some (edgeEnd, selector) ∧
        onlySelector? source' target' = some (edgeEnd, selector') ∧ RenamesAll E selector selector' := by
  cases hsource with
  | absent =>
      cases htarget with
      | absent => exact .inl ⟨rfl, rfl⟩
      | present h => exact .inr ⟨_, _, _, rfl, rfl, h⟩
  | present h =>
      cases htarget with
      | absent => exact .inr ⟨_, _, _, rfl, rfl, h⟩
      | present _ => exact .inl ⟨rfl, rfl⟩

end Step

theorem Predicate.map_map_of_leftInverse {ρ σ : Type} {f : ρ → σ} {k : σ → ρ}
    (h : Function.LeftInverse k f) (p : Predicate ρ) : (p.map f).map k = p := by
  rw [map_map, h.comp_eq_id, map_id]

namespace Step

theorem forall₂_filter_under {E : Correspondence} {name name' : BoundName} {free free' : List BoundName}
    (h : List.Forall₂ (E.under name name') free free') :
    List.Forall₂ E (free.filter (· != name)) (free'.filter (· != name')) := by
  induction h with
  | nil => exact .nil
  | @cons n n' _ _ hname _ ih =>
      rcases hname with ⟨rfl, rfl⟩ | ⟨hne, hne', hE⟩
      · rw [List.filter_cons_of_neg (by simp), List.filter_cons_of_neg (by simp)]
        exact ih
      · rw [List.filter_cons_of_pos (by simpa using hne), List.filter_cons_of_pos (by simpa using hne')]
        exact .cons hE ih

theorem freeNames_of_isPlain {step : Step} (h : step.isPlain = true) : step.freeNames = [] := by
  cases step <;> first | rfl | cases h

mutual
theorem freeNames_of_renames {E : Correspondence} {step step' : Step} :
    Renames E step step' → List.Forall₂ E step.freeNames step'.freeNames
  | .plain hplain => by
      rw [freeNames_of_isPlain hplain]
      exact .nil
  | .filter _ hrefs => by
      rw [freeNames, freeNames, references_map, references_map, List.forall₂_map_left_iff,
        List.forall₂_map_right_iff, List.forall₂_same]
      exact hrefs
  | .bind h => forall₂_filter_under (freeNamesIn_of_renames h)
  | .addEdge hsource htarget =>
      List.rel_append (selectorFreeNames_of_renames hsource) (selectorFreeNames_of_renames htarget)
theorem selectorFreeNames_of_renames {E : Correspondence} {selector selector' : Option (List Step)} :
    RenamesSelector E selector selector' →
      List.Forall₂ E (selectorFreeNames selector) (selectorFreeNames selector')
  | .absent => .nil
  | .present h => freeNamesIn_of_renames h
theorem freeNamesIn_of_renames {E : Correspondence} {steps steps' : List Step} :
    RenamesAll E steps steps' → List.Forall₂ E (freeNamesIn steps) (freeNamesIn steps')
  | .nil => .nil
  | .cons h h' => List.rel_append (freeNames_of_renames h) (freeNamesIn_of_renames h')
end

mutual
theorem mutates_of_renames {E : Correspondence} {step step' : Step} :
    Renames E step step' → step.mutates = step'.mutates
  | .plain _ | .filter _ _ | .addEdge _ _ => rfl
  | .bind h => anyMutates_of_renames h
theorem anyMutates_of_renames {E : Correspondence} {steps steps' : List Step} :
    RenamesAll E steps steps' → anyMutates steps = anyMutates steps'
  | .nil => rfl
  | .cons h h' => by rw [anyMutates, anyMutates, mutates_of_renames h, anyMutates_of_renames h']
end

mutual
/-- A step is its own renaming if each free name corresponds to itself. -/
theorem renames_self : ∀ (step : Step) {E : Correspondence}, (∀ n ∈ step.freeNames, E n n) →
    Renames E step step
  | .filter predicate, E, hfree => by
      have hpairs : Renames E (.filter ((predicate.map fun n => (n, n)).map Prod.fst))
          (.filter ((predicate.map fun n => (n, n)).map Prod.snd)) := by
        refine .filter _ fun r hr => ?_
        rw [references_map] at hr
        obtain ⟨n, hn, rfl⟩ := List.mem_map.mp hr
        exact hfree n hn
      rwa [Predicate.map_map_of_leftInverse fun _ => rfl,
        Predicate.map_map_of_leftInverse fun _ => rfl] at hpairs
  | .bind name continuation, E, hfree => by
      refine .bind (renamesAll_self continuation fun n hn => ?_)
      by_cases hname : n = name
      · exact .inl ⟨hname, hname⟩
      · exact .inr ⟨hname, hname, hfree n (List.mem_filter.mpr ⟨hn, by simpa using hname⟩)⟩
  | .addEdge _ _ source target, E, hfree =>
      .addEdge (renamesSelector_self source fun n hn => hfree n (List.mem_append_left _ hn))
        (renamesSelector_self target fun n hn => hfree n (List.mem_append_right _ hn))
  | .selectAll _, _, _ | .selectById _ _, _, _ | .typeFilter _, _, _ | .addVertex _ _, _, _
  | .update _, _, _ | .traverse _ _ _, _, _ | .edgeVertex _, _, _ | .inject _, _, _ | .fold, _, _
  | .project _, _, _ | .limit _, _, _ | .drop, _, _ => .plain rfl
termination_by structural step => step
theorem renamesSelector_self : ∀ (selector : Option (List Step)) {E : Correspondence},
    (∀ n ∈ selectorFreeNames selector, E n n) → RenamesSelector E selector selector
  | none, _, _ => .absent
  | some steps, _, hfree => .present (renamesAll_self steps hfree)
termination_by structural selector => selector
theorem renamesAll_self : ∀ (steps : List Step) {E : Correspondence},
    (∀ n ∈ freeNamesIn steps, E n n) → RenamesAll E steps steps
  | [], _, _ => .nil
  | step :: rest, _, hfree =>
      .cons (renames_self step fun n hn => hfree n (List.mem_append_left _ hn))
        (renamesAll_self rest fun n hn => hfree n (List.mem_append_right _ hn))
termination_by structural steps => steps
end

/-- Nothing free is renamed, so the same references are found to be unbound. -/
theorem unboundIn?_of_renames {steps steps' : List Step} (h : RenamesAll Eq steps steps') :
    unboundIn? [] steps' = unboundIn? [] steps := by
  have hfree : freeNamesIn steps = freeNamesIn steps' := by
    have hall := freeNamesIn_of_renames h
    rwa [List.forall₂_eq_eq_eq] at hall
  rw [unboundIn?_nil, unboundIn?_nil, hfree]

end Step

/-- Corresponding references stand for the same item under either bindings, or for none. -/
def Correspondence.Resolves (E : Correspondence) (bindings bindings' : Bindings) : Prop :=
  ∀ n n', E n n' → (Operand.bound n).item bindings = (Operand.bound n').item bindings'

theorem Correspondence.Resolves.under {E : Correspondence} {bindings bindings' : Bindings}
    (h : E.Resolves bindings bindings') (name name' : BoundName) (item : Item) :
    (E.under name name').Resolves ((name, item) :: bindings) ((name', item) :: bindings') := by
  rintro n n' (⟨rfl, rfl⟩ | ⟨hne, hne', hE⟩)
  · simp [Operand.item]
  · have hsame := h n n' hE
    simpa [Operand.item, List.lookup_cons, beq_false_of_ne hne, beq_false_of_ne hne'] using hsame

/-- Traversers at items, all with the same bindings. -/
def carrying (bindings : Bindings) (items : List Item) : List Traverser :=
  items.map fun item => ⟨item, bindings⟩

/-- Traversers at the same items, those of each side with the bindings of that side. -/
def SameItems (bindings bindings' : Bindings) (out out' : List Traverser) : Prop :=
  ∃ items, out = carrying bindings items ∧ out' = carrying bindings' items

section Traversers

variable {bindings bindings' : Bindings} {items : List Item} {g : Graph}

theorem map_item_carrying : (carrying bindings items).map (·.item) = items := by
  rw [carrying, List.map_map]
  exact List.map_id' items

theorem reached_carrying : reached (carrying bindings items) = items.filter (!·.isRoot) := by
  rw [reached, map_item_carrying]

theorem mapM_map_result {ε α β γ : Type} (f : α → Except ε β) (k : β → γ) (xs : List α) :
    xs.mapM (fun x => (f x).map k) = (xs.mapM f).map (List.map k) := by
  induction xs with
  | nil => rfl
  | cons x rest ih =>
      rw [List.mapM_cons, List.mapM_cons, ih]
      cases f x with
      | error e => rfl
      | ok b => cases rest.mapM f <;> rfl

/-- What is derived for each item, put together. -/
theorem mapM_carrying {ε : Type} (derive : Item → Except ε (List Item)) :
    (items.mapM fun item => (derive item).map (carrying bindings)).map List.flatten
      = ((items.mapM derive).map List.flatten).map (carrying bindings) := by
  rw [mapM_map_result]
  cases items.mapM derive with
  | error e => rfl
  | ok parts => exact congrArg Except.ok List.map_flatten.symm

theorem expand_eq_mapM (derive : Item → Except EngineError (List Item)) (input : List Traverser) :
    expand derive input
      = (input.mapM fun t => (derive t.item).map (·.map t.withItem)).map List.flatten :=
  bind_pure_comp _ _

theorem expand_carrying (derive : Item → Except EngineError (List Item)) :
    expand derive (carrying bindings items)
      = ((items.mapM derive).map List.flatten).map (carrying bindings) := by
  rw [expand_eq_mapM, carrying, List.mapM_map]
  exact mapM_carrying derive

/-- The constants that are emitted have the bindings that all have. -/
theorem injected_carrying (values : List Json) :
    injected values bindings (carrying bindings items) = carrying bindings
      (if items.any (·.isRoot) then
        items.flatMap fun item => if item.isRoot then values.map .value else [item]
      else items ++ values.map .value) := by
  have hemit : (values.map fun v => (⟨.value v, bindings⟩ : Traverser))
      = carrying bindings (values.map .value) := by
    rw [carrying, List.map_map]
    rfl
  have hany : (carrying bindings items).any (·.item.isRoot) = items.any (·.isRoot) := List.any_map
  rw [injected, hany]
  split
  · rw [carrying, List.flatMap_map, carrying, List.map_flatMap]
    refine congrArg (items.flatMap ·) (funext fun item => ?_)
    dsimp only
    split
    · exact hemit
    · rfl
  · have hfirst : ((carrying bindings items).head?.map (·.bindings)).getD bindings = bindings := by
      cases items <;> rfl
    dsimp only
    rw [hfirst, hemit]
    exact List.map_append.symm

theorem exists_look_carrying {step : Step} (hlooks : step.looks = true) (hplain : step.isPlain = true)
    (g : Graph) (items : List Item) :
    ∃ result : Except EngineError (List Item), ∀ bindings,
      g.look bindings (carrying bindings items) step = result.map (carrying bindings) := by
  cases step with
  | selectAll kind => exact ⟨_, fun _ => expand_carrying fun _ => .ok _⟩
  | selectById kind ids => exact ⟨_, fun _ => expand_carrying fun _ => .ok _⟩
  | typeFilter labels =>
      refine ⟨.ok (items.filter (g.hasLabel labels)), fun bindings => congrArg Except.ok ?_⟩
      exact List.filter_map
  | traverse direction labels target => exact ⟨_, fun _ => expand_carrying _⟩
  | edgeVertex direction => exact ⟨_, fun _ => expand_carrying _⟩
  | inject values => exact ⟨.ok _, fun _ => congrArg Except.ok (injected_carrying values)⟩
  | fold =>
      refine ⟨.ok [.list (items.filter (!·.isRoot))], fun bindings => ?_⟩
      rw [Graph.look, reached_carrying]
      rfl
  | project projection =>
      cases projection with
      | count =>
          refine ⟨.ok [.value (.int (items.filter (!·.isRoot)).length)], fun bindings => ?_⟩
          rw [Graph.look, Graph.project, reached_carrying]
          rfl
      | id | label | values _ => exact ⟨_, fun _ => expand_carrying _⟩
  | limit count => exact ⟨.ok (items.take count.toNat), fun _ => congrArg Except.ok List.map_take.symm⟩
  | filter _ => cases hplain
  | addVertex _ _ | addEdge _ _ _ _ | update _ | bind _ _ | drop => cases hlooks

theorem satisfying_eq_mapM (predicate : Predicate BoundName) (input : List Traverser) :
    g.satisfying predicate input
      = (input.mapM fun t => (predicate.holds g t).map fun holds => if holds then [t] else []).map
          List.flatten := by
  induction input with
  | nil => rfl
  | cons t rest ih =>
      rw [Graph.satisfying, List.mapM_cons, ih]
      cases predicate.holds g t with
      | error e => rfl
      | ok holds =>
          cases rest.mapM fun t => (predicate.holds g t).map fun holds => if holds then [t] else [] with
          | error e => rfl
          | ok parts => cases holds <;> rfl

theorem satisfying_carrying (predicate : Predicate BoundName) :
    g.satisfying predicate (carrying bindings items)
      = ((items.mapM fun item => (predicate.holds g ⟨item, bindings⟩).map fun holds =>
          if holds then [item] else []).map List.flatten).map (carrying bindings) := by
  rw [satisfying_eq_mapM, carrying, List.mapM_map, ← mapM_carrying]
  congr 2
  funext item
  rw [Function.comp]
  cases predicate.holds g ⟨item, bindings⟩ with
  | error e => rfl
  | ok holds => cases holds <;> rfl

/-- A selector that reaches the same items chooses the same vertex. -/
theorem chosenVertex_carrying (label : String) (bindings bindings' : Bindings) (items : List Item) :
    chosenVertex label (carrying bindings items) = chosenVertex label (carrying bindings' items) := by
  match items with
  | [] | [_] => rfl
  | _ :: _ :: rest => simp [chosenVertex, carrying]

end Traversers

/-! ### Both sides step by step

Within a scope all traversers have the same bindings, so it is enough to follow the items. Corresponding steps
take the same items to the same items and leave the bindings as they are. -/

section Steps

variable {access : Access} {E : Correspondence} {bindings bindings' : Bindings}

theorem agree_read {f f' : Graph → Except EngineError (List Traverser)}
    (h : ∀ g, ∃ result : Except EngineError (List Item),
      f g = result.map (carrying bindings) ∧ f' g = result.map (carrying bindings')) :
    Agree (SameItems bindings bindings') (Evaluation.read f) (Evaluation.read f') := by
  intro g
  obtain ⟨result, hf, hf'⟩ := h g
  rw [run_read, run_read, hf, hf']
  cases result with
  | error e => exact .inl ⟨e, g, rfl, rfl⟩
  | ok items => exact .inr ⟨_, _, g, ⟨items, rfl, rfl⟩, rfl, rfl⟩

theorem sameItems_flatten {parts parts' : List (List Traverser)}
    (h : List.Forall₂ (SameItems bindings bindings') parts parts') :
    SameItems bindings bindings' parts.flatten parts'.flatten := by
  induction h with
  | nil => exact ⟨[], rfl, rfl⟩
  | cons hpart _ ih =>
      obtain ⟨items, rfl, rfl⟩ := hpart
      obtain ⟨more, hrest, hrest'⟩ := ih
      refine ⟨items ++ more, ?_, ?_⟩
      · rw [List.flatten_cons, hrest]
        exact List.map_append.symm
      · rw [List.flatten_cons, hrest']
        exact List.map_append.symm

/-- Steps that take turns agree if their turns do. -/
theorem agree_of_turns {step step' : Step} (hlooks : step.looks = false) (hlooks' : step'.looks = false)
    (h : ∀ item, Agree (SameItems bindings bindings') (turn access step ⟨item, bindings⟩)
      (turn access step' ⟨item, bindings'⟩)) (items : List Item) (scope scope' : Bindings) :
    Agree (SameItems bindings bindings')
      (evaluateStep access step (carrying bindings items) scope)
      (evaluateStep access step' (carrying bindings' items) scope') := by
  rw [evaluateStep_of_turns hlooks, evaluateStep_of_turns hlooks', carrying, carrying, List.mapM_map,
    List.mapM_map]
  refine .bind (.mapM fun item _ => h item) fun parts parts' hparts => ?_
  exact .pure (sameItems_flatten hparts)

theorem sameItems_single (item : Item) :
    SameItems bindings bindings' [⟨item, bindings⟩] [⟨item, bindings'⟩] := ⟨[item], rfl, rfl⟩

theorem agree_refuse {α β : Type} {R : α → β → Prop} (e : EngineError) :
    Agree R (Evaluation.refuse e) (Evaluation.refuse e) := fun g => .inl ⟨e, g, rfl, rfl⟩

/-- A change that creates an element gives both sides the same one. -/
theorem agree_create (m : Evaluation Nat) (kind : ElementKind) (item : Item) :
    Agree (fun t t' => SameItems bindings bindings' [t] [t'])
      (do return Traverser.withItem ⟨item, bindings⟩ (.element kind (← m)))
      (do return Traverser.withItem ⟨item, bindings'⟩ (.element kind (← m))) := by
  refine .bind (.refl m) ?_
  rintro id _ rfl
  exact .pure (sameItems_single (.element kind id))

theorem agree_connect {label : String} {properties : List Property}
    {source source' target target' : Option (List Step)}
    (honly : (Step.onlySelector? source target = none ∧ Step.onlySelector? source' target' = none) ∨
      ∃ edgeEnd selector selector', Step.onlySelector? source target = some (edgeEnd, selector) ∧
        Step.onlySelector? source' target' = some (edgeEnd, selector') ∧
        ∀ items, Agree (SameItems bindings bindings')
          (evaluateSteps access selector (carrying bindings items) bindings)
          (evaluateSteps access selector' (carrying bindings' items) bindings'))
    (item : Item) :
    Agree (fun t t' => SameItems bindings bindings' [t] [t'])
      (connect access label properties source target ⟨item, bindings⟩)
      (connect access label properties source' target' ⟨item, bindings'⟩) := by
  rw [connect_eq, connect_eq]
  refine .bind (.refl (Evaluation.read fun _ => item.vertexFor "addEdge")) ?_
  rintro current _ rfl
  rcases honly with ⟨hnone, hnone'⟩ | ⟨edgeEnd, selector, selector', hsome, hsome', hselector⟩
  · rw [hnone, hnone']
    exact agree_refuse _
  · rw [hsome, hsome']
    refine .bind (hselector [item]) ?_
    rintro _ _ ⟨found, rfl, rfl⟩
    rw [chosenVertex_carrying label bindings bindings']
    refine .bind (.refl _) ?_
    rintro chosen _ rfl
    exact agree_create _ .edge item

/-- From the same items, under bindings that resolve corresponding references alike, a step and what it is
renamed to agree. -/
def FollowsRenaming (step : Step) : Prop :=
  ∀ {access : Access} {E : Correspondence} {step' : Step} {bindings bindings' : Bindings},
    step.Renames E step' → E.Resolves bindings bindings' → ∀ items,
      Agree (SameItems bindings bindings')
        (evaluateStep access step (carrying bindings items) bindings)
        (evaluateStep access step' (carrying bindings' items) bindings')

def AllFollowRenaming (steps : List Step) : Prop :=
  ∀ {access : Access} {E : Correspondence} {steps' : List Step} {bindings bindings' : Bindings},
    Step.RenamesAll E steps steps' → E.Resolves bindings bindings' → ∀ items,
      Agree (SameItems bindings bindings')
        (evaluateSteps access steps (carrying bindings items) bindings)
        (evaluateSteps access steps' (carrying bindings' items) bindings')

theorem followsRenaming : Step.Induction FollowsRenaming AllFollowRenaming where
  look step hlooks := by
    intro access E step' bindings bindings' h hresolves items
    cases h with
    | plain hplain =>
        rw [evaluateStep_of_looks hlooks, evaluateStep_of_looks hlooks]
        refine agree_read fun g => ?_
        obtain ⟨result, hresult⟩ := exists_look_carrying hlooks hplain g items
        exact ⟨result, hresult bindings, hresult bindings'⟩
    | filter predicate hrefs =>
        rw [evaluateStep_of_looks hlooks, evaluateStep_of_looks rfl]
        refine agree_read fun g => ⟨_, satisfying_carrying _, ?_⟩
        have hholds (item : Item) : (predicate.map Prod.fst).holds g ⟨item, bindings⟩
            = (predicate.map Prod.snd).holds g ⟨item, bindings'⟩ :=
          Predicate.holds_map predicate (fun _ _ => rfl) fun r hr => hresolves r.1 r.2 (hrefs r hr)
        simp only [hholds]
        exact satisfying_carrying _
    | bind _ | addEdge _ _ => cases hlooks
  addVertex label properties := by
    intro access E step' bindings bindings' h _ items
    cases h
    refine agree_of_turns rfl rfl (fun item => ?_) items _ _
    exact .bind (agree_create _ .vertex item) fun _ _ hsame => .pure hsame
  addEdge label properties source target hsource htarget := by
    intro access E step' bindings bindings' h hresolves items
    cases h with
    | plain hplain => cases hplain
    | addEdge hs ht =>
        refine agree_of_turns rfl rfl (fun item => ?_) items _ _
        refine .bind (agree_connect ?_ item) fun _ _ hsame => .pure hsame
        rcases hs.only ht with hnone | ⟨edgeEnd, selector, selector', hsome, hsome', h⟩
        · exact .inl hnone
        · have hselector : AllFollowRenaming selector := Step.all_of_onlySelector? hsource htarget hsome
          exact .inr ⟨edgeEnd, selector, selector', hsome, hsome', hselector h hresolves⟩
  update properties := by
    intro access E step' bindings bindings' h _ items
    cases h
    refine agree_of_turns rfl rfl (fun item => ?_) items _ _
    exact .bind (.refl (updateItem access properties item)) fun _ _ _ => .pure (sameItems_single item)
  bind name continuation ih := by
    intro access E step' bindings bindings' h hresolves items
    cases h with
    | plain hplain => cases hplain
    | @bind _ _ name' _ continuation' h =>
        refine agree_of_turns rfl rfl (fun item => ?_) items _ _
        refine .bind (ih h (hresolves.under name name' item) [item]) ?_
        rintro _ _ ⟨found, rfl, rfl⟩
        refine .pure ⟨found, ?_, ?_⟩
        · exact List.map_map
        · exact List.map_map
  drop := by
    intro access E step' bindings bindings' h _ items
    cases h
    refine agree_of_turns rfl rfl (fun item => ?_) items _ _
    exact .bind (.refl (dropItem access item)) fun _ _ _ => .pure ⟨[], rfl, rfl⟩
  nil := by
    intro access E steps' bindings bindings' h _ items
    cases h
    exact .pure ⟨items, rfl, rfl⟩
  cons step rest hstep hrest := by
    intro access E steps' bindings bindings' h hresolves items
    cases h with
    | cons h h' =>
        rw [evaluateSteps_cons, evaluateSteps_cons]
        refine .bind (hstep h hresolves items) ?_
        rintro _ _ ⟨between, rfl, rfl⟩
        exact hrest h' hresolves between

end Steps

/-- Both sides reach the same items from the source, and results are taken from the items alone. -/
theorem runSteps_of_renames {steps steps' : List Step} (h : Step.RenamesAll Eq steps steps')
    (access : Access) : runSteps access steps' = runSteps access steps := by
  have hresolves : Correspondence.Resolves Eq [] [] := by
    rintro n _ rfl
    rfl
  refine (Agree.eq ?_).symm
  refine .bind (followsRenaming.holdsOfAll steps h hresolves [.root]) ?_
  rintro _ _ ⟨items, rfl, rfl⟩
  exact .refl _

/-- Sequences that differ in the names of their binds alone are accepted alike, and then they have the same
results, the same error and the same final graph. -/
theorem binding_names_do_not_matter {steps steps' : List Step} {c : CompiledTraversal}
    (hcompile : CompiledTraversal.compile steps = .ok c) (hrenames : Step.RenamesAll Eq steps steps') :
    CompiledTraversal.compile steps' = .ok ⟨steps'⟩ ∧
      ∀ g : Graph, g.evaluate ⟨steps'⟩ = g.evaluate c := by
  obtain ⟨hsteps, hbound⟩ := unboundIn?_of_compile hcompile
  constructor
  · rw [CompiledTraversal.compile, CompiledTraversal.inScope, Step.unboundIn?_of_renames hrenames, hbound]
  · intro g
    have haccess : accessFor steps' = accessFor steps := by
      rw [accessFor, accessFor, Step.anyMutates_of_renames hrenames]
    rw [evaluate_eq_run, evaluate_eq_run, hsteps, haccess, runSteps_of_renames hrenames]

/-- A name that is bound twice, for a selector in between, and two names in its place. -/
theorem shadowed_name_made_distinct :
    let choose (name : BoundName) : List Step :=
      [.selectAll .vertex, .filter (.is ⟨.neq, .bound name⟩)]
    let steps (outer inner : BoundName) : List Step := [.selectAll .vertex, .bind outer
      [.bind inner [.addEdge "knows" [] none (some (choose inner))], .filter (.neg (.is ⟨.eq, .bound outer⟩))]]
    let g : Graph := ((Graph.empty.addVertex "person" []).2.addVertex "person" []).2
    Step.RenamesAll Eq (steps "x" "x") (steps "y" "x") ∧
      CompiledTraversal.compile (steps "x" "x") = .ok ⟨steps "x" "x"⟩ ∧
      CompiledTraversal.compile (steps "y" "x") = .ok ⟨steps "y" "x"⟩ ∧
      g.evaluate ⟨steps "y" "x"⟩ = g.evaluate ⟨steps "x" "x"⟩ ∧
      (g.evaluate ⟨steps "x" "x"⟩).2.edges.keys = [3, 4] := by
  intro choose steps g
  have hselector {E : Correspondence} : Step.RenamesAll (E.under "x" "x") (choose "x") (choose "x") :=
    .cons (.plain rfl) <| .cons
      (.filter (.is ⟨.neq, .bound ("x", "x")⟩) <| List.forall_mem_singleton.mpr <|
        .inl ⟨rfl, rfl⟩) .nil
  have hinner {E : Correspondence} : Step.RenamesAll (E.under "x" "x")
      [.addEdge "knows" [] none (some (choose "x"))] [.addEdge "knows" [] none (some (choose "x"))] :=
    .cons (.addEdge .absent (.present hselector)) .nil
  have hrenames : Step.RenamesAll Eq (steps "x" "x") (steps "y" "x") :=
    .cons (.plain rfl) <| .cons (.bind <| .cons (.bind hinner) <| .cons
      (.filter (.neg (.is ⟨.eq, .bound ("x", "y")⟩)) <| List.forall_mem_singleton.mpr <|
        .inl ⟨rfl, rfl⟩) .nil) .nil
  have hcompile : CompiledTraversal.compile (steps "x" "x") = .ok ⟨steps "x" "x"⟩ := rfl
  obtain ⟨haccepted, hsame⟩ := binding_names_do_not_matter hcompile hrenames
  exact ⟨hrenames, hcompile, haccepted, hsame g, rfl⟩

end PropertyGraph
