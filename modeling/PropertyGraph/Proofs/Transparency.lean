import Mathlib.Data.Option.NAry
import PropertyGraph.Proofs.ReadOnly
import PropertyGraph.Proofs.Renaming

/-!
# Binds that nothing refers to

A bind evaluates its continuation for one traverser after the other, with one more name bound. Without the
bind, each step of the continuation sees all traversers at once. The name makes no difference where it is
not free: this is the case of a renaming whose one side lacks it. Working for each traverser alone makes
no difference to steps that do the same for a traverser whatever others there are. If these only read, what
a sequence of them takes a list to is put together from what it takes its members to. The two ways can meet
different failures, since they come to the failing traversers in a different order, but both of them fail.
-/

namespace PropertyGraph

/-- Every name stands for itself, except for one that stands for nothing. -/
def Correspondence.without (name : BoundName) : Correspondence := fun n n' => n = n' ∧ n ≠ name

theorem Correspondence.resolves_without (name : BoundName) (item : Item) (bindings : Bindings) :
    (Correspondence.without name).Resolves ((name, item) :: bindings) bindings := by
  rintro n _ ⟨rfl, hne⟩
  simp [Operand.item, List.lookup_cons, beq_false_of_ne hne]

/-- A continuation goes through the same items whether or not a name that it does not use is bound. -/
theorem continueFrom_of_not_mem_freeNamesIn {access : Access} {name : BoundName} {steps : List Step}
    (hname : name ∉ Step.freeNamesIn steps) (t : Traverser) :
    continueFrom access name steps t = evaluateSteps access steps [t] t.bindings := by
  have hself : Step.RenamesAll (.without name) steps steps :=
    Step.renamesAll_self steps fun n hn => ⟨rfl, fun heq => hname (heq ▸ hn)⟩
  refine Agree.eq ?_
  rw [← bind_pure (evaluateSteps access steps [t] t.bindings)]
  refine .bind (followsRenaming.holdsOfAll steps hself (Correspondence.resolves_without name t.item t.bindings)
    [t.item]) ?_
  rintro _ _ ⟨items, rfl, rfl⟩
  exact .pure List.map_map

section Distributes

variable {α β γ : Type}

/-- What a list is taken to is put together from what its parts are taken to, and there is nothing if there
is nothing for one of them. -/
structure Distributes (F : List α → Option (List β)) : Prop where
  nil : F [] = some []
  append : ∀ xs ys, F (xs ++ ys) = Option.map₂ (· ++ ·) (F xs) (F ys)

namespace Distributes

theorem some : Distributes (Option.some : List α → Option (List α)) := ⟨rfl, fun _ _ => rfl⟩

theorem mapM (f : α → Option (List β)) :
    Distributes fun xs : List α => (xs.mapM f).map List.flatten := by
  refine ⟨rfl, fun xs ys => ?_⟩
  rw [List.mapM_append]
  cases xs.mapM f with
  | none => rfl
  | some parts =>
      cases ys.mapM f with
      | none => rfl
      | some parts' => exact congrArg Option.some List.flatten_append

theorem bind {F : List α → Option (List β)} {F' : List β → Option (List γ)} (h : Distributes F)
    (h' : Distributes F') : Distributes fun xs => (F xs).bind F' := by
  refine ⟨?_, fun xs ys => ?_⟩
  · rw [h.nil]
    exact h'.nil
  · rw [h.append]
    cases F xs with
    | none => rfl
    | some as =>
        cases F ys with
        | none => exact (Option.map₂_none_right _ _).symm
        | some bs => exact h'.append as bs

/-- It is enough to look at one member at a time. -/
theorem eq_mapM {F : List α → Option (List β)} (h : Distributes F) (xs : List α) :
    F xs = (xs.mapM fun x => F [x]).map List.flatten := by
  induction xs with
  | nil => exact h.nil
  | cons x rest ih =>
      have hcons : F (x :: rest) = Option.map₂ (· ++ ·) (F [x]) (F rest) := h.append [x] rest
      rw [hcons, ih, List.mapM_cons]
      cases F [x] with
      | none => rfl
      | some ys => cases rest.mapM fun x => F [x] <;> rfl

end Distributes

end Distributes

section Yields

variable {α β : Type} {g : Graph}

/-- The result of a computation that starts at a graph, unless it fails. -/
def yield? (m : Evaluation α) (g : Graph) : Option α := (m.run g : Except EngineError α × Graph).1.toOption

theorem toOption_mapM {ε : Type} (f : α → Except ε β) (xs : List α) :
    (xs.mapM f).toOption = xs.mapM fun x => (f x).toOption := by
  induction xs with
  | nil => rfl
  | cons x rest ih =>
      rw [List.mapM_cons, List.mapM_cons, ← ih]
      cases f x with
      | error e => rfl
      | ok b => cases rest.mapM f <;> rfl

theorem distributes_mapM_flatten {ε : Type} (f : α → Except ε (List β)) :
    Distributes fun xs : List α => ((xs.mapM f).map List.flatten).toOption := by
  have hloop (xs : List α) : ((xs.mapM f).map List.flatten).toOption
      = (xs.mapM fun x => (f x).toOption).map List.flatten := by
    rw [← toOption_mapM]
    cases xs.mapM f <;> rfl
  simp only [hloop]
  exact .mapM _

theorem OnlyReads.yield?_bind {m : Access → Evaluation α} (h : OnlyReads m g) (access : Access)
    (f : α → Evaluation β) :
    yield? (m access >>= f) g = (yield? (m access) g).bind fun a => yield? (f a) g := by
  obtain ⟨result, hrun, -⟩ := h
  cases result with
  | error e =>
      rw [yield?, yield?, run_bind_of_error (hrun access), hrun access]
      rfl
  | ok a =>
      rw [yield?, yield?, run_bind_of_ok (hrun access), hrun access]
      rfl

theorem OnlyReads.yield?_mapM {f : Access → α → Evaluation β}
    (h : ∀ a, OnlyReads (fun access => f access a) g) (access : Access) (xs : List α) :
    yield? (xs.mapM (f access)) g = xs.mapM fun x => yield? (f access x) g := by
  induction xs with
  | nil => rfl
  | cons x rest ih =>
      have hrest : OnlyReads (fun access => rest.mapM (f access)) g := .mapM h rest
      rw [List.mapM_cons, List.mapM_cons, (h x).yield?_bind access, ← ih]
      congr 1
      funext b
      exact hrest.yield?_bind access _

end Yields

/-- A step that does the same for a traverser whatever other traversers there are. -/
def Step.isElementwise : Step → Bool
  | fold | inject _ | limit _ | project .count => false
  | _ => true

section Elementwise

variable {access : Access} {g : Graph}

theorem distributes_look {step : Step} (hlooks : step.looks = true)
    (helementwise : step.isElementwise = true) (scope : Bindings) :
    Distributes fun input => (g.look scope input step).toOption := by
  have hexpand (derive : Item → Except EngineError (List Item)) :
      Distributes fun input => (expand derive input).toOption := by
    simp only [expand_eq_mapM]
    exact distributes_mapM_flatten _
  cases step with
  | selectAll kind => exact hexpand fun _ => .ok _
  | selectById kind ids => exact hexpand fun _ => .ok _
  | typeFilter labels => exact ⟨rfl, fun xs ys => congrArg some (List.filter_append xs ys)⟩
  | traverse direction labels target => exact hexpand _
  | edgeVertex direction => exact hexpand _
  | filter predicate =>
      simp only [Graph.look, satisfying_eq_mapM]
      exact distributes_mapM_flatten _
  | project projection =>
      cases projection with
      | id | label | values _ => exact hexpand _
      | count => cases helementwise
  | inject _ | fold | limit _ => cases helementwise
  | addVertex _ _ | addEdge _ _ _ _ | update _ | bind _ _ | drop => cases hlooks

theorem onlyReads_continueFrom {name : BoundName} {steps : List Step}
    (hreads : Step.anyMutates steps = false) (t : Traverser) :
    OnlyReads (fun access => continueFrom access name steps t) g :=
  .bind (stepsOnlyRead.holdsOfAll steps hreads _ _ g) fun _ => .pure _

theorem yield?_bind {name : BoundName} {steps : List Step} (hreads : Step.anyMutates steps = false)
    (input : List Traverser) (scope : Bindings) :
    yield? (evaluateStep access (.bind name steps) input scope) g
      = (input.mapM fun t => yield? (continueFrom access name steps t) g).map List.flatten := by
  have hturns : OnlyReads (fun access => input.mapM (continueFrom access name steps)) g :=
    .mapM (onlyReads_continueFrom hreads) input
  rw [evaluateStep_bind, hturns.yield?_bind access, OnlyReads.yield?_mapM (onlyReads_continueFrom hreads)]
  exact Option.map_eq_bind.symm

theorem distributes_evaluateStep {step : Step} (hreads : step.mutates = false)
    (helementwise : step.isElementwise = true) (scope : Bindings) :
    Distributes fun input => yield? (evaluateStep access step input scope) g := by
  cases step with
  | bind name steps =>
      simp only [yield?_bind hreads]
      exact .mapM _
  | addVertex _ _ | addEdge _ _ _ _ | update _ | drop => cases hreads
  | selectAll _ | selectById _ _ | typeFilter _ | traverse _ _ _ | edgeVertex _ | filter _ | inject _
  | fold | project _ | limit _ => exact distributes_look (g := g) rfl helementwise scope

theorem distributes_evaluateSteps {steps : List Step} (hreads : Step.anyMutates steps = false)
    (helementwise : ∀ step ∈ steps, step.isElementwise = true) (scope : Bindings) :
    Distributes fun input => yield? (evaluateSteps access steps input scope) g := by
  induction steps with
  | nil => exact .some
  | cons step rest ih =>
      obtain ⟨hstep, hrest⟩ := Bool.or_eq_false_iff.mp hreads
      obtain ⟨hone, hall⟩ := List.forall_mem_cons.mp helementwise
      have hyields (input : List Traverser) : yield? (evaluateSteps access (step :: rest) input scope) g
          = (yield? (evaluateStep access step input scope) g).bind fun out =>
              yield? (evaluateSteps access rest out scope) g :=
        (stepsOnlyRead.holds step hstep input scope g).yield?_bind access _
      simp only [hyields]
      exact (distributes_evaluateStep hstep hone scope).bind (ih hrest hall)

end Elementwise

theorem exists_eq_carrying {scope : Bindings} {input : List Traverser}
    (h : ∀ t ∈ input, t.bindings = scope) : ∃ items, input = carrying scope items := by
  refine ⟨input.map (·.item), ?_⟩
  have hsame : ∀ t ∈ input, (⟨t.item, scope⟩ : Traverser) = t := by
    rintro ⟨item, bindings⟩ ht
    rw [← h _ ht]
  rw [carrying, List.map_map]
  exact ((List.map_congr_left hsame).trans (List.map_id' input)).symm

/-- One traverser after the other, with a name bound that is not used, or all of them at once. -/
theorem yield?_bind_eq (access : Access) (g : Graph) {name : BoundName} {steps : List Step}
    (hreads : Step.anyMutates steps = false)
    (helementwise : ∀ step ∈ steps, step.isElementwise = true) (hname : name ∉ Step.freeNamesIn steps)
    (scope : Bindings) (items : List Item) :
    yield? (evaluateSteps access [.bind name steps] (carrying scope items) scope) g
      = yield? (evaluateSteps access steps (carrying scope items) scope) g :=
  calc yield? (evaluateSteps access [.bind name steps] (carrying scope items) scope) g
      = yield? (evaluateStep access (.bind name steps) (carrying scope items) scope) g := by
        have hlast : evaluateSteps access [.bind name steps] (carrying scope items) scope
            = evaluateStep access (.bind name steps) (carrying scope items) scope := bind_pure _
        rw [hlast]
    _ = (items.mapM fun item => yield? (continueFrom access name steps ⟨item, scope⟩) g).map
          List.flatten := by
        rw [yield?_bind hreads, carrying, List.mapM_map]
        rfl
    _ = (items.mapM fun item => yield? (evaluateSteps access steps [⟨item, scope⟩] scope) g).map
          List.flatten := by
        simp only [continueFrom_of_not_mem_freeNamesIn hname]
    _ = ((carrying scope items).mapM fun t => yield? (evaluateSteps access steps [t] scope) g).map
          List.flatten := by
        rw [carrying, List.mapM_map]
        rfl
    _ = yield? (evaluateSteps access steps (carrying scope items) scope) g :=
        ((distributes_evaluateSteps hreads helementwise scope).eq_mapM (carrying scope items)).symm

/-- For traversers with the bindings of the scope, a bind of a name that is not free in steps that only read
and are elementwise at the top fails if these fail without the bind, and else ends in the same traversers in
the same order. -/
theorem unused_bind_transparent {name : BoundName} {steps : List Step}
    (hreads : Step.anyMutates steps = false)
    (helementwise : ∀ step ∈ steps, step.isElementwise = true)
    (hname : name ∉ Step.freeNamesIn steps) (access : Access) (g : Graph) (scope : Bindings)
    (input : List Traverser) (hinput : ∀ t ∈ input, t.bindings = scope) :
    (∃ e e', (evaluateSteps access [.bind name steps] input scope).run g = (.error e, g) ∧
      (evaluateSteps access steps input scope).run g = (.error e', g)) ∨
    ∃ out, (evaluateSteps access [.bind name steps] input scope).run g = (.ok out, g) ∧
      (evaluateSteps access steps input scope).run g = (.ok out, g) := by
  obtain ⟨items, rfl⟩ := exists_eq_carrying hinput
  have hyields := yield?_bind_eq access g hreads helementwise hname scope items
  have hbindReads : Step.anyMutates [.bind name steps] = false := by
    rw [Step.anyMutates, Step.mutates, hreads]
    rfl
  obtain ⟨result, hresult, -⟩ := stepsOnlyRead.holdsOfAll _ hbindReads (carrying scope items) scope g
  obtain ⟨result', hresult', -⟩ := stepsOnlyRead.holdsOfAll _ hreads (carrying scope items) scope g
  rw [yield?, yield?, hresult, hresult'] at hyields
  rw [hresult, hresult']
  cases result with
  | error e =>
      cases result' with
      | error e' => exact .inl ⟨e, e', rfl, rfl⟩
      | ok out => cases hyields
  | ok out =>
      cases result' with
      | error e' => cases hyields
      | ok out' =>
          obtain rfl : out = out' := Option.some.inj hyields
          exact .inr ⟨out, rfl, rfl⟩

/-- The neighbours of two people that are not the person bound outside, with a count in a nested bind. -/
theorem neighbours_with_unused_bind :
    let people : Graph := ((Graph.empty.addVertex "person" []).2.addVertex "person" []).2
    let g : Graph := (people.addEdge "knows" [] 1 2).2
    let steps : List Step := [.traverse .both [] .vertices, .filter (.is ⟨.neq, .bound "me"⟩),
      .bind "other" [.traverse .both [] .edges, .project .count]]
    let scope : Bindings := [("me", .element .vertex 1)]
    let input : List Traverser := [⟨.element .vertex 2, scope⟩, ⟨.element .vertex 1, scope⟩]
    Step.anyMutates steps = false ∧ "unused" ∉ Step.freeNamesIn steps ∧
      (evaluateSteps .read [.bind "unused" steps] input scope).run g
        = (evaluateSteps .read steps input scope).run g ∧
      (evaluateSteps .read steps input scope).run g = (.ok [⟨.value (.int 1), scope⟩], g) := by
  intro people g steps scope input
  have hreads : Step.anyMutates steps = false := rfl
  have hname : "unused" ∉ Step.freeNamesIn steps := by decide
  have hrun : (evaluateSteps .read steps input scope).run g = (.ok [⟨.value (.int 1), scope⟩], g) := rfl
  have hinput : ∀ t ∈ input, t.bindings = scope :=
    List.forall_mem_cons.mpr ⟨rfl, List.forall_mem_singleton.mpr rfl⟩
  refine ⟨hreads, hname, ?_, hrun⟩
  rcases unused_bind_transparent hreads (by decide) hname .read g scope input hinput with
    ⟨_, e', _, hfails⟩ | ⟨out, hbind, hsteps⟩
  · rw [hrun] at hfails
    cases hfails
  · rw [hbind, hsteps]

end PropertyGraph
