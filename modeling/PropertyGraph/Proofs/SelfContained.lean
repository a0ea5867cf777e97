import PropertyGraph.Proofs.Building
import PropertyGraph.Proofs.Failing
import PropertyGraph.Proofs.RoundTrip

/-!
# Traversals that stand on their own

A reference is free in steps when no bind around it, within these steps, gives its name. Every check of
references comes down to the free names: it reports the first one that is not among the names it is given.
A traversal compiled inside of a continuation is checked with the names bound around it, and a reader or
an engine has none of these, so they agree with the builder exactly for traversals without free names.
-/

namespace PropertyGraph

namespace Step

mutual
/-- The names that a step refers to and does not bind itself, in order. -/
def freeNames : Step → List String
  | filter predicate => predicate.references
  | bind name continuation => (freeNamesIn continuation).filter (· != name)
  | addEdge _ _ source target => selectorFreeNames source ++ selectorFreeNames target
  | _ => []
termination_by structural s => s
def selectorFreeNames : Option (List Step) → List String
  | none => []
  | some steps => freeNamesIn steps
termination_by structural s => s
def freeNamesIn : List Step → List String
  | [] => []
  | step :: rest => freeNames step ++ freeNamesIn rest
termination_by structural s => s
end

theorem find?_not_contains_cons (name : String) (names free : List String) :
    free.find? (!(name :: names).contains ·)
      = (free.filter (· != name)).find? (!names.contains ·) := by
  rw [List.find?_filter]
  congr 1
  funext other
  rw [List.contains_cons, Bool.not_or, Bool.decide_and, Bool.decide_coe, Bool.decide_coe]
  rfl

mutual
theorem unbound?_eq_find? (names : List String) :
    ∀ step, unbound? names step = (freeNames step).find? (!names.contains ·)
  | .filter predicate => rfl
  | .bind name continuation => by
      have hcontinuation := unboundIn?_eq_find? (name :: names) continuation
      rw [unbound?, freeNames, hcontinuation, find?_not_contains_cons]
  | .addEdge label properties source target => by
      have hsource := selectorUnbound?_eq_find? names source
      have htarget := selectorUnbound?_eq_find? names target
      rw [unbound?, freeNames, hsource, htarget, List.find?_append]
  | .selectAll _ | .selectById _ _ | .typeFilter _ | .addVertex _ _ | .update _ | .traverse _ _ _
  | .edgeVertex _ | .inject _ | .fold | .project _ | .limit _ | .drop => rfl
termination_by structural step => step
theorem selectorUnbound?_eq_find? (names : List String) :
    ∀ selector, selectorUnbound? names selector
      = (selectorFreeNames selector).find? (!names.contains ·)
  | none => rfl
  | some steps => unboundIn?_eq_find? names steps
termination_by structural selector => selector
theorem unboundIn?_eq_find? (names : List String) :
    ∀ steps, unboundIn? names steps = (freeNamesIn steps).find? (!names.contains ·)
  | [] => rfl
  | step :: rest => by
      have hstep := unbound?_eq_find? names step
      have hrest := unboundIn?_eq_find? names rest
      rw [unboundIn?, freeNamesIn, hstep, hrest, List.find?_append]
termination_by structural steps => steps
end

/-- Where no names are bound, the first free name is reported. -/
theorem unboundIn?_nil (steps : List Step) : unboundIn? [] steps = (freeNamesIn steps).head? := by
  rw [unboundIn?_eq_find?]
  cases freeNamesIn steps <;> rfl

end Step

/-- A free name of enclosed steps is bound around them, or free in the whole. -/
theorem mem_freeNamesIn_of_encloses {steps inner : List Step} {names : List String} {name : String}
    (h : Encloses steps names inner) (hfree : name ∈ Step.freeNamesIn inner)
    (hnames : name ∉ names) : name ∈ Step.freeNamesIn steps := by
  induction h with
  | here => exact hfree
  | rest _ ih => exact ih (List.mem_append_right _ hfree) hnames
  | @continuation names bound continuation rest _ ih =>
      obtain ⟨hne, hnames⟩ := not_or.mp (List.mem_cons.not.mp hnames)
      have hkept : name ∈ (Step.freeNamesIn continuation).filter (· != bound) :=
        List.mem_filter.mpr ⟨hfree, bne_iff_ne.mpr hne⟩
      exact ih (List.mem_append_left _ hkept) hnames
  | @selector names label properties source target rest selector _ hwritten ih =>
      have hselected : name ∈ Step.selectorFreeNames source ++ Step.selectorFreeNames target := by
        rcases hwritten with rfl | rfl
        · exact List.mem_append_left _ hfree
        · exact List.mem_append_right _ hfree
      exact ih (List.mem_append_left _ hselected) hnames

/-- A failing evaluation names a reference that is free in its steps, if it names one at all. -/
theorem mem_freeNamesIn_of_fails {access : Access} {steps : List Step} {g now : Graph}
    {name : String} (h : Fails access steps g (.unknownBinding name) now) :
    name ∈ Step.freeNamesIn steps := by
  generalize he : EngineError.unknownBinding name = e at h
  subst he
  cases h with
  | @look env scope step rest input now _ hvisits hlooks hfails =>
      rcases of_look_eq_error hfails with ⟨t, -, -, step, hname⟩ |
        ⟨predicate, rfl, t, ht, unbound, hmem, hname, hlookup⟩
      · cases hname
      · cases hname
        obtain ⟨-, hinput⟩ := bindings_of_visits hvisits
        rw [hinput t ht, List.lookup_eq_none_iff] at hlookup
        have hnames : name ∉ env.map Prod.fst := by
          intro hbound
          obtain ⟨p, hp, rfl⟩ := List.mem_map.mp hbound
          simpa using hlookup p hp
        exact mem_freeNamesIn_of_encloses (encloses_of_visits hvisits)
          (List.mem_append_left _ hmem) hnames
  | current _ hfails => exact absurd rfl (findsAll_of_vertexFor hfails name)
  | chosen _ _ _ _ hfails => exact absurd rfl (findsAll_of_chosenVertex hfails name)

theorem steps_of_compile {t : Traversal} {c : CompiledTraversal} (h : t.compile = .ok c) :
    c.steps = t.steps ∧ ∀ name ∈ Step.freeNamesIn t.steps, name ∈ t.scope.names := by
  unfold Traversal.compile CompiledTraversal.inScope at h
  split at h
  · cases h
  · next hnone =>
      cases h
      rw [Step.unboundIn?_eq_find?] at hnone
      exact ⟨rfl, fun name hname => mem_names_of_find?_eq_none hnone hname⟩

theorem freeNamesIn_of_runAll {model : GraphModel} {calls : List Call} {t : Traversal}
    {state state' : BuildState}
    (h : (Call.runAll model .source calls).run state = (.ok t, state')) :
    Step.freeNamesIn t.steps = [] := by
  obtain ⟨added, hadded⟩ := (appendsChecked_runAll model calls .source state).of_ok h
  have hsteps : t.steps = added := hadded.steps
  have hbound : Step.unboundIn? [] added = none := hadded.bound
  rw [Step.unboundIn?_nil, List.head?_eq_none_iff] at hbound
  rw [hsteps, hbound]

/-- Wherever a traversal is compiled, its steps are accepted on their own and read back from their wire
form if they have no free names, and otherwise the first of these is refused by both. The engine fails to
find nothing but free names. Only names bound around the traversal can be free, so there are none in what
a whole program builds. -/
theorem stands_alone_iff_no_free_name {t : Traversal} {c : CompiledTraversal}
    (h : t.compile = .ok c) :
    c.steps = t.steps ∧
    (∀ name ∈ Step.freeNamesIn c.steps, name ∈ t.scope.names) ∧
    CompiledTraversal.compile c.steps
      = (match (Step.freeNamesIn c.steps).head? with
        | some name => .error (.unboundReference name)
        | none => .ok c) ∧
    WireForm.ofJson CompiledTraversal c.toJson
      = (match (Step.freeNamesIn c.steps).head? with
        | some name => .error (.unbound name)
        | none => .ok c) ∧
    (∀ (g : Graph) (name : BoundName), (g.evaluate c).1 = .error (.unknownBinding name) →
      name ∈ Step.freeNamesIn c.steps) ∧
    (∀ (model : GraphModel) (calls : List Call) (state state' : BuildState),
      (Call.runAll model .source calls).run state = (.ok t, state') →
        Step.freeNamesIn c.steps = []) := by
  obtain ⟨hsteps, hnames⟩ := steps_of_compile h
  refine ⟨hsteps, ?_, ?_, ?_, ?_, ?_⟩
  · rw [hsteps]
    exact hnames
  · cases hfree : (Step.freeNamesIn c.steps).head? <;>
      simp only [CompiledTraversal.compile, CompiledTraversal.inScope, Step.unboundIn?_nil, hfree]
  · cases hfree : (Step.freeNamesIn c.steps).head? <;>
      simp only [CompiledTraversal.ofJson_toJson, Step.unboundIn?_nil, hfree]
  · intro g name hfails
    have hends := (evaluate_ends g c).of_error (Prod.ext hfails rfl)
    exact mem_freeNamesIn_of_fails hends.1
  · intro model calls state state' hrun
    rw [hsteps]
    exact freeNamesIn_of_runAll hrun

/-- In the middle of a continuation a traversal compiles with a reference to the bind around it. It is
refused on its own and as read back, and the engine does not find what it refers to. -/
theorem compiled_inside_bind_is_refused :
    let inner : List Call := [.filter (.is ⟨.eq, .bound (.handle "h")⟩), .probe .compile]
    let calls : List Call := [.inject [.bool true], .bind (some "x") "h" inner]
    let run := (Call.runAll ⟨[]⟩ .source calls).run .initial
    ∃ t c, run.2.events = [.opened "x", .probed .compile t] ∧ t.compile = .ok c ∧
      CompiledTraversal.compile c.steps = .error (.unboundReference "x") ∧
      WireForm.ofJson CompiledTraversal c.toJson = .error (.unbound "x") ∧
      (Graph.empty.evaluate c).1 = .error (.unknownBinding "x") :=
  ⟨_, _, rfl, rfl, rfl, rfl, rfl⟩

theorem free_name_inside_bind :
    let bound : Traversal := ⟨.value .any, [.filter (.is ⟨.eq, .bound "x"⟩)], .value, [⟨"x", 1⟩]⟩
    ∃ c, bound.compile = .ok c ∧ Step.freeNamesIn c.steps = ["x"] ∧
      WireForm.ofJson CompiledTraversal c.toJson = .error (.unbound "x") ∧
      ∀ name, (Graph.empty.evaluate c).1 = .error (.unknownBinding name) → name ∈ ["x"] := by
  intro bound
  have hcompile : bound.compile = .ok ⟨bound.steps⟩ := rfl
  obtain ⟨-, -, -, hread, hfinds, -⟩ := stands_alone_iff_no_free_name hcompile
  exact ⟨_, hcompile, rfl, hread, fun name => hfinds .empty name⟩

end PropertyGraph
