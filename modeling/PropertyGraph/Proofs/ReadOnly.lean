import PropertyGraph.Proofs.Failing

/-!
# Steps that only read

Whether a traversal gets write access is decided by looking for a step that changes the graph, at the top
and in the continuations of binds. The selectors of edges are not looked at, and need not be, since
adding the edge is a change already. Steps among which there is none leave the graph as it is and end in
the same way whatever access they have, so they are never refused for lack of it.
-/

namespace PropertyGraph

/-- A computation leaves a graph as it is and has one result for every access, and this result does not
refuse the request. -/
def OnlyReads {α : Type} (m : Access → Evaluation α) (g : Graph) : Prop :=
  ∃ result, (∀ access, (m access).run g = (result, g)) ∧
    ∀ reason, result ≠ .error (.invalidRequest reason)

namespace OnlyReads

variable {α β : Type} {g : Graph}

theorem pure (a : α) : OnlyReads (fun _ => Pure.pure a) g :=
  ⟨.ok a, fun _ => rfl, fun _ h => nomatch h⟩

theorem bind {m : Access → Evaluation α} {f : Access → α → Evaluation β} (hm : OnlyReads m g)
    (hf : ∀ a, OnlyReads (fun access => f access a) g) :
    OnlyReads (fun access => m access >>= f access) g := by
  obtain ⟨first, hfirst, hrefused⟩ := hm
  cases first with
  | error e =>
      refine ⟨.error e, fun access => run_bind_of_error (hfirst access), fun reason heq => ?_⟩
      cases heq
      exact hrefused reason rfl
  | ok a =>
      obtain ⟨second, hsecond, hrefused⟩ := hf a
      exact ⟨second, fun access => (run_bind_of_ok (hfirst access)).trans (hsecond access), hrefused⟩

theorem mapM {f : Access → α → Evaluation β} (hf : ∀ a, OnlyReads (fun access => f access a) g)
    (xs : List α) : OnlyReads (fun access => xs.mapM (f access)) g := by
  induction xs with
  | nil => exact pure []
  | cons x xs ih =>
      simp only [List.mapM_cons]
      exact bind (hf x) fun b => bind ih fun bs => pure (b :: bs)

theorem of_looks {step : Step} (h : step.looks = true) (input : List Traverser) (scope : Bindings) :
    OnlyReads (fun access => evaluateStep access step input scope) g := by
  refine ⟨g.look scope input step, fun access => ?_, fun reason hrefused => ?_⟩
  · simp only [evaluateStep_of_looks h]
    rfl
  · rcases of_look_eq_error hrefused with ⟨t, -, -, name, he⟩ | ⟨-, -, -, -, name, -, he, -⟩
    · cases he
    · cases he

end OnlyReads

def StepOnlyReads (step : Step) : Prop :=
  step.mutates = false → ∀ input scope g,
    OnlyReads (fun access => evaluateStep access step input scope) g

def StepsOnlyRead (steps : List Step) : Prop :=
  Step.anyMutates steps = false → ∀ input scope g,
    OnlyReads (fun access => evaluateSteps access steps input scope) g

theorem stepsOnlyRead : Step.Induction StepOnlyReads StepsOnlyRead where
  look _ hlooks _ input scope _ := .of_looks hlooks input scope
  addVertex _ _ hreads := nomatch hreads
  addEdge _ _ _ _ _ _ hreads := nomatch hreads
  update _ hreads := nomatch hreads
  bind name continuation ih := by
    intro hreads input scope g
    have hcontinuation : Step.anyMutates continuation = false := hreads
    simp only [evaluateStep_bind]
    refine .bind (.mapM (fun t => ?_) input) fun parts => .pure parts.flatten
    exact .bind (ih hcontinuation _ _ g) fun results => .pure _
  drop hreads := nomatch hreads
  nil _ input _ _ := .pure input
  cons step rest hstep hrest := by
    intro hreads input scope g
    simp only [Step.anyMutates, Bool.or_eq_false_iff] at hreads
    simp only [evaluateSteps_cons]
    exact .bind (hstep hreads.1 input scope g) fun out => hrest hreads.2 out scope g

theorem OnlyReads.runSteps {steps : List Step} (h : Step.anyMutates steps = false) (g : Graph) :
    OnlyReads (fun access => runSteps access steps) g :=
  .bind (stepsOnlyRead.holdsOfAll steps h _ _ g) fun _ =>
    ⟨.ok _, fun _ => rfl, fun _ h => nomatch h⟩

/-- Steps among which none changes the graph end in the same way with read and with write access, from
any traversers: with the same results or the same failure, which is no refusal, and with the graph
untouched. A whole evaluation of such steps makes no change. -/
theorem read_access_suffices (steps : List Step) (h : Step.anyMutates steps = false) (g : Graph) :
    (∀ input scope,
      (evaluateSteps .write steps input scope).run g = (evaluateSteps .read steps input scope).run g ∧
      ((evaluateSteps .read steps input scope).run g : Except EngineError _ × Graph).2 = g ∧
      ∀ reason, ((evaluateSteps .read steps input scope).run g : Except EngineError _ × Graph).1
        ≠ .error (.invalidRequest reason)) ∧
    (runSteps .write steps).run g = (runSteps .read steps).run g ∧
    g.evaluate ⟨steps⟩ = (runSteps .read steps).run g ∧
    (g.evaluate ⟨steps⟩).2 = g ∧
    (∀ reason, (g.evaluate ⟨steps⟩).1 ≠ .error (.invalidRequest reason)) ∧
    ∀ access change now, ¬ Makes access steps g change now := by
  refine ⟨fun input scope => ?_, ?_⟩
  · obtain ⟨result, hresult, hrefused⟩ := stepsOnlyRead.holdsOfAll steps h input scope g
    rw [hresult .write, hresult .read]
    exact ⟨rfl, rfl, hrefused⟩
  · obtain ⟨result, hresult, hrefused⟩ := OnlyReads.runSteps h g
    have hevaluate : g.evaluate ⟨steps⟩ = (result, g) := by
      rw [evaluate_eq_run]
      exact hresult _
    rw [hresult .write, hresult .read, hevaluate]
    refine ⟨rfl, rfl, rfl, hrefused, fun access change now hmakes => ?_⟩
    rw [anyMutates_of_makes hmakes] at h
    cases h

/-- Each person counts itself, two binds deep. -/
theorem nested_count_reads :
    let innermost : List Step := [.filter (.is ⟨.eq, .bound "self"⟩), .project .count]
    let steps : List Step := [.selectAll .vertex, .bind "self" [.bind "other" innermost]]
    let g : Graph := (Graph.empty.addVertex "person" []).2
    Step.anyMutates steps = false ∧ (runSteps .read steps).run g = (.ok [.value (.int 1)], g) ∧
      (runSteps .write steps).run g = (.ok [.value (.int 1)], g) := by
  intro innermost steps g
  have hreads : Step.anyMutates steps = false := rfl
  have hread : (runSteps .read steps).run g = (.ok [.value (.int 1)], g) := rfl
  obtain ⟨-, hsame, -⟩ := read_access_suffices steps hreads g
  exact ⟨hreads, hread, hsame.trans hread⟩

end PropertyGraph
