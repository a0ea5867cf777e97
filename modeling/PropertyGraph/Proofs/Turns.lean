import PropertyGraph.Proofs.Visits

/-!
# The turns of traversers

A step that does more than look works for its traversers one after the other, and `turn` is what it does
for one of them. The step is the loop of its turns, whatever its kind. `Turns` follows an evaluation to
each turn, as `Visits` does to each moment between steps. Failures go the other way: what fails at a
moment or at a turn makes the whole evaluation fail, and nothing on the way out touches the graph.
-/

namespace PropertyGraph

/-- What a step does for one traverser, and the traversers that come of it. A step that only looks has
no turns. -/
def turn (access : Access) : Step → Traverser → Evaluation (List Traverser)
  | .addVertex label properties, t => do return [← addVertexFrom access label properties t]
  | .addEdge label properties source target, t => do
    return [← connect access label properties source target t]
  | .update properties, t => do
    updateItem access properties t.item
    return [t]
  | .bind name continuation, t => continueFrom access name continuation t
  | .drop, t => do
    dropItem access t.item
    return []
  | _, t => pure [t]

section Loops

variable {m : Type → Type} [Monad m] [LawfulMonad m] {α β : Type}

theorem flatten_mapM_singleton (f : α → m β) (xs : List α) :
    (do return (← xs.mapM fun x => do return [← f x]).flatten) = xs.mapM f := by
  induction xs with
  | nil => simp
  | cons x xs ih => simp [List.mapM_cons, ← ih]

theorem flatten_mapM_keep (f : α → m PUnit) (keep : α → List β) (xs : List α) :
    (do return (← xs.mapM fun x => do f x; return keep x).flatten)
      = (do xs.forM f; return xs.flatMap keep) := by
  induction xs with
  | nil => simp
  | cons x xs ih =>
      have hrest := congrArg (fun rest => do f x; return keep x ++ (← rest)) ih
      simpa [List.mapM_cons] using hrest

end Loops

section Turns

variable {access : Access} {steps : List Step} {g now : Graph}

theorem evaluateStep_of_turns {step : Step} {input : List Traverser} {scope : Bindings}
    (h : step.looks = false) :
    evaluateStep access step input scope
      = (do return (← input.mapM (turn access step)).flatten) := by
  cases step with
  | addVertex label properties =>
      exact (flatten_mapM_singleton (addVertexFrom access label properties) input).symm
  | addEdge label properties source target =>
      exact (flatten_mapM_singleton (connect access label properties source target) input).symm
  | update properties =>
      have hkeep := flatten_mapM_keep (fun t => updateItem access properties t.item) (fun t => [t])
        input
      rw [List.flatMap_singleton'] at hkeep
      exact hkeep.symm
  | bind name continuation => rfl
  | drop =>
      have hnone : input.flatMap (fun _ => ([] : List Traverser)) = [] := by simp
      have hkeep := flatten_mapM_keep (fun t => dropItem access t.item)
        (fun _ => ([] : List Traverser)) input
      rw [hnone] at hkeep
      exact hkeep.symm
  | selectAll _ | selectById _ _ | typeFilter _ | traverse _ _ _ | edgeVertex _ | filter _ | inject _
  | fold | project _ | limit _ => cases h

/-- An evaluation comes to the turn of a traverser at a step, after the turns of earlier ones. -/
inductive Turns (access : Access) (steps : List Step) (g : Graph) :
    Step → Traverser → Graph → Prop
  | after {env scope : Bindings} {step : Step} {rest : List Step} {earlier later : List Traverser}
      {t : Traverser} {parts : List (List Traverser)} {before now : Graph} :
      Visits access steps g env ⟨step :: rest, earlier ++ t :: later, scope, before⟩ →
      step.looks = false →
      (earlier.mapM (turn access step)).run before = (.ok parts, now) →
      Turns access steps g step t now

theorem visits_continuation_of_turns {name : String} {continuation : List Step} {t : Traverser}
    (h : Turns access steps g (.bind name continuation) t now) :
    ∃ env, Visits access steps g env ⟨continuation, [⟨t.item, (name, t.item) :: t.bindings⟩],
      (name, t.item) :: t.bindings, now⟩ := by
  obtain ⟨hvisits, -, hearlier⟩ := h
  exact ⟨_, .continuation hvisits hearlier⟩

theorem visits_selector_of_turns {label : String} {properties : List Property}
    {source target : Option (List Step)} {edgeEnd : EdgeEnd} {selector : List Step} {t : Traverser}
    {current : Nat} (h : Turns access steps g (.addEdge label properties source target) t now)
    (hitem : t.item = .element .vertex current)
    (honly : Step.onlySelector? source target = some (edgeEnd, selector)) :
    ∃ env, Visits access steps g env ⟨selector, [t], t.bindings, now⟩ := by
  obtain @⟨env, scope, _, rest, earlier, later, _, parts, before, _, hvisits, -, hearlier⟩ := h
  have hflat : (do
      return (← earlier.mapM (turn access (.addEdge label properties source target))).flatten).run
        before = (.ok parts.flatten, now) := run_bind_of_ok hearlier
  have hstep : evaluateStep access (.addEdge label properties source target) earlier scope
      = _ := evaluateStep_of_turns rfl
  rw [← hstep, evaluateStep_addEdge] at hflat
  exact ⟨env, .selector hvisits hflat (by rw [hitem]; rfl) honly⟩

/-! ### Failures end the evaluation -/

theorem exists_of_kind?_eq_some {item : Item} {kind : ElementKind} (h : item.kind? = some kind) :
    ∃ id, item = .element kind id := by
  cases item with
  | element kind' id =>
      cases h
      exact ⟨id, rfl⟩
  | root | value _ | list _ => cases h

theorem run_read {α : Type} (f : Graph → Except EngineError α) (g : Graph) :
    (Evaluation.read f).run g = (f g, g) := rfl

theorem run_connect_of_vertex {label : String} {properties : List Property}
    {source target : Option (List Step)} {t : Traverser} {current : Nat} {before : Graph}
    (hitem : t.item = .element .vertex current) :
    (connect access label properties source target t).run before
      = (match Step.onlySelector? source target with
        | none => Evaluation.refuse
          (.invalidRequest s!"edge '{label}' needs exactly one endpoint selector")
        | some (edgeEnd, selector) => do
          let found ← evaluateSteps access selector [t] t.bindings
          let chosen ← Evaluation.read fun _ => chosenVertex label found
          let id ← access.change
            (·.addEdge label properties (edgeEnd.join current chosen).1
              (edgeEnd.join current chosen).2)
          return t.withItem (.element .edge id)).run before := by
  have hcurrent : (Evaluation.read fun _ => t.item.vertexFor "addEdge").run before
      = (.ok current, before) := by
    rw [run_read, hitem]
    rfl
  rw [connect_eq]
  exact run_bind_of_ok hcurrent

/-- What fails at a moment of an evaluation makes it fail in the same way, with the same graph. -/
theorem run_of_visits {env : Bindings} {m : Moment} {e : EngineError}
    (h : Visits access steps g env m)
    (hfails : (evaluateSteps access m.steps m.input m.scope).run m.graph = (.error e, now)) :
    (evaluateSteps access steps [⟨.root, []⟩] []).run g = (.error e, now) := by
  -- From the moment outwards: what encloses it has come to this point, and can only fail with it.
  induction h with
  | start => exact hfails
  | next _ hrun ih =>
      apply ih
      rw [evaluateSteps_cons, run_bind_of_ok hrun]
      exact hfails
  | continuation _ hearlier ih =>
      apply ih
      rw [evaluateSteps_cons, evaluateStep_bind]
      refine run_bind_of_error (run_bind_of_error ?_)
      exact run_mapM_of_error hearlier (run_bind_of_error hfails)
  | selector _ hearlier hvertex honly ih =>
      apply ih
      rw [evaluateSteps_cons, evaluateStep_addEdge]
      refine run_bind_of_error (run_mapM_of_error hearlier ?_)
      obtain ⟨current, hitem⟩ := exists_of_kind?_eq_some hvertex
      rw [run_connect_of_vertex hitem, honly]
      exact run_bind_of_error hfails

theorem run_of_turns {step : Step} {t : Traverser} {between : Graph} {e : EngineError}
    (h : Turns access steps g step t between)
    (hfails : (turn access step t).run between = (.error e, now)) :
    (evaluateSteps access steps [⟨.root, []⟩] []).run g = (.error e, now) := by
  obtain ⟨hvisits, hlooks, hearlier⟩ := h
  refine run_of_visits hvisits ?_
  rw [evaluateSteps_cons, evaluateStep_of_turns hlooks]
  exact run_bind_of_error (run_bind_of_error (run_mapM_of_error hearlier hfails))

end Turns

end PropertyGraph
