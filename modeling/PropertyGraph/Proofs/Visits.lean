import PropertyGraph.Proofs.Evaluation

/-!
# The moments of an evaluation

An evaluation is a tree: a bind evaluates its continuation once for each traverser, an edge creation its
selector. `Visits` follows it from the start to every moment at which a step is about to be evaluated or
a sequence has ended, at the top and in all nested sequences. What a moment finds in the graph was left
there by the rounds before it, which is why the rules for nested sequences run the earlier traversers
first. The environment records the binds that are entered and not left yet, and is not read from any
traverser.
-/

namespace PropertyGraph

/-- The steps that are left, the traversers they start from, the scope and the graph. -/
structure Moment where
  steps : List Step
  input : List Traverser
  scope : Bindings
  graph : Graph

/-- The moments of an evaluation, each with the items bound by the binds around it. -/
inductive Visits (access : Access) (steps : List Step) (g : Graph) : Bindings → Moment → Prop
  | start : Visits access steps g [] ⟨steps, [⟨.root, []⟩], [], g⟩
  | next {env scope : Bindings} {step : Step} {rest : List Step} {input out : List Traverser}
      {before after : Graph} :
      Visits access steps g env ⟨step :: rest, input, scope, before⟩ →
      (evaluateStep access step input scope).run before = (.ok out, after) →
      Visits access steps g env ⟨rest, out, scope, after⟩
  | continuation {env scope : Bindings} {name : String} {continuation rest : List Step}
      {earlier later : List Traverser} {t : Traverser} {parts : List (List Traverser)}
      {before after : Graph} :
      Visits access steps g env
        ⟨.bind name continuation :: rest, earlier ++ t :: later, scope, before⟩ →
      (earlier.mapM (continueFrom access name continuation)).run before = (.ok parts, after) →
      Visits access steps g ((name, t.item) :: env)
        ⟨continuation, [⟨t.item, (name, t.item) :: t.bindings⟩], (name, t.item) :: t.bindings, after⟩
  | selector {env scope : Bindings} {label : String} {properties : List Property}
      {source target : Option (List Step)} {rest selector : List Step} {edgeEnd : EdgeEnd}
      {earlier later created : List Traverser} {t : Traverser} {before after : Graph} :
      Visits access steps g env
        ⟨.addEdge label properties source target :: rest, earlier ++ t :: later, scope, before⟩ →
      (earlier.mapM (connect access label properties source target)).run before
        = (.ok created, after) →
      t.item.kind? = some .vertex →
      Step.onlySelector? source target = some (edgeEnd, selector) →
      Visits access steps g env ⟨selector, [t], t.bindings, after⟩

/-- A sequence of steps inside of another one, with the names of the binds around it. -/
inductive Encloses (steps : List Step) : List String → List Step → Prop
  | here : Encloses steps [] steps
  | rest {names : List String} {step : Step} {rest : List Step} :
      Encloses steps names (step :: rest) → Encloses steps names rest
  | continuation {names : List String} {name : String} {continuation rest : List Step} :
      Encloses steps names (.bind name continuation :: rest) →
      Encloses steps (name :: names) continuation
  | selector {names : List String} {label : String} {properties : List Property}
      {source target : Option (List Step)} {rest selector : List Step} :
      Encloses steps names (.addEdge label properties source target :: rest) →
      source = some selector ∨ target = some selector → Encloses steps names selector

theorem run_bind_of_mapM_eq_ok {access : Access} {name : String} {continuation : List Step}
    {earlier : List Traverser} {parts : List (List Traverser)} {before after : Graph}
    (scope : Bindings)
    (h : (earlier.mapM (continueFrom access name continuation)).run before = (.ok parts, after)) :
    (evaluateStep access (.bind name continuation) earlier scope).run before
      = (.ok parts.flatten, after) := by
  rw [evaluateStep_bind]
  exact run_bind_of_ok h

/-- The binds that an evaluation has entered are the ones that are written around the steps. -/
theorem encloses_of_visits {access : Access} {steps : List Step} {g : Graph} {env : Bindings}
    {m : Moment} (h : Visits access steps g env m) : Encloses steps (env.map Prod.fst) m.steps := by
  induction h with
  | start => exact .here
  | next _ _ ih => exact .rest ih
  | continuation _ _ ih => exact .continuation ih
  | @selector env scope label properties source target rest selector edgeEnd earlier later created t
      before after _ _ _ honly ih =>
      have hwritten : source = some selector ∨ target = some selector :=
        Step.all_of_onlySelector? (P := fun steps => source = some steps ∨ target = some steps)
          (fun _ h => .inl h) (fun _ h => .inr h) honly
      exact .selector ih hwritten

end PropertyGraph
