import PropertyGraph.Proofs.Looking
import PropertyGraph.Proofs.Visits

/-!
# Compiled traversals find what they refer to

Compilation checks names by their place in the text. The engine knows nothing of that place: it has the
bindings of each traverser, and a scope for the steps that leave a single new traverser behind. The two
agree because of one invariant. Traversers that start with the bindings of the scope end with them, both
past a single step and past a sequence, so at each moment the bindings are those of the enclosing binds,
and a name that passes the check is among them.
-/

namespace PropertyGraph

def AllCarry (bindings : Bindings) (input : List Traverser) : Prop :=
  ∀ t ∈ input, t.bindings = bindings

/-- A failure that is not a reference without binding. -/
def FindsAll (e : EngineError) : Prop := ∀ name, e ≠ .unknownBinding name

namespace AllCarry

variable {bindings : Bindings} {input out : List Traverser} {g : Graph}

theorem singleton (t : Traverser) : AllCarry t.bindings [t] := List.forall_mem_singleton.mpr rfl

/-- Steps that look at the graph keep the bindings, and the barriers take those of the scope. -/
theorem of_look {step : Step} (h : AllCarry bindings input) (hlooks : step.looks = true)
    (hout : g.look bindings input step = .ok out) : AllCarry bindings out := by
  intro t' ht'
  rcases of_mem_look hlooks hout ht' with ⟨hold, -⟩ | ⟨-, hscope | ⟨t, ht, hbindings⟩⟩
  · exact h t' hold
  · exact hscope
  · rw [hbindings]
    exact h t ht

end AllCarry

theorem mem_names_of_find?_eq_none {names references : List String} {name : String}
    (h : references.find? (!names.contains ·) = none) (hname : name ∈ references) :
    name ∈ names := by
  have hbound := List.find?_eq_none.mp h name hname
  simpa using hbound

theorem findsAll_of_look {bindings scope : Bindings} {input : List Traverser} {step : Step}
    {g : Graph} {e : EngineError} (h : AllCarry bindings input)
    (hchecked : step.unbound? (bindings.map Prod.fst) = none)
    (hfails : g.look scope input step = .error e) : FindsAll e := by
  intro unknown he
  rcases of_look_eq_error hfails with ⟨t, -, -, name, hname⟩ |
    ⟨predicate, rfl, t, ht, name, hname, -, hlookup⟩
  · rw [he] at hname
    cases hname
  · have hmem : name ∈ bindings.map Prod.fst := mem_names_of_find?_eq_none hchecked hname
    obtain ⟨⟨bound, item⟩, hbound, rfl⟩ := List.mem_map.mp hmem
    rw [h t ht, List.lookup_eq_none_iff] at hlookup
    simpa using hlookup _ hbound

/-- From traversers with the bindings of the scope, a step leads to traversers with these bindings, and
if its references have been checked it finds what they stand for. -/
def KeepsScope (step : Step) : Prop :=
  ∀ {access : Access} {input : List Traverser} {scope : Bindings} {g : Graph},
    AllCarry scope input →
      Ensures (evaluateStep access step input scope) g (fun out _ => AllCarry scope out)
        fun e _ => step.unbound? (scope.map Prod.fst) = none → FindsAll e

def KeepsScopeAll (steps : List Step) : Prop :=
  ∀ {access : Access} {input : List Traverser} {scope : Bindings} {g : Graph},
    AllCarry scope input →
      Ensures (evaluateSteps access steps input scope) g (fun out _ => AllCarry scope out)
        fun e _ => Step.unboundIn? (scope.map Prod.fst) steps = none → FindsAll e

theorem findsAll_unsupportedInput {step found : String} : FindsAll (.unsupportedInput step found) :=
  fun _ h => nomatch h

theorem findsAll_invalidRequest {reason : String} : FindsAll (.invalidRequest reason) :=
  fun _ h => nomatch h

theorem findsAll_of_vertexFor {step : String} {item : Item} {e : EngineError}
    (h : item.vertexFor step = .error e) : FindsAll e := by
  rw [(of_vertexFor_eq_error h).2]
  exact findsAll_unsupportedInput

theorem findsAll_of_chosenVertex {label : String} {found : List Traverser} {e : EngineError}
    (h : chosenVertex label found = .error e) : FindsAll e := by
  unfold chosenVertex at h
  split at h
  · exact findsAll_of_vertexFor h
  · cases h
    exact fun _ h => nomatch h

theorem keepsScope : Step.Induction KeepsScope KeepsScopeAll where
  look step hlooks := by
    intro access input scope g h
    rw [evaluateStep_of_looks hlooks]
    exact .read (fun _ hout => h.of_look hlooks hout) fun _ hfails hchecked =>
      findsAll_of_look h hchecked hfails
  addVertex label properties := by
    intro access input scope g h
    rw [evaluateStep_addVertex]
    refine (Ensures.mapM_pure (P := fun t : Traverser => t.bindings = scope) fun t ht g' => ?_).mono
      (fun _ _ h => h.2) fun _ _ h _ => h
    exact .addVertexFrom (h t ht) fun _ _ => findsAll_invalidRequest
  addEdge label properties source target hsource htarget := by
    intro access input scope g h
    rw [evaluateStep_addEdge]
    refine (Ensures.mapM_pure (P := fun t : Traverser => t.bindings = scope)
      (F := fun e => (Step.addEdge label properties source target).unbound?
        (scope.map Prod.fst) = none → FindsAll e) fun t ht g' => ?_).mono
      (fun _ _ h => h.2) fun _ _ h => h
    refine .connect (fun _ h _ => findsAll_of_vertexFor h)
      (fun _ _ _ => findsAll_invalidRequest) fun current edgeEnd selector _ honly => ?_
    have hselector : KeepsScopeAll selector := Step.all_of_onlySelector? hsource htarget honly
    rw [h t ht]
    refine (hselector (h t ht ▸ .singleton t)).mono (fun found _ _ => ?_) fun e _ hfails hchecked => ?_
    · exact .read (fun _ _ => ⟨h t ht, fun _ _ _ => findsAll_invalidRequest⟩) fun _ h _ =>
        findsAll_of_chosenVertex h
    · simp only [Step.unbound?, Option.or_eq_none_iff] at hchecked
      have hselected : Step.selectorUnbound? (scope.map Prod.fst) (some selector) = none :=
        Step.of_onlySelector?
          (P := fun chosen => Step.selectorUnbound? (scope.map Prod.fst) chosen = none)
          hchecked.1 hchecked.2 honly
      exact hfails hselected
  update properties := by
    intro access input scope g h
    rw [evaluateStep_update]
    refine .bind ((Ensures.forM_pure (F := FindsAll) fun t _ g' => ?_).mono
      (fun _ _ _ => .pure h) fun _ _ h _ => h)
    exact .updateItem (fun _ _ _ => trivial) (fun _ _ => findsAll_invalidRequest)
      fun _ => findsAll_unsupportedInput
  bind name continuation ih := by
    intro access input scope g h
    rw [evaluateStep_bind]
    refine .bind ((Ensures.mapM_pure (P := AllCarry scope)
      (F := fun e => (Step.bind name continuation).unbound? (scope.map Prod.fst) = none →
        FindsAll e) fun t ht g' => ?_).mono
      (fun parts _ ⟨_, hparts⟩ => .pure (forall_mem_flatten hparts)) fun _ _ h => h)
    refine .continueFrom ((ih (.singleton ⟨t.item, (name, t.item) :: t.bindings⟩)).mono ?_ ?_)
    · -- what the continuation has bound stays inside of it
      intro results _ _
      exact List.forall_mem_map.mpr fun _ _ => h t ht
    · intro e _ hfails hchecked
      rw [h t ht] at hfails
      exact hfails hchecked
  drop := by
    intro access input scope g h
    rw [evaluateStep_drop]
    refine .bind ((Ensures.forM_pure (F := FindsAll) fun t _ g' => ?_).mono
      (fun _ _ _ => .pure fun _ h => nomatch h) fun _ _ h _ => h)
    exact .dropItem (fun _ _ _ => trivial) (fun _ => trivial) fun _ _ => findsAll_invalidRequest
  nil := fun h => .pure h
  cons step rest hstep hrest := by
    intro access input scope g h
    rw [evaluateSteps_cons]
    refine .bind ((hstep h).mono (fun out _ hout => ?_) fun e _ hfails hchecked => ?_)
    · refine (hrest hout).mono (fun _ _ h => h) fun e _ hfails hchecked => ?_
      simp only [Step.unboundIn?, Option.or_eq_none_iff] at hchecked
      exact hfails hchecked.2
    · simp only [Step.unboundIn?, Option.or_eq_none_iff] at hchecked
      exact hfails hchecked.1

/-- At each moment of an evaluation the traversers and the scope have the bindings of the environment. -/
theorem bindings_of_visits {access : Access} {steps : List Step} {g : Graph} {env : Bindings}
    {m : Moment} (h : Visits access steps g env m) : m.scope = env ∧ AllCarry env m.input := by
  induction h with
  | start => exact ⟨rfl, .singleton ⟨.root, []⟩⟩
  | next _ hrun ih =>
      obtain ⟨rfl, hinput⟩ := ih
      exact ⟨rfl, (keepsScope.holds _ hinput).of_ok hrun⟩
  | @continuation env scope name continuation rest earlier later t parts before after _ _ ih =>
      obtain ⟨rfl, hinput⟩ := ih
      have ht : t.bindings = scope := hinput t (by simp)
      exact ⟨by rw [ht], ht ▸ .singleton ⟨t.item, (name, t.item) :: t.bindings⟩⟩
  | @selector env scope label properties source target rest selector edgeEnd earlier later created t
      before after _ _ _ _ ih =>
      obtain ⟨rfl, hinput⟩ := ih
      have ht : t.bindings = scope := hinput t (by simp)
      exact ⟨ht, ht ▸ .singleton t⟩

theorem unboundIn?_of_compile {steps : List Step} {c : CompiledTraversal}
    (h : CompiledTraversal.compile steps = .ok c) :
    c.steps = steps ∧ Step.unboundIn? [] steps = none := by
  unfold CompiledTraversal.compile CompiledTraversal.inScope at h
  split at h
  · cases h
  · cases h
    exact ⟨rfl, ‹_›⟩

/-- Compiled steps never refer to what is not bound. At each moment of an evaluation, compiled or not,
the traversers carry the bindings of the binds around the steps that are left, innermost first, and so
do those that are there when these steps have come to their end. -/
theorem scoped_at_every_moment (steps : List Step) :
    (∀ c, CompiledTraversal.compile steps = .ok c →
      ∀ (g : Graph) (name : BoundName), (g.evaluate c).1 ≠ .error (.unknownBinding name)) ∧
    ∀ (access : Access) (g : Graph) (env : Bindings) (m : Moment), Visits access steps g env m →
      Encloses steps (env.map Prod.fst) m.steps ∧ m.scope = env ∧
        (∀ t ∈ m.input, t.bindings = env) ∧
        ∀ out after, (evaluateSteps access m.steps m.input m.scope).run m.graph = (.ok out, after) →
          ∀ t ∈ out, t.bindings = env := by
  refine ⟨fun c hcompile g name hfails => ?_, fun access g env m hvisits => ?_⟩
  · obtain ⟨hsteps, hchecked⟩ := unboundIn?_of_compile hcompile
    have hstart : AllCarry [] [(⟨.root, []⟩ : Traverser)] := .singleton ⟨.root, []⟩
    have hrun : Ensures (runSteps (accessFor steps) steps) g (fun _ _ => True)
        fun e _ => FindsAll e :=
      .runSteps ((keepsScope.holdsOfAll steps hstart).mono (fun _ _ _ => trivial)
        fun _ _ hfails => hfails hchecked)
    rw [evaluate_eq_run, hsteps] at hfails
    exact hrun.of_error (Prod.ext hfails rfl) name rfl
  · obtain ⟨hscope, hinput⟩ := bindings_of_visits hvisits
    refine ⟨encloses_of_visits hvisits, hscope, hinput, fun out after hrun => ?_⟩
    rw [hscope] at hrun
    exact (keepsScope.holdsOfAll m.steps hinput).of_ok hrun

theorem scoped_inside_bind :
    let inner : List Step := [.filter (.is ⟨.eq, .bound "x"⟩)]
    let steps : List Step := [.inject [.bool true], .bind "x" inner]
    let bound : Bindings := [("x", .value (.bool true))]
    let inside : Moment := ⟨inner, [⟨.value (.bool true), bound⟩], bound, .empty⟩
    (∃ c, CompiledTraversal.compile steps = .ok c ∧
      (Graph.empty.evaluate c).1 ≠ .error (.unknownBinding "x")) ∧
    Visits .read steps .empty bound inside ∧ Encloses steps ["x"] inner ∧
      (∀ t ∈ inside.input, t.bindings = bound) ∧
      ∃ out, (evaluateSteps .read inner inside.input bound).run .empty = (.ok out, .empty) ∧
        ∀ t ∈ out, t.bindings = bound := by
  intro inner steps bound inside
  have hcompile : CompiledTraversal.compile steps = .ok ⟨steps⟩ := rfl
  have hinject : Visits .read steps .empty []
      ⟨steps.tail, [] ++ [⟨.value (.bool true), []⟩], [], .empty⟩ := .next .start rfl
  have hinside : Visits .read steps .empty bound inside := .continuation hinject rfl
  have hrun : (evaluateSteps .read inner inside.input bound).run .empty
      = (.ok inside.input, .empty) := rfl
  obtain ⟨hencloses, -, hinput, hend⟩ := (scoped_at_every_moment steps).2 _ _ _ _ hinside
  exact ⟨⟨_, hcompile, (scoped_at_every_moment steps).1 _ hcompile .empty "x"⟩, hinside,
    hencloses, hinput, _, hrun, hend _ _ hrun⟩

end PropertyGraph
