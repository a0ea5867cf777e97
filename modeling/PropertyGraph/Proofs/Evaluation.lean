import PropertyGraph.Proofs.Ensures
import PropertyGraph.Traversal

/-!
# How an evaluation proceeds

A step is of one of three sorts. It looks at the graph, or it changes the graph for one traverser after
the other, or it evaluates further steps, which are the continuation of a bind and the selector of an
edge. `Step.Induction` follows this division, and an analysis of the engine is one proof by it. The
equations below say what the evaluation of each sort is, and the rules for `Ensures` say what its parts
end in.
-/

namespace PropertyGraph

namespace Step

/-- A step that neither changes the graph nor holds further steps. -/
def looks : Step → Bool
  | addVertex _ _ | addEdge _ _ _ _ | update _ | bind _ _ | drop => false
  | _ => true

/-- What has to be shown of each sort of step to have it of all steps, however they are nested. -/
structure Induction (one : Step → Prop) (all : List Step → Prop) : Prop where
  look : ∀ step, step.looks = true → one step
  addVertex : ∀ label properties, one (.addVertex label properties)
  addEdge : ∀ label properties source target, (∀ steps, source = some steps → all steps) →
    (∀ steps, target = some steps → all steps) → one (.addEdge label properties source target)
  update : ∀ properties, one (.update properties)
  bind : ∀ name continuation, all continuation → one (.bind name continuation)
  drop : one .drop
  nil : all []
  cons : ∀ step rest, one step → all rest → all (step :: rest)

namespace Induction

variable {one : Step → Prop} {all : List Step → Prop}

mutual
theorem holds (h : Induction one all) : ∀ step, one step
  | .addVertex label properties => h.addVertex label properties
  | .addEdge label properties source target =>
    h.addEdge label properties source target (h.holdsOfSelector source) (h.holdsOfSelector target)
  | .update properties => h.update properties
  | .bind name continuation => h.bind name continuation (h.holdsOfAll continuation)
  | .drop => h.drop
  | .selectAll _ | .selectById _ _ | .typeFilter _ | .traverse _ _ _ | .edgeVertex _ | .filter _
  | .inject _ | .fold | .project _ | .limit _ => h.look _ rfl
termination_by structural step => step
theorem holdsOfSelector (h : Induction one all) :
    ∀ selector steps, selector = some steps → all steps
  | some steps, _, hsome => Option.some.inj hsome ▸ h.holdsOfAll steps
  | none, _, hsome => nomatch hsome
termination_by structural selector => selector
theorem holdsOfAll (h : Induction one all) : ∀ steps, all steps
  | [] => h.nil
  | step :: rest => h.cons step rest (h.holds step) (h.holdsOfAll rest)
termination_by structural steps => steps
end

end Induction

/-- The only selector of an edge and the end that it chooses. -/
def onlySelector? : Option (List Step) → Option (List Step) → Option (EdgeEnd × List Step)
  | some steps, none => some (.source, steps)
  | none, some steps => some (.target, steps)
  | _, _ => none

theorem of_onlySelector? {P : Option (List Step) → Prop} {source target : Option (List Step)}
    {edgeEnd : EdgeEnd} {selector : List Step} (hsource : P source) (htarget : P target)
    (honly : onlySelector? source target = some (edgeEnd, selector)) : P (some selector) := by
  cases source <;> cases target <;> simp only [onlySelector?, reduceCtorEq, Option.some.injEq,
    Prod.mk.injEq] at honly
  · rwa [honly.2] at htarget
  · rwa [honly.2] at hsource

theorem all_of_onlySelector? {P : List Step → Prop} {source target : Option (List Step)}
    {edgeEnd : EdgeEnd} {selector : List Step} (hsource : ∀ steps, source = some steps → P steps)
    (htarget : ∀ steps, target = some steps → P steps)
    (honly : onlySelector? source target = some (edgeEnd, selector)) : P selector :=
  of_onlySelector? (P := fun chosen => ∀ steps, chosen = some steps → P steps) hsource htarget honly
    selector rfl

end Step

/-- The endpoints of an edge between the current vertex and the chosen one, source first. -/
def EdgeEnd.join : EdgeEnd → Nat → Nat → Nat × Nat
  | source, current, chosen => (chosen, current)
  | target, current, chosen => (current, chosen)

section Equations

variable {access : Access} {input : List Traverser} {scope : Bindings}

theorem evaluateStep_of_looks {step : Step} (h : step.looks = true) :
    evaluateStep access step input scope = .read fun g => g.look scope input step := by
  cases step <;> first | rfl | cases h

def addVertexFrom (access : Access) (label : String) (properties : List Property) (t : Traverser) :
    Evaluation Traverser := do
  let id ← access.change (·.addVertex label properties)
  return t.withItem (.element .vertex id)

theorem evaluateStep_addVertex {label : String} {properties : List Property} :
    evaluateStep access (.addVertex label properties) input scope
      = input.mapM (addVertexFrom access label properties) := rfl

/-- Adds an edge between the current vertex of a traverser and the one that its selector chooses. -/
def connect (access : Access) (label : String) (properties : List Property)
    (source target : Option (List Step)) (t : Traverser) : Evaluation Traverser :=
  addEdgeFrom access label properties (evaluateSelector access source)
    (evaluateSelector access target) t

theorem evaluateStep_addEdge {label : String} {properties : List Property}
    {source target : Option (List Step)} :
    evaluateStep access (.addEdge label properties source target) input scope
      = input.mapM (connect access label properties source target) := rfl

theorem evaluateStep_update {properties : List Property} :
    evaluateStep access (.update properties) input scope
      = (do input.forM fun t => updateItem access properties t.item; return input) := rfl

def continueFrom (access : Access) (name : String) (continuation : List Step) (t : Traverser) :
    Evaluation (List Traverser) := do
  let results ← evaluateSteps access continuation [⟨t.item, (name, t.item) :: t.bindings⟩]
    ((name, t.item) :: t.bindings)
  return results.map fun r => t.withItem r.item

theorem evaluateStep_bind {name : String} {continuation : List Step} :
    evaluateStep access (.bind name continuation) input scope
      = (do return (← input.mapM (continueFrom access name continuation)).flatten) := rfl

theorem evaluateStep_drop :
    evaluateStep access .drop input scope
      = (do input.forM fun t => dropItem access t.item; return []) := rfl

theorem evaluateSteps_cons {step : Step} {rest : List Step} :
    evaluateSteps access (step :: rest) input scope
      = (do evaluateSteps access rest (← evaluateStep access step input scope) scope) := rfl

theorem evaluateSteps_append {steps rest : List Step} :
    evaluateSteps access (steps ++ rest) input scope
      = (do evaluateSteps access rest (← evaluateSteps access steps input scope) scope) := by
  induction steps generalizing input with
  | nil =>
      have hnil : evaluateSteps access [] input scope = pure input := rfl
      rw [hnil, pure_bind, List.nil_append]
  | cons step steps ih =>
      rw [List.cons_append, evaluateSteps_cons, evaluateSteps_cons, bind_assoc]
      simp only [ih]

theorem connect_eq {label : String} {properties : List Property}
    {source target : Option (List Step)} {t : Traverser} :
    connect access label properties source target t = (do
      let current ← Evaluation.read fun _ => t.item.vertexFor "addEdge"
      match Step.onlySelector? source target with
      | none => .refuse (.invalidRequest s!"edge '{label}' needs exactly one endpoint selector")
      | some (edgeEnd, selector) => do
        let found ← evaluateSteps access selector [t] t.bindings
        let chosen ← Evaluation.read fun _ => chosenVertex label found
        let id ← access.change
          (·.addEdge label properties (edgeEnd.join current chosen).1 (edgeEnd.join current chosen).2)
        return t.withItem (.element .edge id)) := by
  unfold connect addEdgeFrom
  congr 1
  funext current
  cases source <;> cases target <;>
    simp only [evaluateSelector, Step.onlySelector?, EdgeEnd.join, pure_bind] <;> rfl

end Equations

/-- The kind of element that an item is. -/
def Item.kind? : Item → Option ElementKind
  | .element kind _ => some kind
  | _ => none

namespace Ensures

variable {α : Type} {g : Graph} {ok : α → Graph → Prop} {failed : EngineError → Graph → Prop}

theorem read {f : Graph → Except EngineError α} (hok : ∀ a, f g = .ok a → ok a g)
    (hfailed : ∀ e, f g = .error e → failed e g) : Ensures (Evaluation.read f) g ok failed := by
  have hrun : (Evaluation.read f).run g = (f g, g) := rfl
  rw [Ensures, hrun]
  cases hf : f g with
  | ok a => exact hok a hf
  | error e => exact hfailed e hf

theorem refuse {e : EngineError} (h : failed e g) : Ensures (Evaluation.refuse e) g ok failed := h

theorem change {access : Access} {f : Graph → α × Graph} (hok : ok (f g).1 (f g).2)
    (hread : access = .read → ∀ reason, failed (.invalidRequest reason) g) :
    Ensures (access.change f) g ok failed := by
  cases access with
  | read => exact hread rfl _
  | write => exact hok

variable {access : Access} {t : Traverser}

theorem addVertexFrom {ok : Traverser → Graph → Prop} {label : String} {properties : List Property}
    (hok : ok (t.withItem (.element .vertex (g.addVertex label properties).1))
      (g.addVertex label properties).2)
    (hread : access = .read → ∀ reason, failed (.invalidRequest reason) g) :
    Ensures (addVertexFrom access label properties t) g ok failed :=
  .bind (.change (.pure hok) hread)

/-- The only selector is evaluated between looking at the current vertex and adding the edge. -/
theorem connect {ok : Traverser → Graph → Prop} {label : String} {properties : List Property}
    {source target : Option (List Step)}
    (hcurrent : ∀ e, t.item.vertexFor "addEdge" = .error e → failed e g)
    (hnone : Step.onlySelector? source target = none → ∀ reason, failed (.invalidRequest reason) g)
    (hselector : ∀ current edgeEnd selector, t.item.vertexFor "addEdge" = .ok current →
      Step.onlySelector? source target = some (edgeEnd, selector) →
      Ensures (evaluateSteps access selector [t] t.bindings) g
        (fun found g' => Ensures (Evaluation.read fun _ => chosenVertex label found) g'
          (fun chosen g' =>
            let (source, target) := edgeEnd.join current chosen
            ok (t.withItem (.element .edge (g'.addEdge label properties source target).1))
                (g'.addEdge label properties source target).2 ∧
              (access = .read → ∀ reason, failed (.invalidRequest reason) g'))
          failed)
        failed) :
    Ensures (connect access label properties source target t) g ok failed := by
  rw [connect_eq]
  refine .bind (.read (fun current hok => ?_) hcurrent)
  cases honly : Step.onlySelector? source target with
  | none => exact .refuse (hnone honly _)
  | some chosen =>
      obtain ⟨edgeEnd, selector⟩ := chosen
      refine .bind ((hselector current edgeEnd selector hok honly).mono ?_ fun _ _ h => h)
      intro found g' hfound
      refine .bind (hfound.mono (fun chosen g'' ⟨hadd, hread⟩ => ?_) fun _ _ h => h)
      exact .bind (.change (.pure hadd) hread)

theorem continueFrom {ok : List Traverser → Graph → Prop} {name : String}
    {continuation : List Step}
    (h : Ensures (evaluateSteps access continuation [⟨t.item, (name, t.item) :: t.bindings⟩]
        ((name, t.item) :: t.bindings)) g
      (fun results g' => ok (results.map fun r => t.withItem r.item) g') failed) :
    Ensures (continueFrom access name continuation t) g ok failed :=
  .bind (h.mono (fun _ _ hok => .pure hok) fun _ _ h => h)

theorem updateItem {ok : Unit → Graph → Prop} {properties : List Property} {item : Item}
    (hok : ∀ kind id, item = .element kind id → ok () (g.update kind id properties))
    (hread : access = .read → ∀ reason, failed (.invalidRequest reason) g)
    (hitem : item.kind? = none → failed (.unsupportedInput "update" item.describe) g) :
    Ensures (updateItem access properties item) g ok failed := by
  cases item with
  | element kind id => exact .change (hok kind id rfl) hread
  | root | value _ | list _ => exact .refuse (hitem rfl)

theorem dropItem {ok : Unit → Graph → Prop} {item : Item}
    (hok : ∀ kind id, item = .element kind id → ok () (g.remove kind id))
    (hitem : item.kind? = none → ok () g)
    (hread : access = .read → ∀ reason, failed (.invalidRequest reason) g) :
    Ensures (dropItem access item) g ok failed := by
  cases item with
  | element kind id => exact .change (hok kind id rfl) hread
  | root | value _ | list _ => exact .pure (hitem rfl)

theorem runSteps {steps : List Step} {ok : Graph → Prop}
    (h : Ensures (evaluateSteps access steps [⟨.root, []⟩] []) g (fun _ g' => ok g') failed) :
    Ensures (runSteps access steps) g (fun _ g' => ok g') failed :=
  .bind (h.mono (fun _ _ hok => .read (fun _ _ => hok) fun _ h => nomatch h) fun _ _ h => h)

end Ensures

def accessFor (steps : List Step) : Access := if Step.anyMutates steps then .write else .read

theorem evaluate_eq_run (g : Graph) (traversal : CompiledTraversal) :
    g.evaluate traversal = (runSteps (accessFor traversal.steps) traversal.steps).run g := rfl

theorem anyMutates_eq_false_of_accessFor {steps : List Step} (h : accessFor steps = .read) :
    Step.anyMutates steps = false := by
  unfold accessFor at h
  split at h
  · cases h
  · exact eq_false_of_ne_true ‹_›

end PropertyGraph
