import PropertyGraph.Compiled
import PropertyGraph.Engine.Test

/-!
# Evaluation of traversals

Each step maps the list of all traversers to the next one. A bind evaluates its continuation for each
traverser with the current item bound, and a selector is evaluated from each traverser that needs an
endpoint. `fold` and `count` have one result whatever comes in; it carries the bindings of the
enclosing scope.

A traversal that changes the graph has write access to it. What it has changed stays when a later part
fails.
-/

namespace PropertyGraph

/-- A computation on the graph, which survives a failure. -/
abbrev Evaluation := ExceptT EngineError (StateM Graph)

namespace Evaluation

/-- A part that only looks at the graph. -/
def read (f : Graph → Except EngineError α) : Evaluation α := fun g => (f g, g)

def refuse (error : EngineError) : Evaluation α := read fun _ => .error error

end Evaluation

inductive Access where
  | read
  | write
deriving DecidableEq, Repr

/-- A change of the graph, refused without write access. -/
def Access.change (access : Access) (f : Graph → α × Graph) : Evaluation α := fun g =>
  match access with
  | .read => (.error (.invalidRequest "mutation during a read-only evaluation"), g)
  | .write => ((f g).map .ok id)

namespace Step

mutual
def mutates : Step → Bool
  | addVertex _ _ => true
  | addEdge _ _ _ _ => true
  | update _ => true
  | drop => true
  | bind _ continuation => anyMutates continuation
  | _ => false
termination_by structural s => s
def anyMutates : List Step → Bool
  | [] => false
  | step :: rest => mutates step || anyMutates rest
termination_by structural s => s
end

end Step

def Item.vertexFor (step : String) : Item → Except EngineError Nat
  | .element .vertex id => .ok id
  | item => .error (.unsupportedInput step item.describe)

/-- Replaces each traverser by the items derived from its own. -/
def expand (derive : Item → Except EngineError (List Item)) (input : List Traverser) :
    Except EngineError (List Traverser) := do
  let derived ← input.mapM fun t => (derive t.item).map (·.map t.withItem)
  return derived.flatten

/-- The traversers of constants. They take the place of the source, or follow the other traversers. -/
def injected (values : List Json) (scope : Bindings) (input : List Traverser) : List Traverser :=
  let emit (bindings : Bindings) : List Traverser := values.map fun v => ⟨.value v, bindings⟩
  if input.any (·.item.isRoot) then
    input.flatMap fun t => if t.item.isRoot then emit t.bindings else [t]
  else input ++ emit ((input.head?.map (·.bindings)).getD scope)

/-- The items that are not the source. -/
def reached (input : List Traverser) : List Item :=
  (input.map (·.item)).filter (!·.isRoot)

namespace Graph

def satisfying (g : Graph) (predicate : Predicate BoundName) :
    List Traverser → Except EngineError (List Traverser)
  | [] => .ok []
  | t :: rest => do
    let holds ← predicate.holds g t
    let rest ← g.satisfying predicate rest
    return if holds then t :: rest else rest

def hasLabel (g : Graph) (labels : List String) : Item → Bool
  | .element kind id => (g.label? kind id).any labels.contains
  | _ => false

def walk (g : Graph) (direction : Direction) (labels : List String) (target : WalkTarget)
    (item : Item) : Except EngineError (List Item) := do
  let vertex ← item.vertexFor "traverse"
  let edges := g.incident vertex direction labels
  match target with
  | .edges => return edges.map (.element .edge)
  | .vertices =>
    return edges.filterMap fun id =>
      (g.edges.get? id).map fun e => .element .vertex (e.farEnd vertex direction)

def endpoints (g : Graph) (direction : Direction) : Item → Except EngineError (List Item)
  | .element .edge id =>
    return (g.edges.get? id).elim [] fun e => (e.ends direction).map (.element .vertex)
  | item => .error (.unsupportedInput "edgeVertex" item.describe)

def projected (g : Graph) : Projection → Item → Except EngineError (List Item)
  | .id, .element _ id => .ok [.value (.int id)]
  | .id, item => .error (.unsupportedInput "id" item.describe)
  | .label, .element kind id => .ok ((g.label? kind id).map fun label => .value (.str label)).toList
  | .label, item => .error (.unsupportedInput "label" item.describe)
  | .values key, .element kind id =>
    .ok ((g.property? key (.element kind id)).map Item.value).toList
  | .values _, item => .error (.unsupportedInput "values" item.describe)
  | .count, item => .ok [item]

def project (g : Graph) (projection : Projection) (scope : Bindings) (input : List Traverser) :
    Except EngineError (List Traverser) :=
  match projection with
  | .count => .ok [⟨.value (.int (reached input).length), scope⟩]
  | projection => expand (g.projected projection) input

/-- The traversers after a step that neither changes the graph nor holds further steps. Other steps
leave them as they are. -/
def look (g : Graph) (scope : Bindings) (input : List Traverser) :
    Step → Except EngineError (List Traverser)
  | .selectAll kind => expand (fun _ => .ok ((g.ids kind).map (.element kind))) input
  | .selectById kind ids =>
    expand (fun _ => .ok ((ids.filterMap (g.find? kind)).map (.element kind))) input
  | .typeFilter labels => .ok (input.filter fun t => g.hasLabel labels t.item)
  | .traverse direction labels target => expand (g.walk direction labels target) input
  | .edgeVertex direction => expand (g.endpoints direction) input
  | .filter predicate => g.satisfying predicate input
  | .inject values => .ok (injected values scope input)
  | .fold => .ok [⟨.list (reached input), scope⟩]
  | .project projection => g.project projection scope input
  | .limit count => .ok (input.take count.toNat)
  | _ => .ok input

end Graph

def updateItem (access : Access) (properties : List Property) : Item → Evaluation Unit
  | .element kind id => access.change fun g => ((), g.update kind id properties)
  | item => .refuse (.unsupportedInput "update" item.describe)

def dropItem (access : Access) : Item → Evaluation Unit
  | .element kind id => access.change fun g => ((), g.remove kind id)
  | _ => pure ()

/-- The one vertex that a selector has chosen. -/
def chosenVertex (label : String) : List Traverser → Except EngineError Nat
  | [t] => t.item.vertexFor "addEdge"
  | found => .error (.endpoint label found.length)

/-- Adds the edge of one traverser, between its vertex and the one that the only selector chooses. -/
def addEdgeFrom (access : Access) (label : String) (properties : List Property)
    (source target : Option (Traverser → Evaluation (List Traverser))) (t : Traverser) :
    Evaluation Traverser := do
  let current ← Evaluation.read fun _ => t.item.vertexFor "addEdge"
  let (source, target) ←
    match source, target with
    | some select, none => do
      let found ← select t
      let vertex ← Evaluation.read fun _ => chosenVertex label found
      pure (vertex, current)
    | none, some select => do
      let found ← select t
      let vertex ← Evaluation.read fun _ => chosenVertex label found
      pure (current, vertex)
    | _, _ =>
      .refuse (.invalidRequest s!"edge '{label}' needs exactly one endpoint selector")
  let id ← access.change (·.addEdge label properties source target)
  return t.withItem (.element .edge id)

mutual
def evaluateStep (access : Access) :
    Step → List Traverser → Bindings → Evaluation (List Traverser)
  | .addVertex label properties, input, _ =>
    input.mapM fun t => do
      let id ← access.change (·.addVertex label properties)
      return t.withItem (.element .vertex id)
  | .addEdge label properties source target, input, _ =>
    input.mapM (addEdgeFrom access label properties (evaluateSelector access source)
      (evaluateSelector access target))
  | .update properties, input, _ => do
    input.forM fun t => updateItem access properties t.item
    return input
  | .bind name continuation, input, _ => do
    let results ← input.mapM fun t => do
      let inner := (name, t.item) :: t.bindings
      let results ← evaluateSteps access continuation [⟨t.item, inner⟩] inner
      return results.map fun r => t.withItem r.item
    return results.flatten
  | .drop, input, _ => do
    input.forM fun t => dropItem access t.item
    return []
  | step, input, scope => .read fun g => g.look scope input step
termination_by structural s => s
/-- A selector starts from a single traverser and its bindings. -/
def evaluateSelector (access : Access) :
    Option (List Step) → Option (Traverser → Evaluation (List Traverser))
  | none => none
  | some steps => some fun t => evaluateSteps access steps [t] t.bindings
termination_by structural s => s
def evaluateSteps (access : Access) :
    List Step → List Traverser → Bindings → Evaluation (List Traverser)
  | [], input, _ => pure input
  | step :: rest, input, scope => do
    let input ← evaluateStep access step input scope
    evaluateSteps access rest input scope
termination_by structural s => s
end

/-- The results of steps that start at the source. -/
def runSteps (access : Access) (steps : List Step) : Evaluation (List RawResult) := do
  let found ← evaluateSteps access steps [⟨.root, []⟩] []
  Evaluation.read fun g => .ok (found.filterMap fun t => t.item.result? g)

/-- Evaluates a traversal. It has write access if one of its steps changes the graph. -/
def Graph.evaluate (g : Graph) (traversal : CompiledTraversal) :
    Except EngineError (List RawResult) × Graph :=
  let access := if Step.anyMutates traversal.steps then Access.write else Access.read
  runSteps access traversal.steps g

end PropertyGraph
