import PropertyGraph.Cardinality
import PropertyGraph.Compiled
import PropertyGraph.Schema.Model
import PropertyGraph.Scope
import PropertyGraph.Shape

/-!
# Building traversals

A traversal is a list of steps with the shape it is positioned on and the bindings visible there. Each
function appends a step and leaves the given traversal as it was, or says why the step cannot be
appended. Nothing is evaluated.
-/

namespace PropertyGraph

structure Traversal where
  result : ResultType
  steps : List Step
  shape : Shape
  scope : Scope
deriving Repr, Inhabited

/-- The endpoint of a new edge that a selector chooses. The other one is the current vertex. -/
inductive EdgeEnd where
  | source
  | target
deriving DecidableEq, Repr

def EdgeEnd.text : EdgeEnd → String
  | source => "from"
  | target => "to"

namespace Traversal

/-- The traversal that has not selected anything yet. -/
def source : Traversal := ⟨.start, [], .start, []⟩

def push (t : Traversal) (step : Step) (result : ResultType) (shape : Shape) : Traversal :=
  ⟨result, t.steps ++ [step], shape, t.scope⟩

/-- A traversal without steps that starts where this one is. -/
def anonymous (t : Traversal) : Traversal := { t with steps := [] }

def lift : Except SchemaError α → Except TraversalError α
  | .ok a => .ok a
  | .error e => .error (.schema e)

def ofType (model : GraphModel) (type : ElementType) (t : Traversal) :
    Except TraversalError Traversal := do
  let label ← lift (model.labelOf type)
  let shape ← t.shape.narrow label.kind label.label
  return t.push (.typeFilter [label.label]) (.element type) shape

def vertices (t : Traversal) : Traversal :=
  t.push (.selectAll .vertex) .anyVertex (.elements .vertex none)

def verticesOf (model : GraphModel) (type : ElementType) (t : Traversal) :
    Except TraversalError Traversal :=
  t.vertices.ofType model type

def verticesById (ids : List ElementId) (t : Traversal) : Traversal :=
  t.push (.selectById .vertex ids) .anyVertex (.elements .vertex none)

/-- The vertex of an identifier, if it has the type. -/
def vertexOf (model : GraphModel) (type : ElementType) (id : ElementId) (t : Traversal) :
    Except TraversalError Traversal :=
  (t.verticesById [id]).ofType model type

def edges (t : Traversal) : Traversal :=
  t.push (.selectAll .edge) .anyEdge (.elements .edge none)

def edgesOf (model : GraphModel) (type : ElementType) (t : Traversal) :
    Except TraversalError Traversal :=
  t.edges.ofType model type

def addVertex (model : GraphModel) (type : ElementType) (value : Json) (t : Traversal) :
    Except TraversalError Traversal := do
  let label ← lift (model.labelOf type)
  let properties ← lift (model.creationPayload type value)
  return t.push (.addVertex label.label properties) (.element type)
    (.elements .vertex (some label.label))

def inject (values : List Json) (t : Traversal) : Traversal :=
  t.push (.inject values) (.value .any) .value

/-- Keeps the results that satisfy a predicate. All properties are checked first, then all
references. -/
def filter (model : GraphModel) (predicate : Predicate Reference) (t : Traversal) :
    Except TraversalError Traversal := do
  predicate.propertyKeys.forM (t.shape.checkProperty model)
  predicate.references.forM t.scope.resolve
  return t.push (.filter (predicate.map Reference.name)) t.result t.shape

def fold (t : Traversal) : Traversal := t.push .fold (.folded t.result) (.folded t.shape)

def limit (count : UInt64) (t : Traversal) : Traversal := t.push (.limit count) t.result t.shape

def countType : ValueType := .integer .unsigned64

def count (t : Traversal) : Traversal := t.push (.project .count) (.value countType) .value

def drop (t : Traversal) : Traversal := t.push .drop .start .start

def id (t : Traversal) : Traversal := t.push (.project .id) (.value .id) .value

def label (t : Traversal) : Traversal := t.push (.project .label) (.value .string) .value

/-- The values of a property, which are declared to have a type. -/
def values (model : GraphModel) (key : String) (type : ValueType) (t : Traversal) :
    Except TraversalError Traversal := do
  t.shape.checkProperty model key
  return t.push (.project (.values key)) (.value type) .value

/-- Overwrites the properties of the current elements from a value of their type. -/
def update (model : GraphModel) (type : ElementType) (value : Json) (t : Traversal) :
    Except TraversalError Traversal := do
  let properties ← lift (model.updatePayload type value)
  return t.push (.update properties) t.result t.shape

def walk (model : GraphModel) (direction : Direction) (type : ElementType) (t : Traversal) :
    Except TraversalError Traversal := do
  let label ← lift (model.labelOf type)
  return t.push (.traverse direction [label.label] .vertices) .anyVertex (.elements .vertex none)

def walkEdges (model : GraphModel) (direction : Direction) (type : ElementType) (t : Traversal) :
    Except TraversalError Traversal := do
  let label ← lift (model.labelOf type)
  return t.push (.traverse direction [label.label] .edges) (.element type)
    (.elements .edge (some label.label))

def walkAny (direction : Direction) (t : Traversal) : Traversal :=
  t.push (.traverse direction [] .vertices) .anyVertex (.elements .vertex none)

def endpoint (direction : Direction) (t : Traversal) : Traversal :=
  t.push (.edgeVertex direction) .anyVertex (.elements .vertex none)

/-- An edge to be created, before its selector is known. -/
structure EdgeDraft where
  type : ElementType
  label : String
  properties : List Property

def draftEdge (model : GraphModel) (type : ElementType) (value : Json) :
    Except TraversalError EdgeDraft := do
  let label ← lift (model.labelOf type)
  let properties ← lift (model.creationPayload type value)
  return ⟨type, label.label, properties⟩

/-- A selector has to choose one vertex, as far as its steps tell. -/
def checkSelector (draft : EdgeDraft) (edgeEnd : EdgeEnd) (selector : List Step) :
    Except TraversalError Unit :=
  let subject := s!"'{edgeEnd.text}' selector of edge '{draft.label}'"
  match Cardinality.of selector with
  | .one | .atMostOne => .ok ()
  | .zero => .error (.cardinality s!"{subject} resolves to no vertex")
  | .many => .error (.cardinality s!"{subject} may resolve to more than one vertex")

/-- Creates an edge between each current vertex and the one that the selector chooses from it. -/
def addEdge (draft : EdgeDraft) (edgeEnd : EdgeEnd) (selector : List Step) (t : Traversal) :
    Except TraversalError Traversal := do
  checkSelector draft edgeEnd selector
  let step := match edgeEnd with
    | .source => Step.addEdge draft.label draft.properties (some selector) none
    | .target => Step.addEdge draft.label draft.properties none (some selector)
  return t.push step (.element draft.type) (.elements .edge (some draft.label))

/-- The traversal handed to a continuation. -/
def opened (binding : Binding) (t : Traversal) : Traversal :=
  { t.anonymous with scope := binding :: t.scope }

/-- Appends a bind with a finished continuation. -/
def closed (t : Traversal) (name : String) (continuation : Traversal) : Traversal :=
  t.push (.bind name continuation.steps) continuation.result continuation.shape

/-- Binds the current item for a continuation, which is given a handle to it. -/
def bind (scope : Nat) (continuation : Traversal → Reference → Except TraversalError Traversal)
    (t : Traversal) : Except TraversalError Traversal := do
  let binding : Binding := ⟨Scope.generatedName t.scope.length, scope⟩
  let inner ← continuation (t.opened binding) binding.reference
  return t.closed binding.name inner

def compile (t : Traversal) : Except TraversalError CompiledTraversal :=
  CompiledTraversal.inScope t.scope.names t.steps

end Traversal

end PropertyGraph
