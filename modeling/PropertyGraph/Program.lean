import PropertyGraph.Traversal

/-!
# Builder programs

A program is a list of calls on a traversal. The continuation of a bind and the selector of an edge are
programs of their own, run on the traversal handed to them. Handles of bindings are kept under a key
for later predicates, the newest of a key first, also after their continuation has ended.
-/

namespace PropertyGraph

/-- A reference in the text of a program. -/
inductive Mention where
  | handle (key : String)
  | named (name : String)
deriving DecidableEq, Repr

/-- What a probe asks of the traversal it stands in. -/
inductive Probe where
  | compile
  | toList
  | first
  | state
deriving DecidableEq, Repr

inductive Call where
  | vertices
  | edges
  | verticesOf (type : ElementType)
  | edgesOf (type : ElementType)
  | vertexOf (type : ElementType) (id : ElementId)
  | verticesById (ids : List ElementId)
  | addVertex (type : ElementType) (value : Json)
  | inject (values : List Json)
  | filter (predicate : Predicate Mention)
  | fold
  | limit (count : UInt64)
  | count
  | drop
  | ofType (type : ElementType)
  | id
  | label
  | values (key : String) (type : ValueType)
  | update (value : Json)
  | walk (direction : Direction) (type : ElementType)
  | walkEdges (direction : Direction) (type : ElementType)
  | walkAny (direction : Direction)
  | endpoint (direction : Direction)
  | addEdge (type : ElementType) (value : Json) (edgeEnd : EdgeEnd) (selector : List Call)
  | bind (name : Option String) (key : String) (continuation : List Call)
  | probe (probe : Probe)
  /-- A call with an argument that cannot be read. -/
  | unreadable (error : DecodeError)
deriving Repr, Inhabited

/-- What a program leaves behind besides its traversal, in order. -/
inductive Event where
  | opened (name : String)
  | probed (probe : Probe) (traversal : Traversal)
deriving Repr

structure BuildState where
  nextScope : Nat
  handles : List (String × Binding)
  events : List Event
deriving Repr

namespace BuildState

def initial : BuildState := ⟨1, [], []⟩

def emit (event : Event) (s : BuildState) : BuildState := { s with events := s.events ++ [event] }

def openScope (name key : String) (s : BuildState) : Binding × BuildState :=
  let binding : Binding := ⟨name, s.nextScope⟩
  (binding,
    { nextScope := s.nextScope + 1
      handles := (key, binding) :: s.handles
      events := s.events ++ [.opened name] })

end BuildState

inductive BuildError where
  | refused (error : TraversalError)
  /-- The type of the current results does not have the call. -/
  | unavailable
deriving DecidableEq, Repr

/-- A run of a program. The state survives a failure. -/
abbrev Build := ExceptT BuildError (StateM BuildState)

namespace Build

def ofExcept : Except TraversalError α → Build α
  | .ok a => pure a
  | .error e => throw (.refused e)

def require (available : Bool) : Build Unit := if available then pure () else throw .unavailable

end Build

namespace Mention

def name : Mention → String
  | handle key => key
  | named name => name

/-- The reference that a mention stands for. A handle has to have been given out. -/
def resolve (handles : List (String × Binding)) : Mention → Reference
  | named name => ⟨name, none⟩
  | handle key =>
    match handles.lookup key with
    | some binding => binding.reference
    | none => ⟨key, some 0⟩

end Mention

namespace Call

/-- The kind of element that a type of results has to be of. -/
def isOf (kind : ElementKind) (result : ResultType) : Bool := result.elementKind? == some kind

def available (result : ResultType) : Call → Bool
  | verticesOf type | vertexOf type _ | addVertex type _ => type.kind == .vertex
  | edgesOf type => type.kind == .edge
  | ofType type => isOf type.kind result
  | id | label | values _ _ => result.elementKind?.isSome
  | update _ =>
    match result with
    | .element _ => true
    | _ => false
  | walk _ type | walkEdges _ type | addEdge type _ _ _ =>
    isOf .vertex result && type.kind == .edge
  | walkAny _ => isOf .vertex result
  | endpoint _ => isOf .edge result
  | _ => true

/-- A value as a value of a domain type. -/
def readValue (type : ElementType) (value : Json) : Except TraversalError Json :=
  (Reading.ofJson type.read value).mapError .serialization

/-- The calls that run no further program. -/
def runSimple (model : GraphModel) (t : Traversal) : Call → Except TraversalError Traversal
  | vertices => .ok t.vertices
  | edges => .ok t.edges
  | verticesOf type => t.verticesOf model type
  | edgesOf type => t.edgesOf model type
  | vertexOf type vertexId => t.vertexOf model type vertexId
  | verticesById vertexIds => .ok (t.verticesById vertexIds)
  | addVertex type value => do t.addVertex model type (← readValue type value)
  | inject constants => .ok (t.inject constants)
  | fold => .ok t.fold
  | limit size => .ok (t.limit size)
  | count => .ok t.count
  | drop => .ok t.drop
  | ofType type => t.ofType model type
  | id => .ok t.id
  | label => .ok t.label
  | values key type => t.values model key type
  | update value =>
    match t.result with
    | .element type => do t.update model type (← readValue type value)
    | _ => .ok t
  | walk direction type => t.walk model direction type
  | walkEdges direction type => t.walkEdges model direction type
  | walkAny direction => .ok (t.walkAny direction)
  | endpoint direction => .ok (t.endpoint direction)
  | unreadable error => .error (.serialization error)
  | filter _ | addEdge _ _ _ _ | bind _ _ _ | probe _ => .ok t

mutual
def run (model : GraphModel) (t : Traversal) : Call → Build Traversal
  | .filter predicate => do
    let state ← get
    Build.ofExcept (t.filter model (predicate.map (Mention.resolve state.handles)))
  | .addEdge type value edgeEnd selector => do
    Build.require ((Call.addEdge type value edgeEnd []).available t.result)
    let value ← Build.ofExcept (readValue type value)
    let draft ← Build.ofExcept (Traversal.draftEdge model type value)
    let chosen ← runAll model t.anonymous selector
    Build.require (isOf .vertex chosen.result)
    Build.ofExcept (t.addEdge draft edgeEnd chosen.steps)
  | .bind name key continuation => do
    let name := name.getD (Scope.generatedName t.scope.length)
    if name.isEmpty then throw (.refused (.unboundReference name))
    let (binding, state) := (← get).openScope name key
    set state
    let inner ← runAll model (t.opened binding) continuation
    return t.closed name inner
  | .probe question => do
    modify (·.emit (.probed question t))
    return t
  | call => do
    Build.require (call.available t.result)
    Build.ofExcept (runSimple model t call)
termination_by structural call => call
def runAll (model : GraphModel) (t : Traversal) : List Call → Build Traversal
  | [] => pure t
  | call :: rest => do
    let t ← run model t call
    runAll model t rest
termination_by structural calls => calls
end

/-- Runs calls one after the other and tells the traversal after each, up to the first failure. -/
def runEach (model : GraphModel) :
    Traversal → List Call → BuildState → List (Except BuildError Traversal) × BuildState
  | _, [], state => ([], state)
  | t, call :: rest, state =>
    match (run model t call).run state with
    | (.error e, state) => ([.error e], state)
    | (.ok t, state) =>
      let (after, state) := runEach model t rest state
      (.ok t :: after, state)

end Call

end PropertyGraph
