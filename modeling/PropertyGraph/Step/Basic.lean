import PropertyGraph.Element
import PropertyGraph.Predicate.Wire

/-!
# Traversal steps

A step is one instruction of a traversal. Binds and edge creations hold further steps: the
continuation that runs while a name is bound, and the selectors of the endpoints.
-/

namespace PropertyGraph

inductive Direction where
  | outgoing
  | incoming
  | both
deriving DecidableEq, Repr

/-- What a walk along edges lands on. -/
inductive WalkTarget where
  | vertices
  | edges
deriving DecidableEq, Repr

/-- What takes the place of the current element. -/
inductive Projection where
  | id
  | label
  | values (key : String)
  | count
deriving DecidableEq, Repr

inductive Step where
  | selectAll (kind : ElementKind)
  | selectById (kind : ElementKind) (ids : List ElementId)
  | typeFilter (labels : List String)
  | addVertex (label : String) (properties : List Property)
  /-- Creates an edge for each traverser. The endpoint without selector is the current vertex. -/
  | addEdge (label : String) (properties : List Property) (source target : Option (List Step))
  | update (properties : List Property)
  /-- Walks along edges with one of the labels, or along all edges when there are no labels. -/
  | traverse (direction : Direction) (edgeLabels : List String) (target : WalkTarget)
  | edgeVertex (direction : Direction)
  | filter (predicate : Predicate BoundName)
  | inject (values : List Json)
  | fold
  /-- Evaluates a continuation while the current item is bound to a name. -/
  | bind (name : String) (continuation : List Step)
  | project (projection : Projection)
  | limit (count : UInt64)
  | drop
deriving Repr, Inhabited

namespace Step

inductive Tag where
  | selectAll
  | selectById
  | typeFilter
  | addVertex
  | addEdge
  | update
  | traverse
  | edgeVertex
  | filter
  | inject
  | fold
  | bind
  | project
  | limit
  | drop
deriving DecidableEq, Repr

def Tag.text : Tag → String
  | selectAll => "selectAll"
  | selectById => "selectById"
  | typeFilter => "typeFilter"
  | addVertex => "addVertex"
  | addEdge => "addEdge"
  | update => "update"
  | traverse => "traverse"
  | edgeVertex => "edgeVertex"
  | filter => "where"
  | inject => "inject"
  | fold => "fold"
  | bind => "bind"
  | project => "project"
  | limit => "limit"
  | drop => "drop"

def tag : Step → Tag
  | selectAll _ => .selectAll
  | selectById _ _ => .selectById
  | typeFilter _ => .typeFilter
  | addVertex _ _ => .addVertex
  | addEdge _ _ _ _ => .addEdge
  | update _ => .update
  | traverse _ _ _ => .traverse
  | edgeVertex _ => .edgeVertex
  | filter _ => .filter
  | inject _ => .inject
  | fold => .fold
  | bind _ _ => .bind
  | project _ => .project
  | limit _ => .limit
  | drop => .drop

def name (step : Step) : String := step.tag.text

mutual
/-- Equality of steps, with constants compared as JSON values. -/
def beq : Step → Step → Bool
  | selectAll k, selectAll l => k == l
  | selectById k is, selectById l js => k == l && is == js
  | typeFilter ls, typeFilter ms => ls == ms
  | addVertex l ps, addVertex m qs => l == m && ps == qs
  | addEdge l ps s t, addEdge m qs u v => l == m && ps == qs && beqSelector s u && beqSelector t v
  | update ps, update qs => ps == qs
  | traverse d ls t, traverse e ms u => d == e && ls == ms && t == u
  | edgeVertex d, edgeVertex e => d == e
  | filter p, filter q => p == q
  | inject vs, inject ws => vs == ws
  | fold, fold => true
  | bind n ss, bind m ts => n == m && beqAll ss ts
  | project p, project q => p == q
  | limit m, limit n => m == n
  | drop, drop => true
  | _, _ => false
termination_by structural s => s
def beqSelector : Option (List Step) → Option (List Step) → Bool
  | none, none => true
  | some ss, some ts => beqAll ss ts
  | _, _ => false
termination_by structural s => s
def beqAll : List Step → List Step → Bool
  | [], [] => true
  | s :: ss, t :: ts => beq s t && beqAll ss ts
  | _, _ => false
termination_by structural s => s
end

instance : BEq Step := ⟨beq⟩

end Step

end PropertyGraph
