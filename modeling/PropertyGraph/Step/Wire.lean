import PropertyGraph.Step.Basic

/-!
# Wire form of steps

A step carries its kind among its members, before its fields. A selector that is not given is left
out. Steps in sequence are an array.
-/

namespace PropertyGraph

namespace Direction

def text : Direction → String
  | outgoing => "out"
  | incoming => "in"
  | both => "both"

def toJson (d : Direction) : Json := .str d.text

def read (m : Medium) (d : Document) : Except DecodeError Direction :=
  Reading.choice m [("out", outgoing), ("in", incoming), ("both", both)] d

instance : WireForm Direction := ⟨toJson, read⟩

end Direction

namespace WalkTarget

def text : WalkTarget → String
  | vertices => "vertices"
  | edges => "edges"

def toJson (t : WalkTarget) : Json := .str t.text

def read (m : Medium) (d : Document) : Except DecodeError WalkTarget :=
  Reading.choice m [("vertices", vertices), ("edges", edges)] d

instance : WireForm WalkTarget := ⟨toJson, read⟩

end WalkTarget

namespace Projection

def toJson : Projection → Json
  | id => .obj [("of", .str "id")]
  | label => .obj [("of", .str "label")]
  | values key => .obj [("of", .str "values"), ("key", .str key)]
  | count => .obj [("of", .str "count")]

inductive Tag where
  | id
  | label
  | values
  | count
deriving DecidableEq, Repr

namespace Tag

def variants : List (String × Tag) :=
  [("id", id), ("label", label), ("values", values), ("count", count)]

def finish (key : Option String) : Tag → Except DecodeError Projection
  | id => return .id
  | label => return .label
  | values => return .values (← Reading.need "key" key)
  | count => return .count

/-- A projection without key takes any members, and no items. -/
def fields : Tag → List Reading.Field
  | values => [Reading.required "key"]
  | _ => []

end Tag

def read (m : Medium) (d : Document) : Except DecodeError Projection := do
  let (tag, key) ← Reading.tagged m "a projection" "of" Tag.variants Tag.fields
    (none : Option String)
    (fun _ d => do
      let key ← Reading.string d
      return fun _ => some key) d
  tag.finish key

instance : WireForm Projection := ⟨toJson, read⟩

end Projection

namespace Step

mutual
def toJson : Step → Json
  | selectAll kind => .obj [("step", .str "selectAll"), ("kind", kind.toJson)]
  | selectById kind ids =>
    .obj [("step", .str "selectById"), ("kind", kind.toJson),
      ("ids", .arr (ids.map ElementId.toJson))]
  | typeFilter labels => .obj [("step", .str "typeFilter"), ("labels", .arr (labels.map .str))]
  | addVertex label properties =>
    .obj [("step", .str "addVertex"), ("label", .str label),
      ("properties", .arr (properties.map Property.toJson))]
  | addEdge label properties source target =>
    .obj ([("step", .str "addEdge"), ("label", .str label),
      ("properties", .arr (properties.map Property.toJson))]
      ++ selectorMember "from" source ++ selectorMember "to" target)
  | update properties =>
    .obj [("step", .str "update"), ("properties", .arr (properties.map Property.toJson))]
  | traverse direction edgeLabels target =>
    .obj [("step", .str "traverse"), ("direction", direction.toJson),
      ("edgeLabels", .arr (edgeLabels.map .str)), ("target", target.toJson)]
  | edgeVertex direction => .obj [("step", .str "edgeVertex"), ("direction", direction.toJson)]
  | filter predicate => .obj [("step", .str "where"), ("predicate", predicate.toJson)]
  | inject values => .obj [("step", .str "inject"), ("values", .arr values)]
  | fold => .obj [("step", .str "fold")]
  | bind name continuation =>
    .obj [("step", .str "bind"), ("name", .str name),
      ("continuation", .arr (allToJson continuation))]
  | project projection => .obj [("step", .str "project"), ("projection", projection.toJson)]
  | limit count => .obj [("step", .str "limit"), ("count", .int count.toNat)]
  | drop => .obj [("step", .str "drop")]
termination_by structural s => s
def selectorMember (key : String) : Option (List Step) → List (String × Json)
  | none => []
  | some steps => [(key, .arr (allToJson steps))]
termination_by structural s => s
def allToJson : List Step → List Json
  | [] => []
  | step :: rest => toJson step :: allToJson rest
termination_by structural s => s
end

def sequenceToJson (steps : List Step) : Json := .arr (allToJson steps)

namespace Tag

def variants : List (String × Tag) :=
  [selectAll, selectById, typeFilter, addVertex, addEdge, update, traverse, edgeVertex, filter,
    inject, fold, bind, project, limit, drop].map fun tag => (tag.text, tag)

open Reading (required defaulted) in
/-- The fields of a kind of step, in the order of declaration. -/
def fields : Tag → List Reading.Field
  | selectAll => [required "kind"]
  | selectById => [required "kind", required "ids"]
  | typeFilter => [required "labels"]
  | addVertex => [required "label", required "properties"]
  | addEdge => [required "label", required "properties", defaulted "from", defaulted "to"]
  | update => [required "properties"]
  | traverse => [required "direction", required "edgeLabels", required "target"]
  | edgeVertex => [required "direction"]
  | filter => [required "predicate"]
  | inject => [required "values"]
  | fold => []
  | bind => [required "name", required "continuation"]
  | project => [required "projection"]
  | limit => [required "count"]
  | drop => []

end Tag

structure Draft where
  kind : Option ElementKind
  ids : Option (List ElementId)
  labels : Option (List String)
  label : Option String
  properties : Option (List Property)
  source : Option (List Step)
  destination : Option (List Step)
  direction : Option Direction
  edgeLabels : Option (List String)
  target : Option WalkTarget
  predicate : Option (Predicate BoundName)
  values : Option (List Json)
  name : Option String
  continuation : Option (List Step)
  projection : Option Projection
  count : Option UInt64

namespace Draft

def empty : Draft :=
  ⟨none, none, none, none, none, none, none, none, none, none, none, none, none, none, none, none⟩

open Reading (need) in
def finish (draft : Draft) : Tag → Except DecodeError Step
  | .selectAll => return .selectAll (← need "kind" draft.kind)
  | .selectById => return .selectById (← need "kind" draft.kind) (← need "ids" draft.ids)
  | .typeFilter => return .typeFilter (← need "labels" draft.labels)
  | .addVertex =>
    return .addVertex (← need "label" draft.label) (← need "properties" draft.properties)
  | .addEdge =>
    return .addEdge (← need "label" draft.label) (← need "properties" draft.properties)
      draft.source draft.destination
  | .update => return .update (← need "properties" draft.properties)
  | .traverse =>
    return .traverse (← need "direction" draft.direction) (← need "edgeLabels" draft.edgeLabels)
      (← need "target" draft.target)
  | .edgeVertex => return .edgeVertex (← need "direction" draft.direction)
  | .filter => return .filter (← need "predicate" draft.predicate)
  | .inject => return .inject (← need "values" draft.values)
  | .fold => return .fold
  | .bind => return .bind (← need "name" draft.name) (← need "continuation" draft.continuation)
  | .project => return .project (← need "projection" draft.projection)
  | .limit => return .limit (← need "count" draft.count)
  | .drop => return .drop

/-- An absent or null selector. -/
def optionalSteps (steps : Unit → Except DecodeError (List Step)) :
    Document → Except DecodeError (Option (List Step))
  | .null => .ok none
  | _ => (steps ()).map some

/-- Reads a piece as a field, given its reading as a sequence of steps. -/
def fill (m : Medium) (d : Document) (steps : Unit → Except DecodeError (List Step))
    (name : String) : Except DecodeError (Draft → Draft) :=
  match name with
  | "kind" => do
    let kind ← ElementKind.read m d
    return ({ · with kind := some kind })
  | "ids" => do
    let ids ← Reading.list ElementId.read d
    return ({ · with ids := some ids })
  | "labels" => do
    let labels ← Reading.list Reading.string d
    return ({ · with labels := some labels })
  | "label" => do
    let label ← Reading.string d
    return ({ · with label := some label })
  | "properties" => do
    let properties ← Reading.list (Property.read m) d
    return ({ · with properties := some properties })
  | "from" => do
    let source ← optionalSteps steps d
    return ({ · with source := source })
  | "to" => do
    let destination ← optionalSteps steps d
    return ({ · with destination := destination })
  | "direction" => do
    let direction ← Direction.read m d
    return ({ · with direction := some direction })
  | "edgeLabels" => do
    let labels ← Reading.list Reading.string d
    return ({ · with edgeLabels := some labels })
  | "target" => do
    let target ← WalkTarget.read m d
    return ({ · with target := some target })
  | "predicate" => do
    let predicate ← Predicate.read d m
    return ({ · with predicate := some predicate })
  | "values" => do
    let values ← Reading.list (Reading.free m) d
    return ({ · with values := some values })
  | "name" => do
    let name ← Reading.string d
    return ({ · with name := some name })
  | "continuation" => do
    let continuation ← steps ()
    return ({ · with continuation := some continuation })
  | "projection" => do
    let projection ← Projection.read m d
    return ({ · with projection := some projection })
  | _ => do
    let count ← Reading.natural 64 d
    return ({ · with count := some (UInt64.ofNat count) })

end Draft

mutual
def read : Document → Medium → Except DecodeError Step
  | .obj members closed, m => do
    let tag ← Reading.tagAmong m "step" Tag.variants closed none members
    let layout := Reading.Layout.members (pieces members m.keep) true
    (← layout.fill m.keep tag.fields Draft.empty).finish tag
  | .arr (first :: rest) closed, m => do
    let tag ← Reading.tagBefore m "step" Tag.variants closed (first :: rest)
    let layout := Reading.Layout.items (itemPieces rest m.keep) true
    (← layout.fill m.keep tag.fields Draft.empty).finish tag
  | .arr [] closed, m => do
    let _ ← Reading.tagBefore m "step" Tag.variants closed []
    throw (.missingField "step")
  | d, _ => .error (d.refuse "a step")
termination_by structural d => d
def readSequence : Document → Medium → Except DecodeError (List Step)
  | .arr items closed, m => do
    let steps ← readItems items m
    Reading.checkClosed closed
    return steps
  | d, _ => .error (d.refuse "a sequence")
termination_by structural d => d
def readItems : List Document → Medium → Except DecodeError (List Step)
  | [], _ => .ok []
  | item :: rest, m => do
    let step ← read item m
    let steps ← readItems rest m
    return step :: steps
termination_by structural items => items
def pieces : List (String × Document) → Medium → List (String × Reading.Piece Draft)
  | [], _ => []
  | (key, d) :: rest, m =>
    (key, ⟨d, Draft.fill m d (fun _ => readSequence d m)⟩) :: pieces rest m
termination_by structural members => members
def itemPieces : List Document → Medium → List (Reading.Piece Draft)
  | [], _ => []
  | d :: rest, m => ⟨d, Draft.fill m d (fun _ => readSequence d m)⟩ :: itemPieces rest m
termination_by structural items => items
end

instance : WireForm Step := ⟨toJson, fun m d => read d m⟩

instance : WireForm (List Step) := ⟨sequenceToJson, fun m d => readSequence d m⟩

end Step

end PropertyGraph
