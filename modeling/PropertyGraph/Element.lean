import PropertyGraph.Json.Reading

/-!
# Elements of a property graph

An element is a vertex or a directed edge between two vertices. It has an identifier assigned by the
engine, a label and properties by name. `RawElement` is an element as the engine returns it.
-/

namespace PropertyGraph

/-- The key under which the identifier of an element travels. -/
def idKey : String := "id"

/-- The key reserved for the label of an element. -/
def labelKey : String := "label"

inductive ElementKind where
  | vertex
  | edge
deriving DecidableEq, Repr, Inhabited

namespace ElementKind

def text : ElementKind → String
  | vertex => "vertex"
  | edge => "edge"

def toJson (kind : ElementKind) : Json := .str kind.text

def read (m : Medium) (d : Document) : Except DecodeError ElementKind :=
  Reading.choice m [("vertex", vertex), ("edge", edge)] d

instance : WireForm ElementKind := ⟨toJson, read⟩

end ElementKind

/-- An identifier assigned by an engine. -/
inductive ElementId where
  | int (value : Int64)
  | str (value : String)
deriving DecidableEq, Repr

namespace ElementId

def text : ElementId → String
  | int i => toString i.toInt
  | str s => s

def toJson : ElementId → Json
  | int i => .int i.toInt
  | str s => .str s

def read (d : Document) : Except DecodeError ElementId := do
  d.checkKept
  match d with
  | .int i =>
    if Text.IntegerType.signed64.contains i then return int (Int64.ofInt i)
    else throw .noIdentifier
  | .str s => return str s
  | _ => throw .noIdentifier

instance : WireForm ElementId := ⟨toJson, fun _ => read⟩

end ElementId

structure Property where
  key : String
  value : Json
deriving Repr

namespace Property

instance : BEq Property := ⟨fun a b => a.key == b.key && a.value == b.value⟩

def toJson (p : Property) : Json := .obj [("key", .str p.key), ("value", p.value)]

structure Draft where
  key : Option String
  value : Option Json

def fields : List Reading.Field := [Reading.required "key", Reading.required "value"]

def read (m : Medium) (d : Document) : Except DecodeError Property := do
  let draft ← Reading.record m "a property" fields (⟨none, none⟩ : Draft)
    (fun name d =>
      if name = "key" then do
        let key ← Reading.string d
        return ({ · with key := some key })
      else do
        let value ← Reading.free m d
        return ({ · with value := some value })) d
  return ⟨← Reading.need "key" draft.key, ← Reading.need "value" draft.value⟩

instance : WireForm Property := ⟨toJson, read⟩

end Property

/-- An element as returned by the engine. Only edges have endpoints. -/
structure RawElement where
  id : ElementId
  label : String
  kind : ElementKind
  properties : Members
  outV : Option ElementId
  inV : Option ElementId
deriving Repr

namespace RawElement

instance : BEq RawElement :=
  ⟨fun a b => a.id == b.id && a.label == b.label && a.kind == b.kind
    && Json.obj a.properties == Json.obj b.properties && a.outV == b.outV && a.inV == b.inV⟩

def property? (e : RawElement) (key : String) : Option Json := e.properties.find? key

/-- A member that is left out when there is no value. -/
def endpointMember (key : String) (id : Option ElementId) : List (String × Json) :=
  (id.map fun id => (key, id.toJson)).toList

def toJson (e : RawElement) : Json :=
  .obj ([("id", e.id.toJson), ("label", .str e.label), ("kind", e.kind.toJson),
    ("properties", .obj e.properties)] ++ endpointMember "outV" e.outV ++ endpointMember "inV" e.inV)

structure Draft where
  id : Option ElementId
  label : Option String
  kind : Option ElementKind
  properties : Members
  outV : Option ElementId
  inV : Option ElementId

def fields : List Reading.Field :=
  [Reading.required "id", Reading.required "label", Reading.required "kind",
    Reading.defaulted "properties", Reading.defaulted "outV", Reading.defaulted "inV"]

/-- Properties are an object of free values. -/
def readProperties (m : Medium) : Document → Except DecodeError Members
  | .obj members closed => do
    match ← Reading.free m (.obj members closed) with
    | .obj members => return members
    | _ => return []
  | d => .error (d.refuse "a map")

def readField (m : Medium) (name : String) (d : Document) : Except DecodeError (Draft → Draft) :=
  match name with
  | "id" => do
    let id ← ElementId.read d
    return ({ · with id := some id })
  | "label" => do
    let label ← Reading.string d
    return ({ · with label := some label })
  | "kind" => do
    let kind ← ElementKind.read m d
    return ({ · with kind := some kind })
  | "properties" => do
    let properties ← readProperties m d
    return ({ · with properties := properties })
  | "outV" => do
    let id ← Reading.optional ElementId.read d
    return ({ · with outV := id })
  | _ => do
    let id ← Reading.optional ElementId.read d
    return ({ · with inV := id })

def read (m : Medium) (d : Document) : Except DecodeError RawElement := do
  let draft ← Reading.record m "an element" fields
    (⟨none, none, none, [], none, none⟩ : Draft) (readField m) d
  return {
    id := ← Reading.need "id" draft.id
    label := ← Reading.need "label" draft.label
    kind := ← Reading.need "kind" draft.kind
    properties := draft.properties
    outV := draft.outV
    inV := draft.inV }

instance : WireForm RawElement := ⟨toJson, read⟩

end RawElement

end PropertyGraph
