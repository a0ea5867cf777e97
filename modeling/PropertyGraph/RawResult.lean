import PropertyGraph.Element

/-!
# Raw results

An engine answers with elements, values and lists of results. On the wire a result carries its type
beside its value.
-/

namespace PropertyGraph

inductive RawResult where
  | element (element : RawElement)
  | value (value : Json)
  | list (items : List RawResult)
deriving Repr, Inhabited

namespace RawResult

/-- The three types of result, as the wire names them. -/
inductive Tag where
  | element
  | value
  | list
deriving DecidableEq, Repr

def Tag.text : Tag → String
  | element => "element"
  | value => "value"
  | list => "list"

def tag : RawResult → Tag
  | element _ => .element
  | value _ => .value
  | list _ => .list

mutual
def beq : RawResult → RawResult → Bool
  | element a, element b => a == b
  | value a, value b => a == b
  | list as, list bs => beqItems as bs
  | _, _ => false
termination_by structural a => a
def beqItems : List RawResult → List RawResult → Bool
  | [], [] => true
  | a :: as, b :: bs => beq a b && beqItems as bs
  | _, _ => false
termination_by structural a => a
end

instance : BEq RawResult := ⟨beq⟩

mutual
def toJson : RawResult → Json
  | element e => .obj [("type", .str "element"), ("value", e.toJson)]
  | value v => .obj [("type", .str "value"), ("value", v)]
  | list items => .obj [("type", .str "list"), ("value", .arr (itemsToJson items))]
termination_by structural r => r
def itemsToJson : List RawResult → List Json
  | [] => []
  | item :: rest => toJson item :: itemsToJson rest
termination_by structural items => items
end

mutual
/-- The plain value of a result, elements included. -/
def plain : RawResult → Json
  | element e =>
    match e.toJson with
    | .obj members => .obj (Members.ofList members)
    | other => other
  | value v => v
  | list items => .arr (plainItems items)
termination_by structural r => r
def plainItems : List RawResult → List Json
  | [] => []
  | item :: rest => plain item :: plainItems rest
termination_by structural items => items
end

def tags : List (String × Tag) := [("element", .element), ("value", .value), ("list", .list)]

mutual
def read : Document → Medium → Except DecodeError RawResult
  | .obj members closed, m => Reading.besideMembers m "type" "value" tags closed (contents members)
  | .arr items closed, m => Reading.besideItems m tags closed (itemContents items)
  | d, _ => .error (d.refuse "a result")
termination_by structural d => d
/-- A piece as the content of a result of each type. -/
def readContent : Document → Medium → Tag → Except DecodeError RawResult
  | d, m, .element => (RawElement.read m d).map element
  | d, m, .value => (Reading.free m d).map value
  | .arr items closed, m, .list => do
    let items ← readItems items m
    Reading.checkClosed closed
    return list items
  | d, _, .list => .error (d.refuse "a sequence")
termination_by structural d => d
def readItems : List Document → Medium → Except DecodeError (List RawResult)
  | [], _ => .ok []
  | item :: rest, m => do
    let item ← read item m
    let rest ← readItems rest m
    return item :: rest
termination_by structural items => items
def contents :
    List (String × Document) → List (String × Reading.Content Tag RawResult)
  | [] => []
  | (key, d) :: rest => (key, ⟨d, fun m tag => readContent d m tag⟩) :: contents rest
termination_by structural members => members
def itemContents : List Document → List (Reading.Content Tag RawResult)
  | [] => []
  | d :: rest => ⟨d, fun m tag => readContent d m tag⟩ :: itemContents rest
termination_by structural items => items
end

instance : WireForm RawResult := ⟨toJson, fun m d => read d m⟩

end RawResult

end PropertyGraph
