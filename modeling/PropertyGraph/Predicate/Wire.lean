import PropertyGraph.Predicate.Basic
import PropertyGraph.Json.Reading

/-!
# Wire form of predicates

A predicate carries its operator among its members, a test stands beside its operand, and an operand
is a single member that says whether it is a constant or a reference. A reference travels by name.
-/

namespace PropertyGraph

/-- A reference to a bound value by its name. -/
abbrev BoundName := String

namespace BoundName

def toJson (name : BoundName) : Json := .obj [("name", .str name)]

def read (m : Medium) (d : Document) : Except DecodeError BoundName := do
  let name ← Reading.record m "a reference" [Reading.required "name"] (none : Option String)
    (fun _ d => do
      let name ← Reading.string d
      return fun _ => some name) d
  Reading.need "name" name

end BoundName

namespace Operand

def toJson : Operand BoundName → Json
  | constant v => .obj [("constant", v)]
  | bound r => .obj [("bound", r.toJson)]

def variants : List (String × Bool) := [("constant", true), ("bound", false)]

def read (m : Medium) (d : Document) : Except DecodeError (Operand BoundName) := do
  let (isConstant, content, after) ← Reading.variant m variants d
  match content with
  | none => throw (.wrongType .unitVariant "newtype variant")
  | some d =>
    let operand ← if isConstant then (Reading.free m d).map constant
      else (BoundName.read m d).map bound
    after
    return operand

instance : WireForm (Operand BoundName) := ⟨toJson, read⟩

end Operand

namespace Comparison

def text : Comparison → String
  | eq => "eq"
  | neq => "neq"
  | lt => "lt"
  | lte => "lte"
  | gt => "gt"
  | gte => "gte"
  | within => "within"
  | without => "without"

def variants : List (String × Comparison) :=
  [eq, neq, lt, lte, gt, gte, within, without].map fun c => (c.text, c)

end Comparison

namespace Test

def toJson (test : Test BoundName) : Json :=
  .obj [("test", .str test.comparison.text), ("operand", test.operand.toJson)]

def content (d : Document) : Reading.Content Comparison (Test BoundName) :=
  ⟨d, fun m comparison => (Operand.read m d).map (⟨comparison, ·⟩)⟩

def read (m : Medium) : Document → Except DecodeError (Test BoundName)
  | .obj members closed =>
    Reading.besideMembers m "test" "operand" Comparison.variants closed
      (members.map fun (key, d) => (key, content d))
  | .arr items closed => Reading.besideItems m Comparison.variants closed (items.map content)
  | d => .error (d.refuse "a test")

instance : WireForm (Test BoundName) := ⟨toJson, read⟩

end Test

namespace Predicate

mutual
def toJson : Predicate BoundName → Json
  | has key test => .obj [("op", .str "has"), ("key", .str key), ("test", test.toJson)]
  | is test => .obj [("op", .str "is"), ("test", test.toJson)]
  | conj operands => .obj [("op", .str "and"), ("operands", .arr (allToJson operands))]
  | disj operands => .obj [("op", .str "or"), ("operands", .arr (allToJson operands))]
  | neg operand => .obj [("op", .str "not"), ("operand", toJson operand)]
termination_by structural p => p
def allToJson : List (Predicate BoundName) → List Json
  | [] => []
  | p :: rest => toJson p :: allToJson rest
termination_by structural ps => ps
end

inductive Operator where
  | has
  | is
  | and
  | or
  | not
deriving DecidableEq, Repr

namespace Operator

def variants : List (String × Operator) :=
  [("has", has), ("is", is), ("and", and), ("or", or), ("not", not)]

def fields : Operator → List Reading.Field
  | has => [Reading.required "key", Reading.required "test"]
  | is => [Reading.required "test"]
  | and => [Reading.required "operands"]
  | or => [Reading.required "operands"]
  | not => [Reading.required "operand"]

end Operator

structure Draft where
  key : Option String
  test : Option (Test BoundName)
  operands : Option (List (Predicate BoundName))
  operand : Option (Predicate BoundName)

namespace Draft

def empty : Draft := ⟨none, none, none, none⟩

def finish (draft : Draft) : Operator → Except DecodeError (Predicate BoundName)
  | .has => return .has (← Reading.need "key" draft.key) (← Reading.need "test" draft.test)
  | .is => return .is (← Reading.need "test" draft.test)
  | .and => return .conj (← Reading.need "operands" draft.operands)
  | .or => return .disj (← Reading.need "operands" draft.operands)
  | .not => return .neg (← Reading.need "operand" draft.operand)

/-- Reads a piece as a field, given its readings as one and as several predicates. -/
def fill (m : Medium) (d : Document) (one : Unit → Except DecodeError (Predicate BoundName))
    (several : Unit → Except DecodeError (List (Predicate BoundName))) (name : String) :
    Except DecodeError (Draft → Draft) :=
  match name with
  | "key" => do
    let key ← Reading.string d
    return ({ · with key := some key })
  | "test" => do
    let test ← Test.read m d
    return ({ · with test := some test })
  | "operands" => do
    let operands ← several ()
    return ({ · with operands := some operands })
  | _ => do
    let operand ← one ()
    return ({ · with operand := some operand })

end Draft

mutual
def read : Document → Medium → Except DecodeError (Predicate BoundName)
  | .obj members closed, m => do
    let operator ← Reading.tagAmong m "op" Operator.variants closed none members
    let layout := Reading.Layout.members (pieces members m.keep) true
    (← layout.fill m.keep operator.fields Draft.empty).finish operator
  | .arr (first :: rest) closed, m => do
    let operator ← Reading.tagBefore m "op" Operator.variants closed (first :: rest)
    let layout := Reading.Layout.items (itemPieces rest m.keep) true
    (← layout.fill m.keep operator.fields Draft.empty).finish operator
  | .arr [] closed, m => do
    let _ ← Reading.tagBefore m "op" Operator.variants closed []
    throw (.missingField "op")
  | d, _ => .error (d.refuse "a predicate")
termination_by structural d => d
def readAll : Document → Medium → Except DecodeError (List (Predicate BoundName))
  | .arr items closed, m => do
    let operands ← readItems items m
    Reading.checkClosed closed
    return operands
  | d, _ => .error (d.refuse "a sequence")
termination_by structural d => d
def readItems : List Document → Medium → Except DecodeError (List (Predicate BoundName))
  | [], _ => .ok []
  | item :: rest, m => do
    let p ← read item m
    let ps ← readItems rest m
    return p :: ps
termination_by structural items => items
def pieces : List (String × Document) → Medium → List (String × Reading.Piece Draft)
  | [], _ => []
  | (key, d) :: rest, m =>
    (key, ⟨d, Draft.fill m d (fun _ => read d m) (fun _ => readAll d m)⟩) :: pieces rest m
termination_by structural members => members
def itemPieces : List Document → Medium → List (Reading.Piece Draft)
  | [], _ => []
  | d :: rest, m =>
    ⟨d, Draft.fill m d (fun _ => read d m) (fun _ => readAll d m)⟩ :: itemPieces rest m
termination_by structural items => items
end

instance : WireForm (Predicate BoundName) := ⟨toJson, fun m d => read d m⟩

end Predicate

end PropertyGraph
