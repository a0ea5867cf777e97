import PropertyGraph.RawResult
import PropertyGraph.Shape
import PropertyGraph.Text.Case

/-!
# Decoded results

Raw results are decoded by the declared type of the traversal. An element of another label than the
declared one is left out, or is an error under strict projection; whatever else does not fit is an error
in any case. Nothing is decoded after the first error of a list.
-/

namespace PropertyGraph

/-- What happens to elements of another label. -/
inductive ProjectionMode where
  | exclude
  | strict
deriving DecidableEq, Repr

namespace ProjectionMode

def text : ProjectionMode → String
  | exclude => "exclude"
  | strict => "strict"

def toJson (mode : ProjectionMode) : Json := .str mode.text

def variants : List (String × ProjectionMode) := [("exclude", exclude), ("strict", strict)]

def read (m : Medium) (d : Document) : Except DecodeError ProjectionMode :=
  Reading.choice m variants d

/-- Reads a mode from text in any case. -/
def ofText (text : String) : Except String ProjectionMode :=
  let name := Text.toLower text
  match variants.lookup name with
  | some mode => .ok mode
  | none => .error s!"unknown projection mode '{name}'"

instance : WireForm ProjectionMode := ⟨toJson, read⟩

end ProjectionMode

inductive Output where
  /-- A plain value, or the serialised form of a value of a domain type. -/
  | value (value : Json)
  | element (element : RawElement)
  /-- The result of a traversal that has selected nothing. -/
  | raw (result : RawResult)
  | list (items : List Output)
deriving Repr

namespace Output

mutual
def toJson : Output → Json
  | value v => v
  | element e => e.toJson
  | raw r => r.toJson
  | list items => .arr (allToJson items)
termination_by structural o => o
def allToJson : List Output → List Json
  | [] => []
  | item :: rest => toJson item :: allToJson rest
termination_by structural items => items
end

end Output

namespace RawResult

def decodingError (reason : String) : Except TraversalError α := .error (.decoding reason)

def expectElement : RawResult → Except TraversalError RawElement
  | element e => .ok e
  | other => decodingError s!"expected an element, found {other.tag.text}"

/-- The members of the value of an element: its properties and its identifier. -/
def valueMembers (e : RawElement) : Members := e.properties.insert idKey e.id.toJson

/-- A value of a domain type, none where the element is left out. -/
def decodeElement (model : GraphModel) (mode : ProjectionMode) (type : ElementType)
    (r : RawResult) : Except TraversalError (Option Output) := do
  let e ← r.expectElement
  match model.labelOf type with
  | .error error => throw (.schema error)
  | .ok expected =>
    if e.kind ≠ expected.kind ∨ e.label ≠ expected.label then
      match mode with
      | .exclude => return none
      | .strict => throw (.typeFilterMismatch expected.label e.label)
    else
      match type.read .value (Document.ofJson (.obj (valueMembers e))) with
      | .ok v => return some (.value v)
      | .error error => decodingError s!"cannot decode '{expected.label}': {error.message}"

/-- An element of a kind, whatever its label. -/
def decodeAny (kind : ElementKind) (r : RawResult) : Except TraversalError RawElement := do
  let e ← r.expectElement
  if e.kind = kind then return e
  else decodingError s!"expected a {kind.text}, found {e.kind.text} '{e.label}'"

def decodeValue (type : ValueType) (r : RawResult) : Except TraversalError Json :=
  match type.read .value (Document.ofJson r.plain) with
  | .ok v => .ok v
  | .error error => decodingError error.message

def expectList : RawResult → Except TraversalError (List RawResult)
  | list items => .ok items
  | other => decodingError s!"expected a list, found {other.tag.text}"

/-- A raw result as a result of a type, none where it is left out. -/
def decode (model : GraphModel) (mode : ProjectionMode) :
    ResultType → RawResult → Except TraversalError (Option Output)
  | .start, r => .ok (some (.raw r))
  | .anyVertex, r => (r.decodeAny .vertex).map fun e => some (.element e)
  | .anyEdge, r => (r.decodeAny .edge).map fun e => some (.element e)
  | .element type, r => r.decodeElement model mode type
  | .value type, r => (r.decodeValue type).map fun v => some (.value v)
  | .folded inner, r => do
    let items ← r.expectList
    let outputs ← items.mapM (decode model mode inner)
    return some (.list (outputs.filterMap id))

end RawResult

end PropertyGraph
