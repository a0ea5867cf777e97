import PropertyGraph.Json.Document
import PropertyGraph.Json.Printer
import PropertyGraph.Text.Quoted

/-!
# Reading typed values from documents

A record is an object whose members name its fields, or an array with the fields in order. A variant
is told by its name alone, by a single member, by a tag member among the fields, or by a tag beside
the content. Members are read in the order written, so the first fault decides; what is missing is
told after that, in the order of declaration.

A piece that stands behind a tag may have to be kept until the tag is known. Kept pieces are read a
little more leniently, and a piece read directly from a text reports a misplaced bracket as a fault of
the text. `Medium` says in which of these ways a piece is read.
-/

namespace PropertyGraph

/-- What stands where something else is expected. -/
inductive Found where
  | null
  | bool (value : Bool)
  | int (value : Int)
  | float (value : Binary64)
  | str (value : String)
  | sequence
  | map
  | unitVariant
deriving DecidableEq, Repr

namespace Found

def text : Found → String
  | null => "null"
  | bool b => "boolean `" ++ (if b then "true" else "false") ++ "`"
  | int i => "integer `" ++ toString i ++ "`"
  | float x => "floating point `" ++ x.toText ++ "`"
  | str s => "string " ++ Text.quoted s
  | sequence => "sequence"
  | map => "map"
  | unitVariant => "unit variant"

end Found

inductive DecodeError where
  | malformed
  | missingField (name : String)
  | duplicateField (name : String)
  | unknownVariant (name : String)
  | wrongType (found : Found) (expected : String)
  | wrongValue (found : Found) (expected : String)
  | wrongLength (length : Nat)
  /-- An element identifier is a 64-bit integer or a string. -/
  | noIdentifier
  | badRequestId
  /-- A traversal refers to a name that no enclosing bind gives. -/
  | unbound (name : String)
deriving DecidableEq, Repr

namespace DecodeError

/-- The message without what was expected instead. -/
def summary : DecodeError → String
  | malformed => "Syntax"
  | missingField name => "missing field `" ++ name ++ "`"
  | duplicateField name => "duplicate field `" ++ name ++ "`"
  | unknownVariant name => "unknown variant `" ++ name ++ "`"
  | wrongType found _ => "invalid type: " ++ found.text
  | wrongValue found _ => "invalid value: " ++ found.text
  | wrongLength n => "invalid length " ++ toString n
  | noIdentifier => "data did not match any variant of untagged enum ElementId"
  | badRequestId => "UUID parsing failed"
  | unbound name => "Unbound reference '" ++ name ++ "'"

def message : DecodeError → String
  | wrongType found expected => (wrongType found expected).summary ++ ", expected " ++ expected
  | wrongValue found expected => (wrongValue found expected).summary ++ ", expected " ++ expected
  | error => error.summary

end DecodeError

/-- Where a piece of a document comes from. -/
structure Medium where
  /-- It belongs to a text, where members may repeat and stand in any order. -/
  fromText : Bool
  /-- It was kept until its tag was known. -/
  kept : Bool
deriving DecidableEq, Repr

namespace Medium

/-- A value that was complete before it is read. -/
def value : Medium := ⟨false, false⟩

/-- A text read from left to right. -/
def text : Medium := ⟨true, false⟩

def streaming (m : Medium) : Bool := m.fromText && !m.kept

def keep (m : Medium) : Medium := { m with kept := true }

end Medium

namespace Document

def found? : Document → Option Found
  | null => some .null
  | bool b => some (.bool b)
  | int i => some (.int i)
  | float x => some (.float x)
  | str s => some (.str s)
  | arr _ _ => some .sequence
  | obj _ _ => some .map
  | valueless => none
  | broken => none

def refuse (expected : String) (d : Document) : DecodeError :=
  match d.found? with
  | some found => .wrongType found expected
  | none => .malformed

/-- A piece that is kept has to have a value. -/
def checkKept (d : Document) : Except DecodeError Unit :=
  if d.verbatim?.isSome then .ok () else .error .malformed

/-- A piece that nobody asks for is skipped. -/
def checkSkipped (m : Medium) (d : Document) : Except DecodeError Unit :=
  if m.streaming && !d.skippable then .error .malformed else .ok ()

end Document

namespace Reading

open Document (refuse)

/-- A free value. -/
def free (m : Medium) (d : Document) : Except DecodeError Json :=
  match if m.fromText then d.toJson? else d.verbatim? with
  | some j => .ok j
  | none => .error .malformed

def string : Document → Except DecodeError String
  | .str s => .ok s
  | d => .error (d.refuse "a string")

def boolean : Document → Except DecodeError Bool
  | .bool b => .ok b
  | d => .error (d.refuse "a boolean")

def integer (type : Text.IntegerType) : Document → Except DecodeError Int
  | .int i => if type.contains i then .ok i else .error (.wrongValue (.int i) type.name)
  | d => .error (d.refuse type.name)

def natural (bits : Nat) (d : Document) : Except DecodeError Nat :=
  (integer ⟨false, bits⟩ d).map Int.toNat

def number : Document → Except DecodeError Binary64
  | .int i => .ok (Binary64.ofInt i)
  | .float x => .ok x
  | d => .error (d.refuse "f64")

/-- Null stands for an absent value. -/
def optional (read : Document → Except DecodeError α) : Document → Except DecodeError (Option α)
  | .null => .ok none
  | d => (read d).map some

/-- An array or object of a text that breaks off before its end. -/
def checkClosed (closed : Bool) : Except DecodeError Unit :=
  if closed then .ok () else .error .malformed

def list (read : Document → Except DecodeError α) : Document → Except DecodeError (List α)
  | .arr items closed => do
    let values ← items.mapM read
    checkClosed closed
    return values
  | d => .error (d.refuse "a sequence")

/-! ### Records -/

structure Field where
  name : String
  optional : Bool
deriving Repr, DecidableEq

def required (name : String) : Field := ⟨name, false⟩
def defaulted (name : String) : Field := ⟨name, true⟩

/-- A piece of a record with its reading as the field of a given name. The reading sets the field in
the record that is being filled. -/
structure Piece (σ : Type) where
  document : Document
  fill : String → Except DecodeError (σ → σ)

/-- Fills a record from members, each field at most once. -/
def fillMembers (m : Medium) (fields : List Field) :
    List String → List (String × Piece σ) → σ → Except DecodeError σ
  | _, [], record => .ok record
  | seen, (key, piece) :: rest, record =>
    if fields.any (·.name == key) then
      if seen.contains key then .error (.duplicateField key)
      else do
        let set ← piece.fill key
        fillMembers m fields (key :: seen) rest (set record)
    else do
      piece.document.checkSkipped m
      fillMembers m fields seen rest record

/-- Fills a record from the items of an array, by position. -/
def fillItems (m : Medium) (closed : Bool) (total : Nat) :
    Nat → List Field → List (Piece σ) → σ → Except DecodeError σ
  | _, [], [], record => do
    checkClosed closed
    return record
  | _, [], _ :: _, _ => .error (if m.streaming then .malformed else .wrongLength total)
  | position, field :: fields, [], record => do
    checkClosed closed
    if field.optional then fillItems m closed total (position + 1) fields [] record
    else .error (.wrongLength position)
  | position, field :: fields, piece :: pieces, record => do
    let set ← piece.fill field.name
    fillItems m closed total (position + 1) fields pieces (set record)

/-- The pieces of a record, either way it is written. -/
inductive Layout (σ : Type) where
  | members (pieces : List (String × Piece σ)) (closed : Bool)
  | items (pieces : List (Piece σ)) (closed : Bool)

def Layout.fill (m : Medium) (fields : List Field) (empty : σ) :
    Layout σ → Except DecodeError σ
  | .members pieces closed => do
    let record ← fillMembers m fields [] pieces empty
    checkClosed closed
    return record
  | .items pieces closed => fillItems m closed pieces.length 0 fields pieces empty

def need (name : String) : Option α → Except DecodeError α
  | some a => .ok a
  | none => .error (.missingField name)

/-- Reads a record whose fields hold no records of the same type. -/
def record (m : Medium) (expected : String) (fields : List Field) (empty : σ)
    (read : String → Document → Except DecodeError (σ → σ)) (d : Document) :
    Except DecodeError σ :=
  let piece (d : Document) : Piece σ := ⟨d, fun name => read name d⟩
  match d with
  | .obj members closed =>
    (Layout.members (members.map fun (key, d) => (key, piece d)) closed).fill m fields empty
  | .arr items closed => (Layout.items (items.map piece) closed).fill m fields empty
  | d => .error (d.refuse expected)

/-! ### Variants -/

def variantNamed (variants : List (String × α)) (name : String) : Except DecodeError α :=
  match variants.lookup name with
  | some a => .ok a
  | none => .error (.unknownVariant name)

/-- A variant with its content, if it has one. The last component is the check that follows the
content. -/
def variant (m : Medium) (variants : List (String × α)) :
    Document → Except DecodeError (α × Option Document × Except DecodeError Unit)
  | .str name => do return (← variantNamed variants name, none, .ok ())
  | .obj members closed =>
    if m.streaming then
      match members with
      | [] => .error .malformed
      | (name, content) :: rest => do
        return (← variantNamed variants name, some content, checkClosed (closed && rest.isEmpty))
    else
      match members with
      | [(name, content)] => do return (← variantNamed variants name, some content, .ok ())
      | _ => .error (.wrongValue .map "map with a single key")
  | d => .error (if m.streaming then .malformed else d.refuse "string or map")

/-- A variant without content. Written as a single member it has a null there; a kept piece may have
an empty object instead. -/
def choice (m : Medium) (variants : List (String × α)) (d : Document) : Except DecodeError α := do
  let (a, content, after) ← variant m variants d
  match content with
  | none | some .null => pure ()
  | some (.obj [] true) => if m.kept then pure () else throw (.wrongType .map "unit")
  | some d => throw (d.refuse "unit")
  after
  return a

/-- A tag among the fields. In a kept piece it may be the variant's position. -/
def tag (m : Medium) (variants : List (String × α)) : Document → Except DecodeError α
  | .str name => variantNamed variants name
  | .int i =>
    if m.kept && 0 ≤ i then
      match variants[i.toNat]? with
      | some (_, a) => .ok a
      | none => .error (.wrongValue (.int i) "variant index")
    else .error (.wrongType (.int i) "variant identifier")
  | d => .error (d.refuse "variant identifier")

/-- The tag among members. All other members are kept. -/
def tagAmong (m : Medium) (name : String) (variants : List (String × α)) (closed : Bool) :
    Option α → List (String × Document) → Except DecodeError α
  | seen, [] => do
    checkClosed closed
    need name seen
  | seen, (key, d) :: rest =>
    if key = name then
      if seen.isSome then .error (.duplicateField name)
      else do
        let a ← tag m variants d
        tagAmong m name variants closed (some a) rest
    else do
      d.checkKept
      tagAmong m name variants closed seen rest

/-- The tag in front of the items of an array. The items after it are kept. -/
def tagBefore (m : Medium) (name : String) (variants : List (String × α)) (closed : Bool) :
    List Document → Except DecodeError α
  | [] => do
    checkClosed closed
    throw (.missingField name)
  | first :: rest => do
    let a ← tag m variants first
    rest.forM Document.checkKept
    checkClosed closed
    return a

/-- A record whose tag stands among its fields. The fields are kept until the tag is known. -/
def tagged (m : Medium) (expected name : String) (variants : List (String × α))
    (fields : α → List Field) (empty : σ) (read : String → Document → Except DecodeError (σ → σ))
    (d : Document) : Except DecodeError (α × σ) :=
  let piece (d : Document) : Piece σ := ⟨d, fun name => read name d⟩
  match d with
  | .obj members closed => do
    let a ← tagAmong m name variants closed none members
    let layout := Layout.members (members.map fun (key, d) => (key, piece d)) true
    return (a, ← layout.fill m.keep (fields a) empty)
  | .arr items closed => do
    let a ← tagBefore m name variants closed items
    let layout := Layout.items ((items.drop 1).map piece) true
    return (a, ← layout.fill m.keep (fields a) empty)
  | d => .error (d.refuse expected)

/-- A piece of a tagged value with its reading as the content of a variant. -/
structure Content (α β : Type) where
  document : Document
  read : Medium → α → Except DecodeError β

/-- The next member that is the tag or the content, and the members after it. -/
def nextRelevant (m : Medium) (tagName contentName : String) (closed : Bool) :
    List (String × Content α β) →
      Except DecodeError (Option (Bool × Content α β × List (String × Content α β)))
  | [] => do
    checkClosed closed
    return none
  | (key, content) :: rest =>
    if key = tagName then .ok (some (true, content, rest))
    else if key = contentName then .ok (some (false, content, rest))
    else do
      content.document.checkSkipped m
      nextRelevant m tagName contentName closed rest

/-- Neither tag nor content stands a second time. -/
def noneRelevant (m : Medium) (tagName contentName : String) (closed : Bool)
    (members : List (String × Content α β)) : Except DecodeError Unit := do
  match ← nextRelevant m tagName contentName closed members with
  | none => pure ()
  | some (true, _) => throw (.duplicateField tagName)
  | some (false, _) => throw (.duplicateField contentName)

/-- A tag and its content as two members. Content that comes first is kept until the tag is known. -/
def besideMembers (m : Medium) (tagName contentName : String) (variants : List (String × α))
    (closed : Bool) (members : List (String × Content α β)) : Except DecodeError β := do
  match ← nextRelevant m tagName contentName closed members with
  | none => throw (.missingField tagName)
  | some (true, first, rest) =>
    let a ← choice m variants first.document
    match ← nextRelevant m tagName contentName closed rest with
    | none => throw (.missingField contentName)
    | some (true, _) => throw (.duplicateField tagName)
    | some (false, content, rest) =>
      let b ← content.read m a
      noneRelevant m tagName contentName closed rest
      return b
  | some (false, content, rest) =>
    content.document.checkKept
    match ← nextRelevant m tagName contentName closed rest with
    | none => throw (.missingField tagName)
    | some (false, _) => throw (.duplicateField contentName)
    | some (true, first, rest) =>
      let a ← choice m variants first.document
      let b ← content.read m.keep a
      noneRelevant m tagName contentName closed rest
      return b

/-- A tag and its content as the two items of an array. -/
def besideItems (m : Medium) (variants : List (String × α)) (closed : Bool) :
    List (Content α β) → Except DecodeError β
  | [] => do
    checkClosed closed
    throw (.wrongLength 0)
  | [first] => do
    let _ ← choice m variants first.document
    checkClosed closed
    throw (.wrongLength 1)
  | first :: content :: rest => do
    let a ← choice m variants first.document
    let b ← content.read m a
    if rest.isEmpty then
      checkClosed closed
      return b
    else throw (if m.streaming then .malformed else .wrongLength (rest.length + 2))

def ofJson (read : Medium → Document → Except DecodeError α) (value : Json) :
    Except DecodeError α :=
  read .value (Document.ofJson value)

/-- Reads a text that holds one value and blanks. -/
def ofText (read : Medium → Document → Except DecodeError α) (text : String) :
    Except DecodeError α := do
  let (document, complete) := Document.ofText text
  let a ← read .text document
  checkClosed complete
  return a

end Reading

/-! ### Types with a wire form

A value that travels is written in one way. It may be read from more than that, so that what others
write in a different order or layout is understood too. -/

class WireForm (α : Type) where
  toJson : α → Json
  read : Medium → Document → Except DecodeError α

namespace WireForm

/-- Reads a value from its wire form. -/
def ofJson (α : Type) [WireForm α] (value : Json) : Except DecodeError α :=
  Reading.ofJson read value

/-- Reads a value from the text of its wire form. -/
def ofText (α : Type) [WireForm α] (text : String) : Except DecodeError α :=
  Reading.ofText read text

end WireForm

end PropertyGraph
