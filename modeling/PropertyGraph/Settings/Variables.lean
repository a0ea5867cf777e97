import PropertyGraph.Error
import PropertyGraph.Text.Case

/-!
# Environment variables

Settings can be taken from variables whose names share a beginning. A value that is not text is an
error wherever it is asked for, and a value that is read as something else may stand between blanks.
-/

namespace PropertyGraph

inductive VariableValue where
  | text (value : String)
  | bytes
deriving DecidableEq, Repr

/-- The value that bytes stand for. -/
def VariableValue.ofBytes (data : ByteArray) : VariableValue :=
  match String.fromUTF8? data with
  | some value => text value
  | none => bytes

abbrev Variables := List (String × VariableValue)

namespace Variables

def key (start name : String) : String := start ++ Text.toUpper name

/-- The text of a variable, none where it is not set. -/
def text? (vars : Variables) (key : String) : Except TraversalError (Option String) :=
  match List.lookup key vars with
  | none => .ok none
  | some (.text value) => .ok (some value)
  | some .bytes => .error (.configuration s!"Environment variable {key} contains invalid UTF-8")

/-- The value of a variable that is read from its text. -/
def value? (vars : Variables) (key : String) (parse : String → Except String α) :
    Except TraversalError (Option α) := do
  match ← vars.text? key with
  | none => return none
  | some text =>
    match parse (Text.trim text) with
    | .ok value => return some value
    | .error reason =>
      throw (.configuration s!"Failed to parse environment variable {key}: {reason}")

end Variables

/-- Reads one of the two truth values. -/
def parseBool : String → Except String Bool
  | "true" => .ok true
  | "false" => .ok false
  | _ => .error "provided string was not \x60true\x60 or \x60false\x60"

/-- Reads an integer of a type. -/
def parseInteger (type : Text.IntegerType) (text : String) : Except String Int :=
  (type.parse text).mapError Text.IntegerFault.message

/-- Reads a natural number of a number of bits. -/
def parseNatural (bits : Nat) (text : String) : Except String Nat :=
  (parseInteger ⟨false, bits⟩ text).map Int.toNat

end PropertyGraph
