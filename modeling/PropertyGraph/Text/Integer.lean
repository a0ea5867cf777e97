/-!
# Integers in text

An integer is written as decimal digits after an optional sign. What is out of range is told apart
from what is no number.
-/

namespace PropertyGraph.Text

inductive IntegerFault where
  | empty
  | invalidDigit
  | tooLarge
  | tooSmall
deriving DecidableEq, Repr

def IntegerFault.message : IntegerFault → String
  | empty => "cannot parse integer from empty string"
  | invalidDigit => "invalid digit found in string"
  | tooLarge => "number too large to fit in target type"
  | tooSmall => "number too small to fit in target type"

structure IntegerType where
  signed : Bool
  bits : Nat
deriving DecidableEq, Repr

namespace IntegerType

/-- The number of values that are not negative. -/
def span (type : IntegerType) : Nat := Nat.pow 2 (if type.signed then type.bits - 1 else type.bits)

def min (type : IntegerType) : Int := if type.signed then -(type.span : Int) else 0

def max (type : IntegerType) : Int := (type.span : Int) - 1

def contains (type : IntegerType) (i : Int) : Bool := type.min ≤ i && i ≤ type.max

def name (type : IntegerType) : String := (if type.signed then "i" else "u") ++ toString type.bits

/-- Adds digits one by one and stops at the first fault. -/
def digits (type : IntegerType) (negative : Bool) : Int → List Char → Except IntegerFault Int
  | value, [] => .ok value
  | value, c :: rest =>
    if c.isDigit then
      let digit : Int := (c.toNat - '0'.toNat : Nat)
      let next := if negative then value * 10 - digit else value * 10 + digit
      if next < type.min then
        -- a fault later in the text does not matter any more
        .error .tooSmall
      else if type.max < next then .error .tooLarge
      else digits type negative next rest
    else .error .invalidDigit

/-- Reads an integer. Only signed types have negative numbers, so elsewhere a minus is no digit. -/
def parse (type : IntegerType) (text : String) : Except IntegerFault Int :=
  match text.toList with
  | [] => .error .empty
  | ['+'] | ['-'] => .error .invalidDigit
  | '+' :: rest => type.digits false 0 rest
  | '-' :: rest => if type.signed then type.digits true 0 rest else .error .invalidDigit
  | cs => type.digits false 0 cs

def signed64 : IntegerType := ⟨true, 64⟩
def unsigned64 : IntegerType := ⟨false, 64⟩

end IntegerType

end PropertyGraph.Text
