import PropertyGraph.Number.Binary64
import PropertyGraph.Text.Integer

/-!
# JSON values

Whole numbers are kept apart from floating point numbers, so `1` and `1.0` are two values that are
equal only where numbers are compared as numbers. An object is a list of members; free values are
held with their keys in ascending order, each key once, which is what `Members.insert` keeps.
-/

namespace PropertyGraph

inductive Json where
  | null
  | bool (value : Bool)
  | int (value : Int)
  | float (value : Binary64)
  | str (value : String)
  | arr (items : List Json)
  | obj (members : List (String × Json))
deriving Repr, Inhabited

/-- Members of an object, by ascending key. -/
abbrev Members := List (String × Json)

namespace Members

/-- Sets the value of a key, at the key's place in the order. -/
def insert (key : String) (value : Json) : Members → Members
  | [] => [(key, value)]
  | (k, v) :: rest =>
    if key < k then (key, value) :: (k, v) :: rest
    else if key = k then (key, value) :: rest
    else (k, v) :: insert key value rest

def find? (key : String) (members : Members) : Option Json := List.lookup key members

def erase (key : String) (members : Members) : Members := List.filter (·.1 != key) members

def keys (members : Members) : List String := List.map (·.1) members

/-- Sets every member in turn, so that the last value of a repeated key stays. -/
def insertAll (members : Members) (added : List (String × Json)) : Members :=
  added.foldl (fun acc member => insert member.1 member.2 acc) members

/-- The members in ascending order of keys, the last value of each key. -/
def ofList (members : List (String × Json)) : Members := insertAll [] members

end Members

namespace Json

mutual
/-- Equality of values. Whole and floating point numbers differ even where they agree as numbers;
the two floating point zeros are equal. -/
def beq : Json → Json → Bool
  | null, null => true
  | bool a, bool b => a == b
  | int a, int b => a == b
  | float a, float b => a.sameValue b
  | str a, str b => a == b
  | arr as, arr bs => beqItems as bs
  | obj as, obj bs => beqMembers as bs
  | _, _ => false
termination_by structural a => a
def beqItems : List Json → List Json → Bool
  | [], [] => true
  | a :: as, b :: bs => beq a b && beqItems as bs
  | _, _ => false
termination_by structural a => a
def beqMembers : List (String × Json) → List (String × Json) → Bool
  | [], [] => true
  | (k, a) :: as, (l, b) :: bs => k == l && beq a b && beqMembers as bs
  | _, _ => false
termination_by structural a => a
end

instance : BEq Json := ⟨beq⟩

def toBinary64? : Json → Option Binary64
  | int i => some (Binary64.ofInt i)
  | float x => some x
  | _ => none

def toInt64? : Json → Option Int
  | int i => if Text.IntegerType.signed64.contains i then some i else none
  | _ => none

def member? (key : String) : Json → Option Json
  | obj members => Members.find? key members
  | _ => none

def toStr? : Json → Option String
  | str s => some s
  | _ => none

end Json

end PropertyGraph
