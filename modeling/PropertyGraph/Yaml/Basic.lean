/-!
# Trees of settings documents

A document is a tree of scalars, sequences and mappings. Only plain scalars can be numbers; any scalar
can be text. A record is a mapping whose keys are scalars, and the empty plain scalar is the empty
record.
-/

namespace PropertyGraph

inductive Yaml where
  | scalar (text : String) (plain : Bool)
  | sequence (items : List Yaml)
  | mapping (entries : List (Yaml × Yaml))
deriving Repr, Inhabited

namespace Yaml

def empty : Yaml := scalar "" true

def text? : Yaml → Option String
  | scalar text _ => some text
  | _ => none

def choice? (variants : List (String × α)) (node : Yaml) : Option α :=
  node.text?.bind fun text => variants.lookup text

def digitValue? (base : Nat) (c : Char) : Option Nat :=
  let value :=
    if c.isDigit then some (c.toNat - '0'.toNat)
    else if 'a' ≤ c ∧ c ≤ 'f' then some (c.toNat - 'a'.toNat + 10)
    else if 'A' ≤ c ∧ c ≤ 'F' then some (c.toNat - 'A'.toNat + 10)
    else none
  value.filter (· < base)

/-- The number that digits stand for. There is at least one, and the number has to fit. -/
def digits? (base bits : Nat) (cs : List Char) : Option Nat := do
  if cs.isEmpty then none
  let digits ← cs.mapM (digitValue? base)
  let value := digits.foldl (fun n d => n * base + d) 0
  if value < Nat.pow 2 bits then some value else none

/-- A number in one of four bases. A decimal number with a leading zero is text. -/
def numberOf? (bits : Nat) (cs : List Char) : Option Nat :=
  match cs with
  | '0' :: 'x' :: rest => digits? 16 bits rest
  | '0' :: 'o' :: rest => digits? 8 bits rest
  | '0' :: 'b' :: rest => digits? 2 bits rest
  | '0' :: _ :: _ => none
  | cs => digits? 10 bits cs

/-- A natural number of a number of bits, after an optional plus sign. -/
def natural? (bits : Nat) : Yaml → Option Nat
  | scalar text true =>
    match text.toList with
    | '+' :: rest => numberOf? bits rest
    | cs => numberOf? bits cs
  | _ => none

def fields? : Yaml → Option (List (String × Yaml))
  | scalar "" true => some []
  | mapping entries => entries.mapM fun (key, value) => key.text?.map (·, value)
  | _ => none

/-- Sets the known fields of a record in turn, each at most once. Other fields are ignored. -/
def fillFrom? (known : List String) (set : String → Yaml → σ → Option σ) :
    List String → List (String × Yaml) → σ → Option σ
  | _, [], record => some record
  | seen, (name, value) :: rest, record =>
    if known.contains name then
      if seen.contains name then none
      else (set name value record).bind (fillFrom? known set (name :: seen) rest)
    else fillFrom? known set seen rest record

def record? (known : List String) (set : String → Yaml → σ → Option σ) (record : σ)
    (node : Yaml) : Option σ :=
  node.fields?.bind fun fields => fillFrom? known set [] fields record

end Yaml

end PropertyGraph
