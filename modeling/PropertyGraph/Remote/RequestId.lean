import PropertyGraph.Json.Reading

/-!
# Request identifiers

A request is identified by 32 hexadecimal digits. They are written in five groups with hyphens between
them, and are also read without hyphens, within braces or behind `urn:uuid:`.
-/

namespace PropertyGraph

structure RequestId where
  digits : List (Fin 16)
  length_eq : digits.length = 32
deriving DecidableEq, Repr

namespace RequestId

def digitText (d : Fin 16) : Char := Nat.digitChar d

def digit? (c : Char) : Option (Fin 16) :=
  if '0' ≤ c ∧ c ≤ '9' then some (Fin.ofNat 16 (c.toNat - '0'.toNat))
  else if 'a' ≤ c ∧ c ≤ 'f' then some (Fin.ofNat 16 (c.toNat - 'a'.toNat + 10))
  else if 'A' ≤ c ∧ c ≤ 'F' then some (Fin.ofNat 16 (c.toNat - 'A'.toNat + 10))
  else none

/-- The characters of the groups but the last, each with a hyphen after it, and of the last. -/
def hyphenated : List Nat → List Char → List Char
  | [], cs => cs
  | size :: sizes, cs => cs.take size ++ '-' :: hyphenated sizes (cs.drop size)

/-- The sizes of the groups before the last one. -/
def groups : List Nat := [8, 4, 4, 4]

def text (id : RequestId) : String :=
  String.ofList (hyphenated groups (id.digits.map digitText))

/-- Takes the hyphens out, which have to stand between the groups. -/
def joined? : List Nat → List Char → Option (List Char)
  | [], cs => some cs
  | size :: sizes, cs =>
    match cs.drop size with
    | '-' :: rest => (joined? sizes rest).map (cs.take size ++ ·)
    | _ => none

def ofDigits? (cs : List Char) : Option RequestId :=
  (cs.mapM digit?).bind fun digits =>
    if h : digits.length = 32 then some ⟨digits, h⟩ else none

/-- Takes off the braces or the words around an identifier with hyphens. -/
def unwrapped (cs : List Char) : List Char :=
  let urn := ['u', 'r', 'n', ':', 'u', 'u', 'i', 'd', ':']
  if cs.length = 38 ∧ cs.head? = some '\x7b' ∧ cs.getLast? = some '\x7d' then
    (cs.drop 1).dropLast
  else if cs.length = 45 ∧ urn.isPrefixOf cs then cs.drop urn.length
  else cs

def ofText? (text : String) : Option RequestId :=
  let cs := text.toList
  if cs.length = 32 then ofDigits? cs
  else (joined? groups (unwrapped cs)).bind ofDigits?

def toJson (id : RequestId) : Json := .str id.text

def read : Document → Except DecodeError RequestId
  | .str s =>
    match ofText? s with
    | some id => .ok id
    | none => .error .badRequestId
  | d => .error (d.refuse "a request identifier")

end RequestId

end PropertyGraph
