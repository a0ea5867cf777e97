import PropertyGraph.Json.Basic

/-!
# JSON texts as written

`Document.ofText` reads any text from left to right and keeps what typed readers can see of it:
members in the order written with repetitions, and the place where the text stops being JSON. A
reader that meets an earlier fault of its own reports that one, so the first fault decides. `toJson?`
is the value of a text without fault.
-/

namespace PropertyGraph

inductive Document where
  | null
  | bool (value : Bool)
  | int (value : Int)
  | float (value : Binary64)
  | str (value : String)
  | arr (items : List Document) (closed : Bool)
  | obj (members : List (String × Document)) (closed : Bool)
  /-- A well-formed piece that has no value: a number out of range, half of a surrogate pair, or
  nesting beyond the limit. It can be skipped but not read. -/
  | valueless
  /-- From here on the text is not JSON. -/
  | broken
deriving Repr, Inhabited

namespace Document

/-- Deepest nesting of arrays and objects that is read. -/
def maxDepth : Nat := 127

/-- Integers outside these bounds are read as floating point numbers. -/
def minInt : Int := Text.IntegerType.signed64.min
def maxInt : Int := Text.IntegerType.unsigned64.max

def isBlank (c : Char) : Bool := c == ' ' || c == '\n' || c == '\t' || c == '\r'

def skipBlank (cs : List Char) : List Char := cs.dropWhile isBlank

def digitValue (c : Char) : Nat := c.toNat - '0'.toNat

def hexValue? (c : Char) : Option Nat :=
  if '0' ≤ c ∧ c ≤ '9' then some (digitValue c)
  else if 'a' ≤ c ∧ c ≤ 'f' then some (c.toNat - 'a'.toNat + 10)
  else if 'A' ≤ c ∧ c ≤ 'F' then some (c.toNat - 'A'.toNat + 10)
  else none

def hexQuad? : List Char → Option (Nat × List Char)
  | a :: b :: c :: d :: rest => do
    let a ← hexValue? a
    let b ← hexValue? b
    let c ← hexValue? c
    let d ← hexValue? d
    return (((a * 16 + b) * 16 + c) * 16 + d, rest)
  | _ => none

def isHighSurrogate (n : Nat) : Bool := 0xd800 ≤ n && n < 0xdc00
def isLowSurrogate (n : Nat) : Bool := 0xdc00 ≤ n && n < 0xe000

/-- The characters after an opening quote, up to the closing one. The outer `none` is a fault; the
inner one stands for a text with half of a surrogate pair. -/
def readString : Nat → List Char → Option (List Char) → Option (Option String × List Char)
  | 0, _, _ => none
  | _, [], _ => none
  | fuel + 1, c :: rest, acc =>
    let push (c : Char) := acc.map (c :: ·)
    if c = '"' then some (acc.map fun cs => String.ofList cs.reverse, rest)
    else if c = '\\' then
      match rest with
      | '"' :: rest => readString fuel rest (push '"')
      | '\\' :: rest => readString fuel rest (push '\\')
      | '/' :: rest => readString fuel rest (push '/')
      | 'b' :: rest => readString fuel rest (push '\x08')
      | 'f' :: rest => readString fuel rest (push '\x0c')
      | 'n' :: rest => readString fuel rest (push '\n')
      | 'r' :: rest => readString fuel rest (push '\r')
      | 't' :: rest => readString fuel rest (push '\t')
      | 'u' :: rest =>
        match hexQuad? rest with
        | none => none
        | some (n, rest) =>
          if isHighSurrogate n then
            match rest with
            | '\\' :: 'u' :: low =>
              match hexQuad? low with
              | some (m, after) =>
                if isLowSurrogate m then
                  readString fuel after
                    (push (Char.ofNat (0x10000 + (n - 0xd800) * 0x400 + (m - 0xdc00))))
                else readString fuel rest none
              | none => none
            | _ => readString fuel rest none
          else if isLowSurrogate n then readString fuel rest none
          else readString fuel rest (push (Char.ofNat n))
      | _ => none
    else if c.toNat < 0x20 then none
    else readString fuel rest (push c)

/-- Digits of a significand as far as they fit in 64 bits, with the number of digits taken. -/
def takeDigits : Nat → Nat → List Char → Nat × Nat × List Char
  | significand, taken, c :: rest =>
    if c.isDigit ∧ significand * 10 + digitValue c ≤ maxInt.toNat then
      takeDigits (significand * 10 + digitValue c) (taken + 1) rest
    else (significand, taken, c :: rest)
  | significand, taken, [] => (significand, taken, [])

/-- The digits of an exponent. Values past the 32-bit range no longer matter. -/
def exponentDigits (cs : List Char) : Nat × List Char :=
  (cs.takeWhile Char.isDigit |>.foldl (fun n c => min (n * 10 + digitValue c) (Nat.pow 2 31)) 0,
    cs.dropWhile Char.isDigit)

/-- The significand with the digits after a point, if a point stands there, the power of ten by which
it counts, and whether there was a point. `none` is a fault in its form. Of the digits before the
point some may have been dropped because they no longer fit; they count as zeros. -/
def readFraction (significand dropped : Nat) : List Char → Option (Nat × Int × Bool × List Char)
  | '.' :: after =>
    if after.head?.any Char.isDigit then
      let (significand, taken, rest) := takeDigits significand 0 after
      some (significand, (dropped : Int) - taken, true, rest.dropWhile Char.isDigit)
    else none
  | rest => some (significand, (dropped : Int), false, rest)

/-- The sign of an exponent, where nothing stands for plus. -/
def exponentSign : List Char → Int × List Char
  | '+' :: digits => (1, digits)
  | '-' :: digits => (-1, digits)
  | digits => (1, digits)

/-- The power of ten with the exponent that follows, if one follows, and whether one does. `none` is a
fault in its form. -/
def readExponent (exponent : Int) : List Char → Option (Int × Bool × List Char)
  | e :: after =>
    if e = 'e' ∨ e = 'E' then
      let (sign, digits) := exponentSign after
      if digits.head?.any Char.isDigit then
        let (n, rest) := exponentDigits digits
        some (exponent + sign * n, true, rest)
      else none
    else some (exponent, false, e :: after)
  | [] => some (exponent, false, [])

/-- The value of a number. A number with neither point nor exponent is an integer if it fits; minus
zero is none. -/
def numberOf (negative whole : Bool) (significand : Nat) (exponent : Int) : Document :=
  let value : Int := if negative then -(significand : Int) else significand
  if whole && minInt ≤ value && !(negative && significand == 0) then int value
  else
    match Binary64.ofDecimal negative significand exponent with
    | some x => float x
    | none => valueless

/-- A number after its sign. `none` is a fault in its form. -/
def readNumber (negative : Bool) (cs : List Char) : Option (Document × List Char) := do
  let first ← cs.head?
  if !first.isDigit then none
  else if first = '0' ∧ (cs.drop 1).head?.any Char.isDigit then none
  else
    let (significand, _, rest) := takeDigits 0 0 cs
    let dropped := (rest.takeWhile Char.isDigit).length
    let (significand, exponent, fractional, rest) ←
      readFraction significand dropped (rest.dropWhile Char.isDigit)
    let (exponent, scientific, rest) ← readExponent exponent rest
    let whole := dropped == 0 && !fractional && !scientific
    return (numberOf negative whole significand exponent, rest)

def readWord (word : List Char) (value : Document) (cs : List Char) :
    Document × Option (List Char) :=
  if word.isPrefixOf cs then (value, some (cs.drop word.length)) else (broken, none)

/-- A value and the characters after it, `none` where the text broke off. -/
abbrev Reading := Document × Option (List Char)

/-- Reads a value that has no inner structure. -/
def readScalar (fuel : Nat) : List Char → Reading
  | 'n' :: rest => readWord ['u', 'l', 'l'] null rest
  | 't' :: rest => readWord ['r', 'u', 'e'] (bool true) rest
  | 'f' :: rest => readWord ['a', 'l', 's', 'e'] (bool false) rest
  | '"' :: rest =>
    match readString fuel rest (some []) with
    | some (some s, rest) => (str s, some rest)
    | some (none, rest) => (valueless, some rest)
    | none => (broken, none)
  | '-' :: rest =>
    match readNumber true rest with
    | some (value, rest) => (value, some rest)
    | none => (broken, none)
  | cs =>
    match readNumber false cs with
    | some (value, rest) => (value, some rest)
    | none => (broken, none)

/-- Nesting beyond the limit has no value. -/
def limitDepth (depth : Nat) : Reading → Reading
  | (value, rest) =>
    if depth < maxDepth then (value, rest)
    else (if rest.isSome then valueless else broken, rest)

mutual
def readValue (fuel : Nat) (depth : Nat) (cs : List Char) : Reading :=
  match fuel, skipBlank cs with
  | 0, _ => (broken, none)
  | fuel + 1, '[' :: rest =>
    limitDepth depth <|
      match skipBlank rest with
      | ']' :: rest => (arr [] true, some rest)
      | rest => readItems fuel (depth + 1) [] rest
  | fuel + 1, '\x7b' :: rest =>
    limitDepth depth <|
      match skipBlank rest with
      | '\x7d' :: rest => (obj [] true, some rest)
      | rest => readMembers fuel (depth + 1) [] rest
  | fuel + 1, cs => readScalar fuel cs
termination_by structural fuel
/-- The items of an array from one on, those before it in reverse. -/
def readItems (fuel : Nat) (depth : Nat) (before : List Document) (cs : List Char) : Reading :=
  match fuel with
  | 0 => (arr before.reverse false, none)
  | fuel + 1 =>
    match readValue fuel depth cs with
    | (item, none) => (arr (item :: before).reverse false, none)
    | (item, some rest) =>
      match skipBlank rest with
      | ']' :: rest => (arr (item :: before).reverse true, some rest)
      | ',' :: rest => readItems fuel depth (item :: before) rest
      | _ => (arr (item :: before).reverse false, none)
termination_by structural fuel
/-- The members of an object from one on, those before it in reverse. -/
def readMembers (fuel : Nat) (depth : Nat) (before : List (String × Document)) (cs : List Char) :
    Reading :=
  match fuel, skipBlank cs with
  | fuel + 1, '"' :: rest =>
    match readString fuel rest (some []) with
    | some (some key, rest) =>
      match skipBlank rest with
      | ':' :: rest =>
        match readValue fuel depth rest with
        | (value, none) => (obj ((key, value) :: before).reverse false, none)
        | (value, some rest) =>
          match skipBlank rest with
          | '\x7d' :: rest => (obj ((key, value) :: before).reverse true, some rest)
          | ',' :: rest => readMembers fuel depth ((key, value) :: before) rest
          | _ => (obj ((key, value) :: before).reverse false, none)
      | _ => (obj ((key, broken) :: before).reverse false, none)
    | _ => (obj before.reverse false, none)
  | _, _ => (obj before.reverse false, none)
termination_by structural fuel
end

/-- Reads one value and says whether nothing but blanks follows it. -/
def ofText (text : String) : Document × Bool :=
  let cs := text.toList
  match readValue (2 * cs.length + 2) 0 cs with
  | (value, some rest) => (value, (skipBlank rest).isEmpty)
  | (value, none) => (value, false)

mutual
/-- Whether the piece is well formed, whatever it contains. -/
def skippable : Document → Bool
  | broken => false
  | arr items closed => skippableItems items && closed
  | obj members closed => skippableMembers members && closed
  | _ => true
termination_by structural document => document
def skippableItems : List Document → Bool
  | [] => true
  | item :: rest => skippable item && skippableItems rest
termination_by structural items => items
def skippableMembers : List (String × Document) → Bool
  | [] => true
  | (_, value) :: rest => skippable value && skippableMembers rest
termination_by structural members => members
end

mutual
/-- The value with members as written. -/
def verbatim? : Document → Option Json
  | null => some .null
  | bool b => some (.bool b)
  | int i => some (.int i)
  | float x => some (.float x)
  | str s => some (.str s)
  | arr items closed => if closed then (verbatimItems? items).map .arr else none
  | obj members closed => if closed then (verbatimMembers? members).map .obj else none
  | valueless => none
  | broken => none
termination_by structural document => document
def verbatimItems? : List Document → Option (List Json)
  | [] => some []
  | item :: rest => (verbatim? item).bind fun j => (verbatimItems? rest).map (j :: ·)
termination_by structural items => items
def verbatimMembers? : List (String × Document) → Option (List (String × Json))
  | [] => some []
  | (key, value) :: rest =>
    (verbatim? value).bind fun j => (verbatimMembers? rest).map ((key, j) :: ·)
termination_by structural members => members
end

mutual
/-- The value with members by ascending key, the last of each key. -/
def toJson? : Document → Option Json
  | null => some .null
  | bool b => some (.bool b)
  | int i => some (.int i)
  | float x => some (.float x)
  | str s => some (.str s)
  | arr items closed => if closed then (itemsToJson? items).map .arr else none
  | obj members closed =>
    if closed then (membersToJson? members).map fun ms => .obj (Members.ofList ms) else none
  | valueless => none
  | broken => none
termination_by structural document => document
def itemsToJson? : List Document → Option (List Json)
  | [] => some []
  | item :: rest => (toJson? item).bind fun j => (itemsToJson? rest).map (j :: ·)
termination_by structural items => items
def membersToJson? : List (String × Document) → Option (List (String × Json))
  | [] => some []
  | (key, value) :: rest =>
    (toJson? value).bind fun j => (membersToJson? rest).map ((key, j) :: ·)
termination_by structural members => members
end

mutual
/-- A value as a document without fault. -/
def ofJson : Json → Document
  | .null => null
  | .bool b => bool b
  | .int i => int i
  | .float x => float x
  | .str s => str s
  | .arr items => arr (ofItems items) true
  | .obj members => obj (ofMembers members) true
termination_by structural value => value
def ofItems : List Json → List Document
  | [] => []
  | item :: rest => ofJson item :: ofItems rest
termination_by structural items => items
def ofMembers : List (String × Json) → List (String × Document)
  | [] => []
  | (key, value) :: rest => (key, ofJson value) :: ofMembers rest
termination_by structural members => members
end

mutual
theorem verbatim?_ofJson : ∀ value : Json, (ofJson value).verbatim? = some value
  | .null | .bool _ | .int _ | .float _ | .str _ => rfl
  | .arr items => by simp [ofJson, verbatim?, verbatimItems?_ofItems items]
  | .obj members => by simp [ofJson, verbatim?, verbatimMembers?_ofMembers members]
theorem verbatimItems?_ofItems : ∀ items : List Json, verbatimItems? (ofItems items) = some items
  | [] => rfl
  | item :: rest => by
    simp [ofItems, verbatimItems?, verbatim?_ofJson item, verbatimItems?_ofItems rest]
theorem verbatimMembers?_ofMembers :
    ∀ members : List (String × Json), verbatimMembers? (ofMembers members) = some members
  | [] => rfl
  | (key, value) :: rest => by
    simp [ofMembers, verbatimMembers?, verbatim?_ofJson value, verbatimMembers?_ofMembers rest]
end

end Document

/-- The value of a JSON text. -/
def Json.ofText? (text : String) : Option Json :=
  match Document.ofText text with
  | (document, true) => document.toJson?
  | (_, false) => none

end PropertyGraph
