import PropertyGraph.Json.Basic
import PropertyGraph.Number.Shortest

/-!
# JSON text

`compact` writes a value without blanks, `pretty` with one item or member to a line. Members are
written in the order in which the value holds them. In a text `"`, `\` and the controls below U+0020
are escaped and nothing else.
-/

namespace PropertyGraph

namespace Json

def hexDigit (n : Nat) : Char := (Nat.digitChar n)

def escapeChar (c : Char) : String :=
  match c with
  | '"' => "\\\""
  | '\\' => "\\\\"
  | '\x08' => "\\b"
  | '\x0c' => "\\f"
  | '\n' => "\\n"
  | '\r' => "\\r"
  | '\t' => "\\t"
  | c =>
    if c.toNat < 0x20 then
      "\\u00" ++ String.ofList [hexDigit (c.toNat / 16), hexDigit (c.toNat % 16)]
    else String.singleton c

def quote (s : String) : String :=
  s.foldl (fun acc c => acc ++ escapeChar c) "\"" ++ "\""

def scalarText : Json → String
  | null => "null"
  | bool true => "true"
  | bool false => "false"
  | int i => toString i
  | float x => x.toText
  | str s => quote s
  | arr _ => "[]"
  | obj _ => "\x7b\x7d"

mutual
def compact : Json → String
  | arr items => "[" ++ compactItems items ++ "]"
  | obj members => "\x7b" ++ compactMembers members ++ "\x7d"
  | value => scalarText value
termination_by structural value => value
def compactItems : List Json → String
  | [] => ""
  | [item] => compact item
  | item :: rest => compact item ++ "," ++ compactItems rest
termination_by structural items => items
def compactMembers : List (String × Json) → String
  | [] => ""
  | [(key, value)] => quote key ++ ":" ++ compact value
  | (key, value) :: rest => quote key ++ ":" ++ compact value ++ "," ++ compactMembers rest
termination_by structural members => members
end

/-- A line break and the blanks of one depth. -/
def indentation (depth : Nat) : String := "\n" ++ String.ofList (List.replicate (2 * depth) ' ')

mutual
/-- The text of a value that stands at a depth of nesting. -/
def prettyAt (depth : Nat) : Json → String
  | arr [] => "[]"
  | arr items => "[" ++ prettyItems (depth + 1) items ++ indentation depth ++ "]"
  | obj [] => "\x7b\x7d"
  | obj members => "\x7b" ++ prettyMembers (depth + 1) members ++ indentation depth ++ "\x7d"
  | value => scalarText value
termination_by structural value => value
def prettyItems (depth : Nat) : List Json → String
  | [] => ""
  | [item] => indentation depth ++ prettyAt depth item
  | item :: rest => indentation depth ++ prettyAt depth item ++ "," ++ prettyItems depth rest
termination_by structural items => items
def prettyMembers (depth : Nat) : List (String × Json) → String
  | [] => ""
  | [(key, value)] => indentation depth ++ quote key ++ ": " ++ prettyAt depth value
  | (key, value) :: rest =>
    indentation depth ++ quote key ++ ": " ++ prettyAt depth value ++ ","
      ++ prettyMembers depth rest
termination_by structural members => members
end

def pretty (value : Json) : String := prettyAt 0 value

end Json

end PropertyGraph
