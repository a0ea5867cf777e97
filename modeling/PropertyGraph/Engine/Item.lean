import PropertyGraph.Graph.Basic
import PropertyGraph.Json.Printer
import PropertyGraph.RawResult

/-!
# Items and traversers

An item is what a traversal has reached: its source before anything is selected, an element by number,
a value, or a list. A traverser is an item with the bindings that are visible to it.
-/

namespace PropertyGraph

inductive Item where
  | root
  | element (kind : ElementKind) (id : Nat)
  | value (value : Json)
  | list (items : List Item)
deriving Repr, Inhabited

namespace Item

mutual
/-- Equality of items, with values compared as JSON values. -/
def beq : Item → Item → Bool
  | root, root => true
  | element k i, element l j => k == l && i == j
  | value v, value w => v == w
  | list as, list bs => beqAll as bs
  | _, _ => false
termination_by structural a => a
def beqAll : List Item → List Item → Bool
  | [], [] => true
  | a :: as, b :: bs => beq a b && beqAll as bs
  | _, _ => false
termination_by structural a => a
end

instance : BEq Item := ⟨beq⟩

def isRoot : Item → Bool
  | root => true
  | _ => false

/-- An item in the words of a message. -/
def describe : Item → String
  | root => "the traversal source"
  | element kind id => s!"{kind.text} {id}"
  | value v => s!"value {v.compact}"
  | list items => s!"a list of {items.length}"

/-- What a list has for members; any other item is its own only member. -/
def members : Item → List Item
  | list items => items
  | value (.arr values) => values.map value
  | item => [item]

mutual
/-- The result of an item. The source and elements that are gone have none. -/
def result? (g : Graph) : Item → Option RawResult
  | root => none
  | element kind id => (g.raw? kind id).map .element
  | value v => some (.value v)
  | list items => some (.list (results g items))
termination_by structural item => item
def results (g : Graph) : List Item → List RawResult
  | [] => []
  | item :: rest =>
    match result? g item with
    | some r => r :: results g rest
    | none => results g rest
termination_by structural items => items
end

end Item

/-- Bound names with their items, innermost first. -/
abbrev Bindings := List (String × Item)

structure Traverser where
  item : Item
  bindings : Bindings
deriving Repr

/-- The traverser moves on to another item. -/
def Traverser.withItem (t : Traverser) (item : Item) : Traverser := { t with item }

end PropertyGraph
