import PropertyGraph.Engine.Error
import PropertyGraph.Engine.Item

/-!
# Evaluation of predicates

Numbers are compared as floating point numbers, an element equals a whole number that is its
identifier, and order relates numbers with numbers and texts with texts only. A property that is absent
satisfies no test.
-/

namespace PropertyGraph

namespace Item

/-- The sameness that tests go by. -/
def same : Item → Item → Bool
  | value v, value w =>
    match v.toBinary64?, w.toBinary64? with
    | some x, some y => x.sameValue y
    | _, _ => v == w
  | element _ id, value v | value v, element _ id => v.toInt64? == some (id : Int)
  | a, b => a == b

def compare? : Item → Item → Option Ordering
  | value (.str s), value (.str t) => some (compare s t)
  | value v, value w => do return (← v.toBinary64?).compare (← w.toBinary64?)
  | _, _ => none

def isWithin (item operand : Item) : Bool := operand.members.any item.same

end Item

def Comparison.holds (comparison : Comparison) (item operand : Item) : Bool :=
  match comparison with
  | eq => item.same operand
  | neq => !item.same operand
  | lt => (item.compare? operand).any (·.isLT)
  | lte => (item.compare? operand).any (·.isLE)
  | gt => (item.compare? operand).any (·.isGT)
  | gte => (item.compare? operand).any (·.isGE)
  | within => item.isWithin operand
  | without => !item.isWithin operand

def Operand.item (bindings : Bindings) : Operand BoundName → Except EngineError Item
  | constant v => .ok (.value v)
  | bound name =>
    match bindings.lookup name with
    | some item => .ok item
    | none => .error (.unknownBinding name)

def Test.holds (bindings : Bindings) (test : Test BoundName) (item : Item) :
    Except EngineError Bool :=
  (test.operand.item bindings).map (test.comparison.holds item)

def Graph.property? (g : Graph) (key : String) : Item → Option Json
  | .element kind id =>
    if key = idKey then some (.int id)
    else if key = labelKey then (g.label? kind id).map .str
    else (g.properties? kind id).bind (·.find? key)
  | _ => none

namespace Predicate

mutual
/-- Whether a predicate holds of a traverser. Operands are evaluated as far as they decide. -/
def holds (g : Graph) (t : Traverser) : Predicate BoundName → Except EngineError Bool
  | has key test =>
    match g.property? key t.item with
    | some v => test.holds t.bindings (.value v)
    | none => .ok false
  | is test => test.holds t.bindings t.item
  | conj operands => allHold g t operands
  | disj operands => anyHolds g t operands
  | neg operand => (holds g t operand).map (!·)
termination_by structural p => p
def allHold (g : Graph) (t : Traverser) : List (Predicate BoundName) → Except EngineError Bool
  | [] => .ok true
  | p :: rest => do
    if ← holds g t p then allHold g t rest else return false
termination_by structural ps => ps
def anyHolds (g : Graph) (t : Traverser) : List (Predicate BoundName) → Except EngineError Bool
  | [] => .ok false
  | p :: rest => do
    if ← holds g t p then return true else anyHolds g t rest
termination_by structural ps => ps
end

end Predicate

end PropertyGraph
