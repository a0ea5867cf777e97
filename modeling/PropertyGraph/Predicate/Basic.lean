import PropertyGraph.Json.Basic

/-!
# Filter predicates

A predicate is data that an engine evaluates for each element. It compares a property, or the current
item itself, with an operand: a constant or a value bound earlier in the same traversal. Predicates are
generic in what they use as a reference to a bound value. On the wire and in an engine a reference is a
name; while a traversal is being built it also tells which binding is meant.
-/

namespace PropertyGraph

inductive Operand (ρ : Type) where
  | constant (value : Json)
  | bound (reference : ρ)
deriving Repr

/-- The last two expect a list operand. -/
inductive Comparison where
  | eq
  | neq
  | lt
  | lte
  | gt
  | gte
  | within
  | without
deriving DecidableEq, Repr

structure Test (ρ : Type) where
  comparison : Comparison
  operand : Operand ρ
deriving Repr

inductive Predicate (ρ : Type) where
  | has (key : String) (test : Test ρ)
  | is (test : Test ρ)
  | conj (operands : List (Predicate ρ))
  | disj (operands : List (Predicate ρ))
  | neg (operand : Predicate ρ)
deriving Repr

def Operand.map (f : ρ → σ) : Operand ρ → Operand σ
  | constant v => constant v
  | bound r => bound (f r)

def Test.map (f : ρ → σ) (test : Test ρ) : Test σ := ⟨test.comparison, test.operand.map f⟩

/-- The references of a test, at most one. -/
def Test.references (test : Test ρ) : List ρ :=
  match test.operand with
  | .constant _ => []
  | .bound r => [r]

namespace Predicate

def conjuncts : Predicate ρ → List (Predicate ρ)
  | conj operands => operands
  | p => [p]

def disjuncts : Predicate ρ → List (Predicate ρ)
  | disj operands => operands
  | p => [p]

/-- Conjunction without nested conjunctions at the top. -/
def and (p q : Predicate ρ) : Predicate ρ := conj (p.conjuncts ++ q.conjuncts)

/-- Disjunction without nested disjunctions at the top. -/
def or (p q : Predicate ρ) : Predicate ρ := disj (p.disjuncts ++ q.disjuncts)

/-- Negation; a double negation cancels. -/
def not : Predicate ρ → Predicate ρ
  | neg operand => operand
  | p => neg p

mutual
/-- The names of the properties that a predicate reads, in the order written. -/
def propertyKeys : Predicate ρ → List String
  | has key _ => [key]
  | is _ => []
  | conj operands => propertyKeysOfAll operands
  | disj operands => propertyKeysOfAll operands
  | neg operand => propertyKeys operand
termination_by structural p => p
def propertyKeysOfAll : List (Predicate ρ) → List String
  | [] => []
  | p :: rest => propertyKeys p ++ propertyKeysOfAll rest
termination_by structural ps => ps
end

mutual
/-- The references to bound values, in the order written. -/
def references : Predicate ρ → List ρ
  | has _ test => test.references
  | is test => test.references
  | conj operands => referencesOfAll operands
  | disj operands => referencesOfAll operands
  | neg operand => references operand
termination_by structural p => p
def referencesOfAll : List (Predicate ρ) → List ρ
  | [] => []
  | p :: rest => references p ++ referencesOfAll rest
termination_by structural ps => ps
end

mutual
def map (f : ρ → σ) : Predicate ρ → Predicate σ
  | has key test => has key (test.map f)
  | is test => is (test.map f)
  | conj operands => conj (mapAll f operands)
  | disj operands => disj (mapAll f operands)
  | neg operand => neg (map f operand)
termination_by structural p => p
def mapAll (f : ρ → σ) : List (Predicate ρ) → List (Predicate σ)
  | [] => []
  | p :: rest => map f p :: mapAll f rest
termination_by structural ps => ps
end

end Predicate

instance [BEq ρ] : BEq (Operand ρ) where
  beq
    | .constant a, .constant b => a == b
    | .bound a, .bound b => a == b
    | _, _ => false

instance [BEq ρ] : BEq (Test ρ) :=
  ⟨fun a b => a.comparison == b.comparison && a.operand == b.operand⟩

namespace Predicate

mutual
def beq [BEq ρ] : Predicate ρ → Predicate ρ → Bool
  | has k t, has l u => k == l && t == u
  | is t, is u => t == u
  | conj ps, conj qs => beqAll ps qs
  | disj ps, disj qs => beqAll ps qs
  | neg p, neg q => beq p q
  | _, _ => false
termination_by structural p => p
def beqAll [BEq ρ] : List (Predicate ρ) → List (Predicate ρ) → Bool
  | [], [] => true
  | p :: ps, q :: qs => beq p q && beqAll ps qs
  | _, _ => false
termination_by structural ps => ps
end

instance [BEq ρ] : BEq (Predicate ρ) := ⟨beq⟩

end Predicate

end PropertyGraph
