import PropertyGraph.Error

/-!
# Scopes of bound names

A bind opens a scope with a number of its own. A handle remembers name and number, so it is told apart
from other bindings of the same name; a reference by name alone means the innermost binding.
-/

namespace PropertyGraph

/-- A bound name and the number of its scope. -/
structure Binding where
  name : String
  scope : Nat
deriving DecidableEq, Repr

/-- A reference in a predicate that is being built. -/
structure Reference where
  name : String
  /-- The number of the scope that is meant, if it matters. -/
  scope : Option Nat
deriving DecidableEq, Repr

/-- A handle refers to its own binding. -/
def Binding.reference (binding : Binding) : Reference := ⟨binding.name, some binding.scope⟩

/-- The visible bindings, innermost first. -/
abbrev Scope := List Binding

namespace Scope

/-- The visible names, outermost first. -/
def names (scope : Scope) : List String := (scope.map Binding.name).reverse

/-- A reference resolves to the innermost binding of its name, which has to be the one meant. -/
def resolve (scope : Scope) (reference : Reference) : Except TraversalError Unit :=
  match scope.find? (·.name == reference.name) with
  | none => .error (.unboundReference reference.name)
  | some binding =>
    if reference.scope.all (· == binding.scope) then .ok ()
    else .error (.unboundReference reference.name)

/-- The name given to a binding at a depth: a letter as long as there are letters. -/
def generatedName (depth : Nat) : String :=
  if depth < 26 then "_" ++ String.singleton (Char.ofNat ('a'.toNat + depth))
  else "_" ++ toString depth

end Scope

end PropertyGraph
