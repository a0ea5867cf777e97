import PropertyGraph.Step.Wire
import PropertyGraph.Error

/-!
# Compiled traversals

Steps are ready to be sent when each reference by name stands inside a bind of that name. The check is
lexical: a continuation sees the names bound around it and its own, a selector sees the names around
its edge creation, and nothing sees a name after its bind has ended.
-/

namespace PropertyGraph

namespace Step

mutual
/-- The first reference of a step that none of the names binds. -/
def unbound? (names : List String) : Step → Option String
  | filter predicate => predicate.references.find? (!names.contains ·)
  | bind name continuation => unboundIn? (name :: names) continuation
  | addEdge _ _ source target => (selectorUnbound? names source).or (selectorUnbound? names target)
  | _ => none
termination_by structural s => s
def selectorUnbound? (names : List String) : Option (List Step) → Option String
  | none => none
  | some steps => unboundIn? names steps
termination_by structural s => s
def unboundIn? (names : List String) : List Step → Option String
  | [] => none
  | step :: rest => (unbound? names step).or (unboundIn? names rest)
termination_by structural s => s
end

end Step

/-- Steps whose references have been checked. -/
structure CompiledTraversal where
  steps : List Step
deriving Repr

namespace CompiledTraversal

instance : BEq CompiledTraversal := ⟨fun a b => a.steps == b.steps⟩

/-- Checks steps that run where the names are bound. -/
def inScope (names : List String) (steps : List Step) : Except TraversalError CompiledTraversal :=
  match Step.unboundIn? names steps with
  | some name => .error (.unboundReference name)
  | none => .ok ⟨steps⟩

/-- Checks steps that stand on their own. -/
def compile (steps : List Step) : Except TraversalError CompiledTraversal := inScope [] steps

def toJson (c : CompiledTraversal) : Json := Step.sequenceToJson c.steps

def compactText (c : CompiledTraversal) : String := c.toJson.compact

def prettyText (c : CompiledTraversal) : String := c.toJson.pretty

def read (m : Medium) (d : Document) : Except DecodeError CompiledTraversal := do
  let steps ← Step.readSequence d m
  match Step.unboundIn? [] steps with
  | some name => throw (.unbound name)
  | none => return ⟨steps⟩

instance : WireForm CompiledTraversal := ⟨toJson, read⟩

end CompiledTraversal

end PropertyGraph
