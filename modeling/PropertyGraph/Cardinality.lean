import PropertyGraph.Step.Basic

/-!
# How many results steps can have

The endpoint of an edge has to be one vertex, so a selector is refused when its steps certainly have no
result for one input, or may have several.
-/

namespace PropertyGraph

/-- A bound on the number of results for one input. -/
inductive Cardinality where
  | zero
  | atMostOne
  | one
  | many
deriving DecidableEq, Repr

namespace Cardinality

/-- The results of steps that have `perInput` results for each of the inputs. -/
def times : Cardinality → Cardinality → Cardinality
  | zero, _ | _, zero => zero
  | one, one => one
  | one, atMostOne | atMostOne, one | atMostOne, atMostOne => atMostOne
  | many, _ | _, many => many

/-- Constants take the place of the source, and otherwise follow the other results. -/
def afterInject : Cardinality → Nat → Cardinality
  | inputs, 0 => inputs
  | zero, 1 => one
  | _, _ => many

def ofCount : Nat → Cardinality
  | 0 => zero
  | 1 => atMostOne
  | _ => many

def afterLimit (inputs : Cardinality) (count : UInt64) : Cardinality :=
  if count = 0 then zero
  else if count = 1 then
    match inputs with
    | many => atMostOne
    | inputs => inputs
  else inputs

mutual
def step (inputs : Cardinality) : Step → Cardinality
  | .selectAll _ => inputs.times many
  | .selectById _ ids => inputs.times (ofCount ids.length)
  | .typeFilter _ => inputs.times atMostOne
  | .addVertex _ _ => inputs
  | .addEdge _ _ _ _ => inputs
  | .update _ => inputs
  | .traverse _ _ _ => inputs.times many
  | .edgeVertex .both => inputs.times many
  | .edgeVertex _ => inputs
  | .filter _ => inputs.times atMostOne
  | .inject values => inputs.afterInject values.length
  | .fold => one
  | .bind _ continuation => inputs.times (steps one continuation)
  | .project .count => one
  | .project _ => inputs
  | .limit count => inputs.afterLimit count
  | .drop => zero
termination_by structural s => s
def steps (inputs : Cardinality) : List Step → Cardinality
  | [] => inputs
  | s :: rest => steps (step inputs s) rest
termination_by structural s => s
end

/-- The results of steps for a single input. -/
def of (sequence : List Step) : Cardinality := steps one sequence

end Cardinality

end PropertyGraph
