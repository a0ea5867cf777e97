import PropertyGraph.Step.Basic

/-!
# Persistent step sequences

A sequence is never changed: appending gives a new sequence that shares all nodes of the old one. Each
node has a number of its own, given when it is made, so shared nodes are told apart from equal ones.
One sequence is a beginning of another when the other holds its last node. A `Workspace` keeps
sequences under names and hands out the numbers.
-/

namespace PropertyGraph

structure SequenceNode where
  number : Nat
  step : Step
deriving Repr

/-- A sequence by its nodes, the last one first. -/
structure StepSequence where
  nodes : List SequenceNode
deriving Repr, Inhabited

namespace StepSequence

def empty : StepSequence := ⟨[]⟩

def append (number : Nat) (step : Step) (s : StepSequence) : StepSequence :=
  ⟨⟨number, step⟩ :: s.nodes⟩

def length (s : StepSequence) : Nat := s.nodes.length

def isEmpty (s : StepSequence) : Bool := s.nodes.isEmpty

def last? (s : StepSequence) : Option Step := s.nodes.head?.map (·.step)

def reversed (s : StepSequence) : List Step := s.nodes.map (·.step)

def toList (s : StepSequence) : List Step := s.reversed.reverse

def names (s : StepSequence) : List String := s.toList.map Step.name

/-- Whether the other sequence shares all nodes of this one. -/
def isSharedBy (s other : StepSequence) : Bool :=
  match s.nodes.head? with
  | none => true
  | some last => other.nodes.any (·.number == last.number)

instance : BEq StepSequence := ⟨fun a b => a.length == b.length && a.toList == b.toList⟩

end StepSequence

/-- Sequences under names, and the number of the next node. -/
structure Workspace where
  sequences : List (String × StepSequence)
  nextNumber : Nat
deriving Repr

namespace Workspace

def empty : Workspace := ⟨[], 0⟩

def get? (w : Workspace) (name : String) : Option StepSequence := w.sequences.lookup name

def remove (w : Workspace) (name : String) : Workspace :=
  { w with sequences := w.sequences.filter (·.1 != name) }

/-- Keeps a sequence under a name, in place of what the name stood for. -/
def set (name : String) (s : StepSequence) (w : Workspace) : Workspace :=
  { w with sequences := (name, s) :: (w.remove name).sequences }

def new (name : String) (w : Workspace) : Workspace := w.set name .empty

/-- Keeps a sequence with steps appended to it, each in a new node. -/
def extend (name : String) (s : StepSequence) : List Step → Workspace → Workspace
  | [], w => w.set name s
  | step :: rest, w =>
    extend name (s.append w.nextNumber step) rest { w with nextNumber := w.nextNumber + 1 }

/-- Appends a step to a sequence and keeps the result. -/
def append (name source : String) (step : Step) (w : Workspace) : Workspace :=
  match w.get? source with
  | some s => w.extend name s [step]
  | none => w

def collect (name : String) (steps : List Step) (w : Workspace) : Workspace :=
  w.extend name .empty steps

/-- Keeps a sequence of the same steps in new nodes. -/
def copy (name source : String) (w : Workspace) : Workspace :=
  match w.get? source with
  | some s => w.collect name s.toList
  | none => w

def share (name source : String) (w : Workspace) : Workspace :=
  match w.get? source with
  | some s => w.set name s
  | none => w

end Workspace

end PropertyGraph
