import PropertyGraph.Environment
import PropertyGraph.Step.Sequence

/-!
# Sessions

A session runs builder programs one after the other in one environment. A traversal can be saved under
a name, and a later program may start from it; what both have in common is then shared. Handles that a
program gives out keep their meaning for the programs after it.

The session also gives direct access to a graph. This is the graph of the environment where there is
one, and a spare graph where the channel follows a script.
-/

namespace PropertyGraph

structure Session where
  environment : Environment
  spare : Graph
  state : BuildState
  saved : List (String × Traversal)
  sequences : Workspace

namespace Session

def start (environment : Environment) : Session := ⟨environment, .empty, .initial, [], .empty⟩

def graph (s : Session) : Graph :=
  match s.environment.channel with
  | .memory graph => graph
  | .scripted _ => s.spare

def withGraph (graph : Graph) (s : Session) : Session :=
  match s.environment.channel with
  | .memory _ => { s with environment := { s.environment with channel := .memory graph } }
  | .scripted _ => { s with spare := graph }

def clear (s : Session) : Session := s.withGraph s.graph.clear

def evaluate (traversal : CompiledTraversal) (s : Session) :
    Except EngineError (List RawResult) × Session :=
  let (result, graph) := s.graph.evaluate traversal
  (result, s.withGraph graph)

def toList (t : Traversal) (s : Session) : RunResult (List Output) × Session :=
  let (result, environment) := s.environment.toList t
  (result, { s with environment })

def first (t : Traversal) (s : Session) : RunResult (Option Output) × Session :=
  let (result, environment) := s.environment.first t
  (result, { s with environment })

/-- Runs a program from a saved traversal, or from the source. -/
def build (source : Option String) (calls : List Call) (s : Session) :
    List (Except BuildError Traversal) × Session :=
  let base := (source.bind fun name => s.saved.lookup name).getD .source
  let (after, state) := Call.runEach s.environment.model base calls { s.state with events := [] }
  (after, { s with state })

def sequence (name : String) (s : Session) : StepSequence := (s.sequences.get? name).getD .empty

/-- Saves a traversal that continues a saved one, or the source. -/
def save (name : String) (source : Option String) (t : Traversal) (s : Session) : Session :=
  let base := source.elim .empty s.sequence
  { s with
    saved := (name, t) :: s.saved
    sequences := s.sequences.extend name base (t.steps.drop base.length) }

end Session

end PropertyGraph
