import PropertyGraph.Execution
import PropertyGraph.Program
import PropertyGraph.Settings.Environment

/-!
# Environments

An environment puts a model, settings and a channel together. Traversals are compiled before they are
executed, and a traversal that does not compile is not sent.
-/

namespace PropertyGraph

structure Environment where
  model : GraphModel
  config : EnvironmentConfig
  channel : Channel

/-- What a run of a traversal brings; none while its stream is open. -/
abbrev RunResult (α : Type) := Option (Except TraversalError α)

namespace Environment

/-- The environment of a model. It cannot do without a channel. -/
def build (model : GraphModel) (channel : Option Channel) (config : EnvironmentConfig) :
    Except TraversalError Environment :=
  match channel with
  | some channel => .ok ⟨model, config, channel⟩
  | none => .error (.configuration "a graph channel is required")

def decoder (env : Environment) (result : ResultType) : Decoder := fun raw =>
  raw.decode env.model env.config.projection result

def toList (env : Environment) (t : Traversal) : RunResult (List Output) × Environment :=
  match t.compile with
  | .error e => (some (.error e), env)
  | .ok compiled =>
    let (result, run) := (Run.start compiled env.channel).toList (env.decoder t.result)
    (result, { env with channel := run.channel })

def first (env : Environment) (t : Traversal) : RunResult (Option Output) × Environment :=
  let (result, env) := env.toList (t.limit 1)
  (result.map (·.map (·.head?)), env)

end Environment

end PropertyGraph
