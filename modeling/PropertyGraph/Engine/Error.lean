import PropertyGraph.Error

/-!
# Errors of the engine

The engine refuses some requests as such and fails on others while it evaluates them. Callers see both
as a failure of the server with a status code.
-/

namespace PropertyGraph

inductive EngineError where
  | invalidRequest (reason : String)
  | unsupportedInput (step found : String)
  /-- A selector does not choose exactly one vertex. -/
  | endpoint (label : String) (found : Nat)
  | unknownBinding (name : String)
deriving DecidableEq, Repr

namespace EngineError

/-- The status of a request that is refused. -/
def refusedCode : UInt16 := 499

/-- The status of a request that fails during its evaluation. -/
def failedCode : UInt16 := 597

def code : EngineError → UInt16
  | invalidRequest _ | unknownBinding _ => refusedCode
  | unsupportedInput _ _ | endpoint _ _ => failedCode

def message : EngineError → String
  | invalidRequest reason => s!"Invalid request: {reason}"
  | unsupportedInput step found => s!"Cannot apply '{step}' to {found}"
  | endpoint label found =>
    s!"Edge '{label}' endpoint resolved to {found} vertices, expected exactly one"
  | unknownBinding name => s!"No binding named '{name}' in scope"

def toTraversalError (e : EngineError) : TraversalError := .server e.code e.message

end EngineError

end PropertyGraph
