import PropertyGraph.Channel
import PropertyGraph.Output
import PropertyGraph.QueryLog

/-!
# Executions

An execution submits its traversal when it is first polled and then decodes one result after the other.
It ends after its first error. Its state leaves `executing` once and for all, before the last item is
handed out, and the log entry is written between the two. A cancellation is noticed by the next poll,
before anything else; an execution that is dropped early has failed and is not logged.
-/

namespace PropertyGraph

inductive TraversalState where
  | building
  | compiled
  | executing
  | completed
  | failed
deriving DecidableEq, Repr

namespace TraversalState

def text : TraversalState → String
  | building => "building"
  | compiled => "compiled"
  | executing => "executing"
  | completed => "completed"
  | failed => "failed"

def toJson (state : TraversalState) : Json := .str state.text

def isTerminal : TraversalState → Bool
  | completed | failed => true
  | _ => false

def variants : List (String × TraversalState) :=
  [building, compiled, executing, completed, failed].map fun state => (state.text, state)

def read (m : Medium) (d : Document) : Except DecodeError TraversalState :=
  Reading.choice m variants d

instance : WireForm TraversalState := ⟨toJson, read⟩

end TraversalState

inductive Phase where
  | unsent
  | sending
  | refused (error : TraversalError)
  | receiving (items : List StreamItem) (ends : Bool)
  | ended

structure Execution where
  traversal : CompiledTraversal
  phase : Phase
  /-- The number of results handed out. -/
  emitted : Nat
  state : TraversalState
  cancelled : Bool

inductive Polled where
  | pending
  | ended
  | yielded (item : Except TraversalError Output)

/-- The decoding of raw results; none for a result that is left out. -/
abbrev Decoder := RawResult → Except TraversalError (Option Output)

namespace TraversalError

def outcome : TraversalError → QueryOutcome
  | cancelled => .cancelled
  | error => .failed error.message

end TraversalError

namespace Execution

def start (traversal : CompiledTraversal) : Execution := ⟨traversal, .unsent, 0, .executing, false⟩

/-- Only the first final state stays. -/
def finish (state : TraversalState) (e : Execution) : Execution :=
  if e.state = .executing then { e with state } else e

def cancel (e : Execution) : Execution := { e with cancelled := true }

def drop (e : Execution) : Execution := e.finish .failed

def submits (e : Execution) : Bool :=
  match e.phase with
  | .unsent => !e.cancelled
  | _ => false

def submitted (submission : Submission) (e : Execution) : Execution :=
  { e with
    phase := match submission with
      | .refused error => .refused error
      | .stalled => .sending
      | .accepted items ends => .receiving items ends }

/-- A poll with the execution after it, and the log entry when it has come to its end. -/
abbrev Turn := Polled × Execution × Option QueryLogEntry

def fail (error : TraversalError) (e : Execution) : Turn :=
  (.yielded (.error error), { e with phase := .ended }.finish .failed,
    some ⟨e.traversal, error.outcome⟩)

def complete (e : Execution) : Turn :=
  (.ended, { e with phase := .ended }.finish .completed,
    some ⟨e.traversal, .completed e.emitted⟩)

/-- Reads on to the next result that is handed out. -/
def receive (decode : Decoder) (ends : Bool) (e : Execution) : List StreamItem → Turn
  | [] => if ends then e.complete else (.pending, { e with phase := .receiving [] ends }, none)
  | .error error :: _ => e.fail error
  | .ok raw :: rest =>
    match decode raw with
    | .error error => e.fail error
    | .ok none => e.receive decode ends rest
    | .ok (some output) =>
      (.yielded (.ok output),
        { e with phase := .receiving rest ends, emitted := e.emitted + 1 }, none)

/-- A poll of an execution whose traversal has been submitted, or is not going to be. -/
def advance (decode : Decoder) (e : Execution) : Turn :=
  match e.phase with
  | .ended => (.ended, e, none)
  | .refused error => e.fail error
  | .unsent | .sending => if e.cancelled then e.fail .cancelled else (.pending, e, none)
  | .receiving items ends =>
    if e.cancelled then e.fail .cancelled else e.receive decode ends items

/-- A poll, with the channel that it may submit to. -/
def poll (decode : Decoder) (e : Execution) (channel : Channel) : Turn × Channel :=
  if e.submits then
    let (submission, channel) := channel.submit e.traversal
    ((e.submitted submission).advance decode, channel)
  else (e.advance decode, channel)

/-- The number of results that are still to come, at most. -/
def remaining (e : Execution) : Nat :=
  match e.phase with
  | .receiving items _ => items.length
  | _ => 0

/-- Gathers results up to a poll that brings none. -/
def gather (decode : Decoder) : Nat → List Output → Execution →
    Option (Except TraversalError (List Output)) × Execution × Option QueryLogEntry
  | 0, _, e => (none, e, none)
  | fuel + 1, outputs, e =>
    match e.advance decode with
    | (.pending, e, entry) => (none, e, entry)
    | (.ended, e, entry) => (some (.ok outputs.reverse), e, entry)
    | (.yielded (.error error), e, entry) => (some (.error error), e, entry)
    | (.yielded (.ok output), e, _) => gather decode fuel (output :: outputs) e

/-- All results that are left, or the error that takes their place; none while the stream is open. The
execution is dropped after it. -/
def toList (decode : Decoder) (e : Execution) (channel : Channel) :
    (Option (Except TraversalError (List Output)) × Execution × Option QueryLogEntry) × Channel :=
  let (e, channel) :=
    if e.submits then
      let (submission, channel) := channel.submit e.traversal
      (e.submitted submission, channel)
    else (e, channel)
  let (result, e, entry) := e.gather decode (e.remaining + 1) []
  ((result, e.drop, entry), channel)

end Execution

/-- An execution on a channel, with the traversals submitted so far and the log entries written. -/
structure Run where
  channel : Channel
  execution : Execution
  /-- The execution has not been given up. -/
  held : Bool
  submitted : List CompiledTraversal
  entries : List QueryLogEntry

namespace Run

def start (traversal : CompiledTraversal) (channel : Channel) : Run :=
  ⟨channel, .start traversal, true, [], []⟩

def restart (r : Run) : Run := { r with execution := .start r.execution.traversal, held := true }

def cancel (r : Run) : Run := { r with execution := r.execution.cancel }

def drop (r : Run) : Run := { r with execution := r.execution.drop, held := false }

def record (execution : Execution) (entry : Option QueryLogEntry) (channel : Channel) (r : Run) :
    Run :=
  { r with
    channel, execution
    submitted := r.submitted ++ (if r.execution.submits then [execution.traversal] else [])
    entries := r.entries ++ entry.toList }

def poll (decode : Decoder) (r : Run) : Polled × Run :=
  let ((polled, execution, entry), channel) := r.execution.poll decode r.channel
  (polled, r.record execution entry channel)

/-- All results that are left. The execution is given up. -/
def toList (decode : Decoder) (r : Run) : Option (Except TraversalError (List Output)) × Run :=
  let ((result, execution, entry), channel) := r.execution.toList decode r.channel
  (result, { r.record execution entry channel with held := false })

end Run

end PropertyGraph
