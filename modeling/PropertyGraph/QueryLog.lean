import PropertyGraph.Compiled
import PropertyGraph.Text.Case

/-!
# The query log

Each execution that has come to its end is reported once, with its traversal and how it ended. Without
a sink of its own the log emits events at the level of its settings; the level `none` turns it off.
-/

namespace PropertyGraph

inductive QueryLogLevel where
  | none
  | trace
  | debug
  | info
  | warn
deriving DecidableEq, Repr

namespace QueryLogLevel

def text : QueryLogLevel → String
  | none => "none"
  | trace => "trace"
  | debug => "debug"
  | info => "info"
  | warn => "warn"

def toJson (level : QueryLogLevel) : Json := .str level.text

def variants : List (String × QueryLogLevel) :=
  [none, trace, debug, info, warn].map fun level => (level.text, level)

def read (m : Medium) (d : Document) : Except DecodeError QueryLogLevel :=
  Reading.choice m variants d

/-- Further names of levels in settings. -/
def aliases : List (String × QueryLogLevel) := [("off", none), ("warning", warn)]

/-- Reads a level from text in any case. -/
def ofText (text : String) : Except String QueryLogLevel :=
  let name := Text.toLower text
  match (variants ++ aliases).lookup name with
  | some level => .ok level
  | _ => .error s!"unknown query log level '{name}'"

instance : WireForm QueryLogLevel := ⟨toJson, read⟩

end QueryLogLevel

/-- How a traversal is written in an event. -/
inductive QueryLogFormatting where
  | compact
  | indented
deriving DecidableEq, Repr

namespace QueryLogFormatting

def text : QueryLogFormatting → String
  | compact => "compact"
  | indented => "indented"

def toJson (formatting : QueryLogFormatting) : Json := .str formatting.text

def variants : List (String × QueryLogFormatting) :=
  [("compact", compact), ("indented", indented)]

def read (m : Medium) (d : Document) : Except DecodeError QueryLogFormatting :=
  Reading.choice m variants d

/-- Further names of formattings in settings. -/
def aliases : List (String × QueryLogFormatting) := [("none", compact), ("pretty", indented)]

/-- Reads a formatting from text in any case. -/
def ofText (text : String) : Except String QueryLogFormatting :=
  let name := Text.toLower text
  match (variants ++ aliases).lookup name with
  | some formatting => .ok formatting
  | none => .error s!"unknown query log formatting '{name}'"

instance : WireForm QueryLogFormatting := ⟨toJson, read⟩

end QueryLogFormatting

structure QueryLogConfig where
  level : QueryLogLevel
  formatting : QueryLogFormatting
deriving DecidableEq, Repr

namespace QueryLogConfig

def default : QueryLogConfig := ⟨.none, .compact⟩

def isEnabled (config : QueryLogConfig) : Bool := config.level != .none

def toJson (config : QueryLogConfig) : Json :=
  .obj [("level", config.level.toJson), ("formatting", config.formatting.toJson)]

def read (m : Medium) (d : Document) : Except DecodeError QueryLogConfig :=
  Reading.record m "settings"
    [Reading.defaulted "level", Reading.defaulted "formatting"] default
    (fun name d =>
      if name = "level" then do
        let level ← QueryLogLevel.read m d
        return ({ · with level })
      else do
        let formatting ← QueryLogFormatting.read m d
        return ({ · with formatting })) d

instance : WireForm QueryLogConfig := ⟨toJson, read⟩

end QueryLogConfig

inductive QueryOutcome where
  | completed (results : Nat)
  | failed (error : String)
  | cancelled
deriving DecidableEq, Repr

namespace QueryOutcome

inductive Status where
  | completed
  | failed
  | cancelled
deriving DecidableEq, Repr

def Status.text : Status → String
  | completed => "completed"
  | failed => "failed"
  | cancelled => "cancelled"

def status : QueryOutcome → Status
  | completed _ => .completed
  | failed _ => .failed
  | cancelled => .cancelled

def toJson : QueryOutcome → Json
  | completed results => .obj [("status", .str "completed"), ("results", .int results)]
  | failed error => .obj [("status", .str "failed"), ("error", .str error)]
  | cancelled => .obj [("status", .str "cancelled")]

def variants : List (String × Status) :=
  [.completed, .failed, .cancelled].map fun (s : Status) => (s.text, s)

def fields : Status → List Reading.Field
  | .completed => [Reading.required "results"]
  | .failed => [Reading.required "error"]
  | .cancelled => []

structure Draft where
  results : Option Nat
  error : Option String

def Draft.finish (draft : Draft) : Status → Except DecodeError QueryOutcome
  | .completed => return .completed (← Reading.need "results" draft.results)
  | .failed => return .failed (← Reading.need "error" draft.error)
  | .cancelled => return .cancelled

def read (m : Medium) (d : Document) : Except DecodeError QueryOutcome := do
  let (status, draft) ← Reading.tagged m "an outcome" "status" variants
    fields (⟨none, none⟩ : Draft)
    (fun name d =>
      if name = "results" then do
        let results ← Reading.natural 64 d
        return ({ · with results := some results })
      else do
        let error ← Reading.string d
        return ({ · with error := some error })) d
  draft.finish status

instance : WireForm QueryOutcome := ⟨toJson, read⟩

end QueryOutcome

structure QueryLogEntry where
  traversal : CompiledTraversal
  outcome : QueryOutcome
deriving Repr

/-- What the log emits when it has no sink of its own. -/
structure QueryLogEvent where
  level : QueryLogLevel
  outcome : QueryOutcome
  traversal : String
deriving Repr

/-- The event of an entry; none where the log is off. -/
def QueryLogConfig.event? (config : QueryLogConfig) (entry : QueryLogEntry) :
    Option QueryLogEvent :=
  if config.isEnabled then
    some ⟨config.level, entry.outcome,
      match config.formatting with
      | .compact => entry.traversal.compactText
      | .indented => entry.traversal.prettyText⟩
  else none

end PropertyGraph
