import PropertyGraph.Json.Reading
import PropertyGraph.Settings.Source

/-!
# Settings of a connection

A client connects to an address and waits a while for the next response to each of its requests. On
the wire and in documents the time is given in whole seconds.
-/

namespace PropertyGraph

structure Span where
  milliseconds : Nat
deriving DecidableEq, Repr

namespace Span

def ofSeconds (seconds : Nat) : Span := ⟨1000 * seconds⟩

def seconds (s : Span) : Nat := s.milliseconds / 1000

/-- Thousandths after a point, without zeros at the end. -/
def fractionText (thousandths : Nat) : String :=
  let digits := (toString (1000 + thousandths)).toList.drop 1
  match (digits.reverse.dropWhile (· == '0')).reverse with
  | [] => ""
  | kept => "." ++ String.ofList kept

/-- The span in seconds, or in a smaller unit where it is less than one. -/
def text (s : Span) : String :=
  if s.milliseconds = 0 then "0ns"
  else if s.milliseconds < 1000 then s!"{s.milliseconds}ms"
  else toString s.seconds ++ fractionText (s.milliseconds % 1000) ++ "s"

end Span

structure ConnectionConfig where
  url : String
  /-- The longest wait for the next response. -/
  requestTimeout : Span
  /-- The number of requests that may wait to be written. -/
  bufferSize : Nat
deriving DecidableEq, Repr

namespace ConnectionConfig

def default : ConnectionConfig := ⟨"ws://localhost:8182/gremlin", .ofSeconds 30, 64⟩

def withUrl (url : String) (config : ConnectionConfig) : ConnectionConfig := { config with url }

def withTimeout (requestTimeout : Span) (config : ConnectionConfig) : ConnectionConfig :=
  { config with requestTimeout }

def withBufferSize (bufferSize : Nat) (config : ConnectionConfig) : ConnectionConfig :=
  { config with bufferSize }

def validate (config : ConnectionConfig) : Except TraversalError Unit :=
  if !(config.url.startsWith "ws://" || config.url.startsWith "wss://") then
    .error (.configuration s!"url must start with ws:// or wss://, got '{config.url}'")
  else if config.requestTimeout.milliseconds = 0 then
    .error (.configuration "request_timeout must be positive")
  else if config.bufferSize = 0 then .error (.configuration "buffer_size must be positive")
  else .ok ()

def toJson (config : ConnectionConfig) : Json :=
  .obj [("url", .str config.url), ("request_timeout", .int config.requestTimeout.seconds),
    ("buffer_size", .int config.bufferSize)]

def read (m : Medium) (d : Document) : Except DecodeError ConnectionConfig :=
  Reading.record m "settings"
    [Reading.defaulted "url", Reading.defaulted "request_timeout",
      Reading.defaulted "buffer_size"] default
    (fun name d =>
      match name with
      | "url" => do
        let url ← Reading.string d
        return withUrl url
      | "request_timeout" => do
        let seconds ← Reading.natural 64 d
        return withTimeout (.ofSeconds seconds)
      | _ => do
        let size ← Reading.natural 64 d
        return withBufferSize size) d

def ofYaml? : Yaml → Option ConnectionConfig :=
  Yaml.record? ["url", "request_timeout", "buffer_size"]
    (fun name node config =>
      match name with
      | "url" => node.text?.map (config.withUrl ·)
      | "request_timeout" => (node.natural? 64).map fun n => config.withTimeout (.ofSeconds n)
      | _ => (node.natural? 64).map (config.withBufferSize ·))
    default

/-- Reads the address as it is, the timeout in seconds and the size of the queue. -/
def ofVariables (start : String) (vars : Variables) :
    Except TraversalError ConnectionConfig := do
  let key := Variables.key start
  let config ← override (vars.text? (key "url")) withUrl default
  let config ← override (vars.value? (key "request_timeout") (parseNatural 64))
    (fun seconds => withTimeout (.ofSeconds seconds)) config
  let config ← override (vars.value? (key "buffer_size") (parseNatural 64))
    withBufferSize config
  validate config
  return config

instance : SettingsSource ConnectionConfig := ⟨ofYaml?, validate, ofVariables⟩

instance : WireForm ConnectionConfig := ⟨toJson, read⟩

end ConnectionConfig

end PropertyGraph
