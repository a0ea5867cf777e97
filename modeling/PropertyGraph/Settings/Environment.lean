import PropertyGraph.Output
import PropertyGraph.QueryLog
import PropertyGraph.Settings.Source

/-!
# Settings of an environment

An environment has settings for its query log and for elements of another label. There are no settings
that could not be used.
-/

namespace PropertyGraph

structure EnvironmentConfig where
  queryLog : QueryLogConfig
  projection : ProjectionMode
deriving DecidableEq, Repr

namespace EnvironmentConfig

def default : EnvironmentConfig := ⟨.default, .exclude⟩

def withLevel (level : QueryLogLevel) (config : EnvironmentConfig) : EnvironmentConfig :=
  { config with queryLog := { config.queryLog with level } }

def withFormatting (formatting : QueryLogFormatting) (config : EnvironmentConfig) :
    EnvironmentConfig :=
  { config with queryLog := { config.queryLog with formatting } }

def withProjection (projection : ProjectionMode) (config : EnvironmentConfig) :
    EnvironmentConfig :=
  { config with projection }

def validate (_ : EnvironmentConfig) : Except TraversalError Unit := .ok ()

def toJson (config : EnvironmentConfig) : Json :=
  .obj [("query_log", config.queryLog.toJson), ("projection", config.projection.toJson)]

def read (m : Medium) (d : Document) : Except DecodeError EnvironmentConfig :=
  Reading.record m "settings"
    [Reading.defaulted "query_log", Reading.defaulted "projection"] default
    (fun name d =>
      if name = "query_log" then do
        let queryLog ← QueryLogConfig.read m d
        return ({ · with queryLog })
      else do
        let projection ← ProjectionMode.read m d
        return withProjection projection) d

def logOfYaml? : Yaml → Option QueryLogConfig :=
  Yaml.record? ["level", "formatting"]
    (fun name node config =>
      if name = "level" then
        (node.choice? QueryLogLevel.variants).map fun level => { config with level }
      else
        (node.choice? QueryLogFormatting.variants).map fun formatting => { config with formatting })
    .default

def ofYaml? : Yaml → Option EnvironmentConfig :=
  Yaml.record? ["query_log", "projection"]
    (fun name node config =>
      if name = "query_log" then (logOfYaml? node).map fun queryLog => { config with queryLog }
      else (node.choice? ProjectionMode.variants).map (config.withProjection ·))
    default

/-- Reads the level, the formatting and the projection mode, in this order. -/
def ofVariables (start : String) (vars : Variables) :
    Except TraversalError EnvironmentConfig := do
  let value? {β : Type} (name : String) (parse : String → Except String β) :=
    vars.value? (Variables.key start name) parse
  let config ← override (value? "query_log_level" QueryLogLevel.ofText) withLevel default
  let config ← override (value? "query_log_format" QueryLogFormatting.ofText) withFormatting config
  let config ← override (value? "projection" ProjectionMode.ofText) withProjection config
  validate config
  return config

instance : SettingsSource EnvironmentConfig := ⟨ofYaml?, validate, ofVariables⟩

instance : WireForm EnvironmentConfig := ⟨toJson, read⟩

end EnvironmentConfig

end PropertyGraph
