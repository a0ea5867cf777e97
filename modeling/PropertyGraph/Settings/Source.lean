import PropertyGraph.Settings.Variables
import PropertyGraph.Yaml.Reading

/-!
# Where settings come from

Settings have defaults, can be checked, and are read from variables or from a document. What is read
from a document is checked before it is used.
-/

namespace PropertyGraph

class SettingsSource (α : Type) where
  /-- The settings of a document. -/
  ofYaml? : Yaml → Option α
  validate : α → Except TraversalError Unit
  /-- Settings from variables whose names have a common beginning. -/
  ofVariables : (start : String) → Variables → Except TraversalError α

namespace SettingsSource

variable [SettingsSource α]

/-- Reads and checks the settings of a document. -/
def ofYamlText (text : String) : Except TraversalError α := do
  match (Yaml.ofText? text).bind ofYaml? with
  | some settings =>
    validate settings
    return settings
  | none => throw (.configuration "Invalid YAML")

/-- Reads the settings in a file. The content is an error where the file cannot be read. -/
def ofYamlFile (path : String) (content : Except String String) : Except TraversalError α :=
  match content with
  | .ok text => ofYamlText text
  | .error reason => .error (.configuration s!"Cannot read {path}: {reason}")

end SettingsSource

/-- Replaces a setting by the value of a variable that is set. -/
def override (setting : Except TraversalError (Option β)) (replace : β → α → α) (settings : α) :
    Except TraversalError α := do
  match ← setting with
  | some value => return replace value settings
  | none => return settings

end PropertyGraph
