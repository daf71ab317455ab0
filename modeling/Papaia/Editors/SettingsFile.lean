/-
Module: Papaia.Editors.SettingsFile
Purpose: The reading of `settings.yaml` with every way the YAML library can end, and its writing.
Trusted boundary: EditorRuntime; `yaml.safe_load` with all its exceptions
Main exports: Parsed, settingsOf, loadFile, refreshInterval, saveFile
-/
import Papaia.Editors.Settings

namespace Papaia.Editors

/-- How `yaml.safe_load` ends: with a document, with a `YAMLError`, or with another exception (a date
that does not exist, a number with too many digits, a nesting that is too deep). -/
inductive Parsed where
  | document (value : Val)
  | yamlError
  | raised
deriving Repr

/-- The outcome of a library that only raises `YAMLError`. -/
def Parsed.ofExcept : Except String Val → Parsed
  | .ok value => .document value
  | .error _ => .yamlError

variable (rt : EditorRuntime) (safeLoad : String → Parsed)

/-- The settings of a document, from `isinstance(raw, dict)` on. -/
def settingsOf : Val → ManagerSettings
  | .map raw => (settingsFrom rt raw).getD {}
  | _ => {}

/-- `load_settings`; none where it raises. -/
def loadFile : Content → Option ManagerSettings
  | .absent => some {}
  | .unreadable => some {}
  | .file raw =>
      match readText raw with
      | none => none
      | some text =>
          match safeLoad text with
          | .document value => some (settingsOf rt value)
          | .yamlError => some {}
          | .raised => none

/-- `refresh_interval`; none where it raises. -/
def refreshInterval (content : Content) : Option Int :=
  (loadFile rt safeLoad content).map ManagerSettings.refreshSeconds

/-- `save_settings`: what the file holds afterwards. -/
def saveFile (settings : ManagerSettings) : Content :=
  .file (encode (settingsText rt settings))

end Papaia.Editors
