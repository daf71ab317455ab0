/-
Module: Papaia.Addons.Upgrades
Purpose: The version of an add-on on its way from the manifest to the comparison: what a staged
  directory says its version is, what `installed.yaml` holds after an upgrade, and whether the
  catalog offers another version.
Trusted boundary: `str` of a value that is no text, `datetime.fromisoformat`
Main exports: manifestVersionOf, Staged, recordInstalled, loadEntry, syncInstalledAfterUpgrade,
  updateOffered
-/
import Papaia.Backup.Cron
import Papaia.Notifications.Findings

namespace Papaia.Addons

open Text Semver Notifications

/-! ### The version of a directory -/

/-- `manifest_version_of`; the document is none where the file cannot be read or is no YAML. -/
def manifestVersionOf (pyStr : Val → String) (document : Option Val) : String :=
  match document with
  | none => "unknown"
  | some raw =>
      if raw.truthy then
        match raw.mapping? with
        | some manifest => pyStr ((manifest.get? "version").getD (.str "unknown"))
        | none => "unknown"
      else "unknown"

/-- `Staged`, a version written to a directory of its own. -/
structure Staged where
  revision : String
  commit : String
  path : String
  version : String
deriving DecidableEq, Repr

/-! ### `installed.yaml` -/

/-- `HistoryEntry`. -/
structure HistoryEntry where
  commit : String
  manifestVersion : String
  installedAt : String
deriving DecidableEq, Repr

/-- An entry of `installed.yaml` as `load_installed` gives it. -/
structure InstalledEntry extends InstalledAddon where
  commit : String
  installedAt : String
  history : List HistoryEntry := []
deriving DecidableEq, Repr

/-- `MAX_SNAPSHOTS`. -/
def maxSnapshots : Nat := 3

def HistoryEntry.dump (entry : HistoryEntry) : Val :=
  .map [(.str "commit", .str entry.commit),
    (.str "manifest_version", .str entry.manifestVersion),
    (.str "installed_at", .str entry.installedAt)]

/-- The entry `record_installed` writes, with a history. -/
def recordedEntry (catalog commit manifestVersion now : String) (history : List HistoryEntry) :
    Mapping :=
  [(.str "catalog", .str catalog), (.str "commit", .str commit),
    (.str "manifest_version", .str manifestVersion), (.str "installed_at", .str now),
    (.str "managed", .bool true),
    (.str "history", .list ((history.take maxSnapshots).map HistoryEntry.dump))]

/-- `setdefault(key, value)`. -/
def setDefault (m : Mapping) (key : String) (value : Val) : Mapping :=
  if (m.get? key).isSome then m else m.put (.str key) value

/-- `record_installed` on the document of the file; none where `addons` holds no mapping, or the
name something that has no `get`. -/
def recordInstalled (document : Mapping) (name : String) (entry : Mapping) : Option Mapping :=
  let raw := setDefault (setDefault document "version" (.int 1)) "addons" (.map [])
  match (raw.getD "addons").mapping? with
  | some addons =>
      let old := addons.getD name
      if old.truthy && old.mapping?.isNone then none
      else some (raw.put (.str "addons") (.map (addons.put (.str name) (.map entry))))
  | none => none

section Load

variable (pyStr : Val → String) (readsTime : String → Bool)

/-- `_load_history`: what is no entry is left out. -/
def loadHistory : Val → List HistoryEntry
  | .list items => (items.take maxSnapshots).filterMap fun item => do
      let m ← item.mapping?
      let commit ← m.get? "commit"
      let manifestVersion ← m.get? "manifest_version"
      let installedAt ← m.get? "installed_at"
      if readsTime (pyStr installedAt) then
        return {
          commit := pyStr commit
          manifestVersion := pyStr manifestVersion
          installedAt := pyStr installedAt }
      else none
  | _ => []

/-- One entry of `load_installed`; none where it is skipped. -/
def loadEntry (entry : Mapping) : Option InstalledEntry := do
  let catalog ← entry.get? "catalog"
  let commit ← entry.get? "commit"
  let manifestVersion ← entry.get? "manifest_version"
  let installedAt ← entry.get? "installed_at"
  if readsTime (pyStr installedAt) then
    return {
      catalog := pyStr catalog
      commit := pyStr commit
      manifestVersion := pyStr manifestVersion
      installedAt := pyStr installedAt
      managed := ((entry.get? "managed").getD (.bool true)).truthy
      history := loadHistory pyStr readsTime (entry.getD "history") }
  else none

/-- `load_installed(config_dir).get(name)`. -/
def loadedFrom (document : Mapping) (name : String) : Option InstalledEntry := do
  let addons ← (document.getD "addons").mapping?
  let entry ← (addons.getD name).mapping?
  loadEntry pyStr readsTime entry

end Load

/-! ### After an upgrade -/

/-- `next_history`. -/
def nextHistory (inst : InstalledEntry) (newCommit : String) : List HistoryEntry :=
  if inst.commit = newCommit then inst.history
  else
    let older : HistoryEntry :=
      { commit := inst.commit, manifestVersion := inst.manifestVersion
        installedAt := inst.installedAt }
    (older :: inst.history).take maxSnapshots

/-- `sync_installed_after_upgrade`: the document it leaves, or none where it records nothing.
`registered` is the directory `deployment.yaml` has for the add-on. -/
def syncInstalledAfterUpgrade (sameDir : String → String → Bool) (registered : Option String)
    (document : Mapping) (name : String) (inst : InstalledEntry) (staged : Staged) (now : String) :
    Option Mapping :=
  match registered with
  | none => none
  | some path =>
      if sameDir path staged.path then
        recordInstalled document name
          (recordedEntry inst.catalog staged.commit staged.version now
            (nextHistory inst staged.commit))
      else none

/-! ### The offer -/

/-- The digits `_key` gives to `int`, of a text it accepts. -/
def numerals (text : String) : List (List Char) :=
  let version := (cutAt '+' (strip text).toList).1
  let (numbers, pre) := cutAt '-' version
  numbers.splitOn '.' ++
    ((pre.map (·.splitOn '.')).getD []).filter fun part => part.all Char.isDigit

/-- Whether `_key` raises: `int` refuses a number of too many digits. -/
def keyRaises (text : String) : Bool :=
  (readVersion text).isSome && (numerals text).any fun digits => Backup.maxDigits < digits.length

/-- `update_available` for an add-on that is installed; none where the comparison raises. -/
def updateOffered (pyStr : Val → String) (installed : InstalledAddon) (version : Val) :
    Option Bool :=
  match version with
  | .null => some false
  | version =>
      if installed.managed &&
          (keyRaises (pyStr version) || keyRaises installed.manifestVersion) then none
      else some (updateAvailable pyStr installed version)

end Papaia.Addons
