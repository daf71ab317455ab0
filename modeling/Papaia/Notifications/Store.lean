/-
Module: Papaia.Notifications.Store
Purpose: `notifications.yaml`: how it is read, and how a request changes it under the lock, one system
  call at a time, while the process may stop at any of them and somebody may edit the file by hand.
Trusted boundary: YAML with the typing of the fields, and SHA-256; a rename puts a file in place at
  once, and no one but the manager touches the file beside it
Main exports: Codec, File, ConfigLoad, loadConfig, Change, Change.apply, mutated, Call, Phase, Writer,
  Accepted, State, Event, step
-/
import Papaia.Notifications.Config

namespace Papaia.Notifications.Store

abbrev Bytes := List UInt8

structure Codec where
  lib : Library
  /-- `yaml.safe_load` and the types of the fields; none where either raises. -/
  parse : Bytes → Option NotificationsConfig
  dump : NotificationsConfig → Bytes
  sha256 : Bytes → String

variable (codec : Codec)

/-! ### Reading -/

/-- A file: its mode, and what is in it unless it cannot be read. -/
structure File where
  mode : Nat
  content : Option Bytes
deriving DecidableEq, Repr

/-- The configuration, its revision, and why it is empty if the file is unusable. -/
structure ConfigLoad where
  config : NotificationsConfig
  revision : String
  error : Option String := none
deriving DecidableEq, Repr

/-- `_revision`. -/
def revisionOf (raw : Bytes) : String :=
  if raw = [] then "" else codec.sha256 raw

/-- `NotificationsConfig.model_validate(yaml.safe_load(raw))`. -/
def decode (raw : Bytes) : Option NotificationsConfig :=
  (codec.parse raw).bind fun config => (checkConfig codec.lib config).toOption

def loadConfig : Option File → ConfigLoad
  | none => ⟨{}, "", none⟩
  | some ⟨_, none⟩ => ⟨{}, "", some "notifications.yaml cannot be read."⟩
  | some ⟨_, some raw⟩ =>
      match decode codec raw with
      | some config => ⟨config, revisionOf codec raw, none⟩
      | none => ⟨{}, revisionOf codec raw, some "notifications.yaml is not valid and is ignored."⟩

/-! ### Changes -/

/-- Why a change is refused. -/
inductive Refused where
  | invalid (text : String)
  | unknown (recipientId : String)
  | unreadable (text : String)
  | stale
deriving DecidableEq, Repr

/-- What `add_recipient`, `update_recipient`, `delete_recipient` and `save_settings` ask for; the id
of a new recipient is the one that was drawn for it. -/
inductive Change where
  | add (id name : String) (kind : Kind) (target : String) (enabled : Bool) (events : List Event)
  | update (recipientId : String) (name target : Option String) (enabled : Option Bool)
      (events : Option (List Event))
  | delete (recipientId : String)
  | settings (settings : EventSettings)
deriving DecidableEq, Repr

/-- The text of a refused value. -/
def refusing {α : Type} : Checked α → Except Refused α
  | .ok a => .ok a
  | .error text => .error (.invalid text)

/-- A recipient with what was given; a target that is left out or empty stays. -/
def updated (lib : Library) (r : Recipient) (name target : Option String) (enabled : Option Bool)
    (events : Option (List Event)) : Checked Recipient := do
  let name ← name.elim (.ok r.name) validateName
  let target ← (target.filter (· ≠ "")).elim (.ok r.target) (validateTarget lib r.kind)
  pure { r with
    name := name
    target := target
    enabled := enabled.getD r.enabled
    events := events.elim r.events validateEvents }

/-- The recipient with an id, or the lookup error. -/
def found (config : NotificationsConfig) (recipientId : String) : Except Refused Recipient :=
  (config.find recipientId).elim (.error (.unknown recipientId)) .ok

/-- The first recipient with an id becomes another one. -/
def replaced (config : NotificationsConfig) (recipientId : String) (r : Recipient) :
    NotificationsConfig :=
  { config with
    recipients := config.recipients.modify
      (config.recipients.findIdx fun other => other.id = recipientId) fun _ => r }

/-- `change`, on the configuration as it is. -/
def Change.apply (lib : Library) (config : NotificationsConfig) :
    Change → Except Refused NotificationsConfig
  | .add id name kind target enabled events => do
      let name ← refusing (validateName name)
      let target ← refusing (validateTarget lib kind target)
      pure { config with
        recipients := config.recipients ++ [⟨id, name, kind, target, enabled, validateEvents events⟩] }
  | .update recipientId name target enabled events => do
      let r ← found config recipientId
      let r ← refusing (updated lib r name target enabled events)
      pure (replaced config recipientId r)
  | .delete recipientId => do
      let r ← found config recipientId
      pure { config with recipients := config.recipients.erase r }
  | .settings chosen => pure { config with settings := chosen }

/-- The change, and the check of the whole that it leaves. -/
def mutated (lib : Library) (config : NotificationsConfig) (change : Change) :
    Except Refused NotificationsConfig := do
  let draft ← change.apply lib config
  refusing (checkConfig lib draft)

/-! ### A change of the file -/

structure Call where
  revision : String
  change : Change
deriving DecidableEq, Repr

/-- What `mutate` has decided once it has the lock and has read the file. -/
def decided (file : Option File) (call : Call) : Except Refused NotificationsConfig :=
  let current := loadConfig codec file
  match current.error with
  | some text => .error (.unreadable text)
  | none =>
      if current.revision = call.revision then mutated codec.lib current.config call.change
      else .error .stale

/-- What `_write_private` does next. -/
inductive Phase where
  | unlink
  | create
  | write (written : Nat)
  | replace
  | tidy
deriving DecidableEq, Repr

/-- A request that writes: the file it read, and whether somebody edited the file since. -/
structure Writer where
  call : Call
  base : Option File
  config : NotificationsConfig
  phase : Phase := .unlink
  disturbed : Bool := false
deriving DecidableEq, Repr

/-- A change that is in place. -/
structure Accepted where
  call : Call
  config : NotificationsConfig
deriving DecidableEq, Repr

/-- What `mutate` returns. -/
def Accepted.answer (accepted : Accepted) : ConfigLoad :=
  ⟨accepted.config, revisionOf codec (codec.dump accepted.config), none⟩

/-- `0o600`. -/
def privateMode : Nat := 0o600

/-- The file and the one beside it, the request that has the lock, the changes that are in place, and
what the requests were told. -/
structure State where
  file : Option File := none
  tmp : Option File := none
  writer : Option Writer := none
  accepted : List Accepted := []
  answered : List (Call × Except Refused ConfigLoad) := []

inductive Event where
  /-- A request gets the lock, reads the file and decides. -/
  | call (call : Call)
  /-- The request that has the lock goes on; a write takes some bytes. -/
  | advance (bytes : Nat)
  /-- The system call raises; the file beside is removed on the way out, if that works. -/
  | fail (removed : Bool)
  /-- The process stops and starts again. -/
  | crash
  /-- Somebody writes the file by hand, or removes it. -/
  | edit (file : Option File)

/-- The step of a request that writes. -/
def proceed (s : State) (w : Writer) (bytes : Nat) : Option State :=
  let data := codec.dump w.config
  match w.phase with
  | .unlink => some { s with tmp := none, writer := some { w with phase := .create } }
  | .create =>
      match s.tmp with
      | none =>
          some { s with
            tmp := some ⟨privateMode, some []⟩
            writer := some { w with phase := .write 0 } }
      | some _ => none
  | .write written =>
      let phase := if data.length ≤ written + bytes then .replace else .write (written + bytes)
      some { s with
        tmp := some ⟨privateMode, some (data.take (written + bytes))⟩
        writer := some { w with phase := phase } }
  | .replace =>
      some { s with
        file := s.tmp
        tmp := none
        writer := some { w with phase := .tidy }
        accepted := s.accepted ++ [⟨w.call, w.config⟩] }
  | .tidy =>
      some { s with
        writer := none
        answered := s.answered ++
          [(w.call, .ok (Accepted.answer codec ⟨w.call, w.config⟩))] }

/-- Where a system call can raise: nothing is told to the caller but that it failed. -/
def raised (s : State) (w : Writer) (removed : Bool) : Option State :=
  match w.phase with
  | .unlink | .create => some { s with writer := none }
  | .write _ | .replace => some { s with writer := none, tmp := if removed then none else s.tmp }
  | .tidy => none

def step (s : State) : Event → Option State
  | .call call =>
      match s.writer with
      | some _ => none
      | none =>
          match decided codec s.file call with
          | .ok config => some { s with writer := some { call := call, base := s.file, config := config } }
          | .error refused => some { s with answered := s.answered ++ [(call, .error refused)] }
  | .advance bytes => s.writer.bind fun w => proceed codec s w bytes
  | .fail removed => s.writer.bind fun w => raised s w removed
  | .crash => some { s with writer := none }
  | .edit file =>
      some { s with
        file := file
        writer := s.writer.map fun w => { w with disturbed := true } }

/-- A step of the manager itself. -/
def Event.isOwn : Event → Bool
  | .edit _ => false
  | _ => true

/-- The file with a configuration that stands, as the manager writes it. -/
def kept (config : CheckedConfig codec.lib) : File :=
  ⟨privateMode, some (codec.dump config.config)⟩

end Papaia.Notifications.Store
