/-
Module: Papaia.Notifications.Detect
Purpose: What calls for a notification: the conditions that hold now, and which of them are new
  against what the manager remembers.
Trusted boundary: a time stamp is the instant it stands for (the manager writes them itself)
Main exports: Event, Condition, Finding, Seen, Memory, decideFinding, decide, Pass, memoryAfter,
  noticesAbout
-/
import Papaia.Backup.RestorePoint
import Papaia.Data.Value
import Papaia.Lib.Keyed
import Mathlib.Logic.Function.Basic

namespace Papaia.Notifications

open Text

/-! ### Events and conditions -/

inductive Event where
  | jobFailed
  | backupOverdue
  | serviceUnhealthy
  | updateAvailable
  | certExpiring
deriving DecidableEq, Repr

def Event.value : Event → String
  | .jobFailed => "job_failed"
  | .backupOverdue => "backup_overdue"
  | .serviceUnhealthy => "service_unhealthy"
  | .updateAvailable => "update_available"
  | .certExpiring => "cert_expiring"

/-- `EDGE_EVENTS`. -/
def Event.isEdge : Event → Bool
  | .backupOverdue | .serviceUnhealthy => true
  | _ => false

/-- Something that is true now and may call for a notification. -/
structure Condition where
  event : Event
  key : String
  marker : String
  subject : String
  message : String
  details : Mapping := []

/-- The conditions of one event that hold now; `scope` is the prefix of the keys it is complete
for. -/
structure Finding where
  event : Event
  conditions : List Condition
  scope : String := ""
  ofEvent : ∀ c ∈ conditions, c.event = event := by simp

/-- `_key`: the name under which a condition is remembered. -/
def storedKey (event : Event) (key : String) : String :=
  event.value ++ "|" ++ key

/-! ### The memory -/

/-- What is remembered about one condition.  A time of the last notification that is empty or no
time stamp counts as none. -/
structure Seen where
  active : Bool := false
  marker : String := ""
  lastSent : Option Int := none
deriving DecidableEq, Repr

/-- `NotifyState.seen`. -/
abbrev Memory := String → Option Seen

/-- `_FORGET_AFTER`. -/
def forgetAfter : Int := 30 * Backup.day

/-- `_outside_window`. -/
def outsideWindow (seen : Seen) (now debounceMinutes : Int) : Bool :=
  match seen.lastSent with
  | none => true
  | some last => debounceMinutes * Backup.minute ≤ now - last

/-- `_forgotten`. -/
def forgotten (entry : Seen) (now : Int) : Bool :=
  match entry.lastSent with
  | none => true
  | some last => forgetAfter < now - last

/-! ### Which conditions are new -/

/-- Whether a condition with a marker is reported, given what is remembered about it. -/
def fires (event : Event) (now debounceMinutes : Int) (seen : Option Seen) (marker : String) :
    Bool :=
  match seen with
  | none => true
  | some seen =>
      if event.isEdge then
        !seen.active && (event != .serviceUnhealthy || outsideWindow seen now debounceMinutes)
      else seen.marker != marker

/-- The entry of a condition that holds now. -/
def noted (event : Event) (now debounceMinutes : Int) (seen : Option Seen) (marker : String) :
    Seen where
  active := true
  marker := marker
  lastSent :=
    if fires event now debounceMinutes seen marker then some now else (seen.getD {}).lastSent

/-- The entry of a condition that held at the last look and does not hold now.  An edge event keeps
its entry, a marker event drops it. -/
def dropped (event : Event) (now : Int) (entry : Seen) : Option Seen :=
  if event.isEdge then
    if forgotten entry now then none else some { entry with active := false }
  else none

/-- `current`: of the conditions of one key the last one stands. -/
def Finding.current (f : Finding) : List Condition :=
  Keyed.lastOfEach Condition.key f.conditions

/-- One round of the loop over the conditions that hold now. -/
def noteCondition (event : Event) (now debounceMinutes : Int) (new : List Condition × Memory)
    (c : Condition) : List Condition × Memory :=
  let stored := storedKey event c.key
  let seen := new.2 stored
  (if fires event now debounceMinutes seen c.marker then new.1 ++ [c] else new.1,
    Function.update new.2 stored (some (noted event now debounceMinutes seen c.marker)))

/-- One round of the loop over the findings. -/
def decideFinding (now debounceMinutes : Int) (new : List Condition × Memory) (f : Finding) :
    List Condition × Memory :=
  let noted := f.current.foldl (noteCondition f.event now debounceMinutes) new
  (noted.1, fun stored =>
    if startsWith stored (storedKey f.event f.scope) &&
        !(f.current.any fun c => storedKey f.event c.key == stored) then
      (noted.2 stored).bind (dropped f.event now)
    else noted.2 stored)

/-- `decide`: the conditions that are new, and what is remembered. -/
def decide (findings : List Finding) (seen : Memory) (now debounceMinutes : Int) :
    List Condition × Memory :=
  findings.foldl (decideFinding now debounceMinutes) ([], seen)

/-! ### Passes -/

/-- One pass: when it was, and what the detectors found. -/
structure Pass where
  now : Int
  findings : List Finding

/-- What is remembered after some passes. -/
def memoryAfter (debounceMinutes : Int) (seen : Memory) : List Pass → Memory
  | [] => seen
  | pass :: rest =>
      memoryAfter debounceMinutes (decide pass.findings seen pass.now debounceMinutes).2 rest

/-- The notifications about a key of an event. -/
def about (event : Event) (key : String) (notices : List Condition) : List Condition :=
  notices.filter fun c => c.event == event && c.key == key

/-- The notifications about a key: when each is sent, and its marker. -/
def noticesAbout (debounceMinutes : Int) (event : Event) (key : String) (seen : Memory) :
    List Pass → List (Int × String)
  | [] => []
  | pass :: rest =>
      let decided := decide pass.findings seen pass.now debounceMinutes
      (about event key decided.1).map (fun c => (pass.now, c.marker)) ++
        noticesAbout debounceMinutes event key decided.2 rest

end Papaia.Notifications
