/-
Module: Papaia.Notifications.Service
Purpose: The background task of the notifications: passes that look, record and deliver, reports of
  failed jobs beside them, and a process that may stop between any two steps.
Trusted boundary: what a detector finds, and whether the state file can be written, is data; the
  monotonic clock starts anew with the process
Main exports: detectedEvents, due, lookedFor, findingsOf, Notice, PassRecord, Delivery, JobReport,
  State, Event, step
-/
import Papaia.Notifications.Config

namespace Papaia.Notifications.Service

/-- `UPDATE_CHECK_INTERVAL_SECONDS`, in seconds. -/
def updateInterval : Int := 3600

/-- The events of `build_detectors`, in its order. -/
def detectedEvents : List Event :=
  [.backupOverdue, .serviceUnhealthy, .certExpiring, .updateAvailable]

/-! ### Looking -/

/-- `_due`: the answer, and the last check of the release tags after it. -/
def due (event : Event) (clock : Int) (lastUpdateCheck : Option Int) : Bool × Option Int :=
  if event ≠ .updateAvailable then (true, lastUpdateCheck)
  else
    match lastUpdateCheck with
    | none => (true, some clock)
    | some last => if clock - last < updateInterval then (false, some last) else (true, some clock)

/-- The events a pass looks for: somebody chose them, and they are due. -/
def lookedFor (config : NotificationsConfig) (clock : Int) :
    List Event → Option Int → List Event × Option Int
  | [], last => ([], last)
  | event :: rest, last =>
      if config.wants event then
        let asked := due event clock last
        let others := lookedFor config clock rest asked.2
        (if asked.1 then event :: others.1 else others.1, others.2)
      else lookedFor config clock rest last

/-- What the detectors find; one that raises finds nothing. -/
def findingsOf (answers : Event → Option (List Finding)) (events : List Event) : List Finding :=
  events.flatMap fun event => (answers event).getD []

/-! ### The state -/

variable (lib : Library)

/-- A condition that a pass has decided to report, as the nth of that pass. -/
structure Notice where
  pass : Nat
  index : Nat
  condition : Condition

/-- A pass that has decided: what it found, when and with which window, and whether it could store
what it remembers. -/
structure PassRecord where
  now : Int
  debounceMinutes : Int
  findings : List Finding
  stored : Bool
  new : List Condition

/-- A failed job, as it is reported. -/
structure JobReport where
  id : String
  action : String
  target : String
  user : String
  exitCode : Option Int
deriving DecidableEq, Repr

/-- `message`. -/
def JobReport.message (job : JobReport) : String :=
  "The job " ++ Text.strip (job.action ++ " " ++ job.target) ++ " failed."

/-- The task that reports a failed job: the configuration it has read, who has been told and who is
next; a task ends with its process. -/
structure ReportTask where
  job : JobReport
  config : Option (CheckedConfig lib) := none
  sent : List Recipient := []
  remaining : List Recipient := []
  alive : Bool := true

/-- A fetch of the release tags. -/
structure Fetch where
  process : Nat
  clock : Int
deriving DecidableEq, Repr

/-- The state file, what the process holds, and what has happened. -/
structure State where
  memory : Memory := fun _ => none
  queue : List Notice := []
  sending : Option (Notice × List Recipient) := none
  lastUpdateCheck : Option Int := none
  process : Nat := 0
  passes : List PassRecord := []
  addressed : List (Notice × CheckedConfig lib) := []
  delivered : List (Notice × Recipient) := []
  fetches : List Fetch := []
  tasks : List (ReportTask lib) := []

inductive Event where
  /-- A pass, up to the first delivery: the configuration it reads, the two clocks, what the
  detectors answer, and whether the state can be written. -/
  | pass (config : CheckedConfig lib) (now clock : Int)
      (answers : Papaia.Notifications.Event → Option (List Finding)) (stored : Bool)
  /-- The pass turns to its next condition, and reads the configuration again. -/
  | address (config : CheckedConfig lib)
  /-- The next recipient of that condition is sent it. -/
  | deliver
  /-- A job ends. -/
  | jobEnds (job : JobReport) (failed : Bool)
  /-- The task of a failed job reads the configuration. -/
  | open (k : Nat) (config : CheckedConfig lib)
  /-- The next recipient of the report is sent it. -/
  | report (k : Nat)
  /-- The process stops and starts again. -/
  | crash

variable {lib}

/-- The recipients that are left, if there are any. -/
def leftOf (notice : Notice) (recipients : List Recipient) : Option (Notice × List Recipient) :=
  if recipients.isEmpty then none else some (notice, recipients)

/-- The conditions of a pass, numbered. -/
def numbered (pass : Nat) (new : List Condition) : List Notice :=
  new.mapIdx fun index condition => ⟨pass, index, condition⟩

def runOnce (s : State lib) (config : NotificationsConfig) (now clock : Int)
    (answers : Papaia.Notifications.Event → Option (List Finding)) (stored : Bool) : State lib :=
  let looked := lookedFor config clock detectedEvents s.lastUpdateCheck
  let findings := findingsOf answers looked.1
  let debounceMinutes := config.settings.debounceMinutes
  let decided := Notifications.decide findings s.memory now debounceMinutes
  { s with
    memory := if stored then decided.2 else s.memory
    lastUpdateCheck := looked.2
    fetches :=
      if looked.1.contains .updateAvailable then s.fetches ++ [⟨s.process, clock⟩] else s.fetches
    queue := numbered s.passes.length decided.1
    passes := s.passes ++ [⟨now, debounceMinutes, findings, stored, decided.1⟩] }

/-- A task goes on. -/
def setTask (s : State lib) (k : Nat) (task : ReportTask lib) : State lib :=
  { s with tasks := s.tasks.set k task }

def step (s : State lib) : Event lib → Option (State lib)
  | .pass config now clock answers stored =>
      if s.queue.isEmpty && s.sending.isNone then
        some (runOnce s config.config now clock answers stored)
      else none
  | .address config =>
      match s.sending, s.queue with
      | none, notice :: rest =>
          some { s with
            queue := rest
            sending := leftOf notice (config.config.subscribedTo notice.condition.event)
            addressed := s.addressed ++ [(notice, config)] }
      | _, _ => none
  | .deliver =>
      match s.sending with
      | some (notice, r :: rest) =>
          some { s with
            sending := leftOf notice rest
            delivered := s.delivered ++ [(notice, r)] }
      | _ => none
  | .jobEnds job failed => some (if failed then { s with tasks := s.tasks ++ [{ job := job }] } else s)
  | .open k config =>
      (s.tasks[k]?).bind fun task =>
        if task.alive && task.config.isNone then
          some (setTask s k { task with
            config := some config, remaining := config.config.subscribedTo .jobFailed })
        else none
  | .report k =>
      (s.tasks[k]?).bind fun task =>
        match task.alive, task.remaining with
        | true, r :: rest =>
            some (setTask s k { task with sent := task.sent ++ [r], remaining := rest })
        | _, _ => none
  | .crash =>
      some { s with
        queue := []
        sending := none
        lastUpdateCheck := none
        process := s.process + 1
        tasks := s.tasks.map fun task => { task with alive := false } }

/-- The conditions of the passes from the nth on, in the order they were decided. -/
def noticesFrom (first : Nat) : List PassRecord → List Notice
  | [] => []
  | record :: rest => numbered first record.new ++ noticesFrom (first + 1) rest

def State.decided (s : State lib) : List Notice :=
  noticesFrom 0 s.passes

end Papaia.Notifications.Service
