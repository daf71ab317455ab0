/-
Module: Papaia.Backup.Scheduler
Purpose: The backup scheduler between its awaits: what is planned, which calls of `fire` are under
  way and how far they are, next to the saves of the schedule, the job queue and the catalogue.
Trusted boundary: Calendar, the cadence of a schedule, APScheduler's choice of the moment, Docker
Main exports: Attempt, Phase, Flight, State, Event, step, startScheduler
-/
import Papaia.Backup.BackupRun
import Papaia.Backup.Schedule
import Mathlib.Logic.Function.Basic

namespace Papaia.Backup

/-- `MAX_ATTEMPTS`. -/
def maxAttempts : Nat := 6

/-- `RETRY_DELAY`. -/
def retryDelay : Int := 10 * minute

/-- `CATCHUP_DELAY`. -/
def catchupDelay : Int := 120 * second

/-- `misfire_grace_time` of a retry and of a catch-up. -/
def oneShotGrace : Int := 3600 * second

/-- `SCHEDULER_USER`. -/
def schedulerUser : String := "scheduler"

/-! ### Tries, flights and what is planned -/

/-- One try of a due run.  `due` numbers the runs that came due and `era` the schedules that were
stored; the source keeps neither, they say what a try belongs to. -/
structure Attempt where
  due : Nat
  era : Nat
  /-- The argument of `fire`. -/
  number : Nat
  within : number ≤ maxAttempts
deriving DecidableEq, Repr

/-- A try with a date of its own: a retry or the catch-up. -/
structure Planned where
  attempt : Attempt
  runDate : Int
deriving DecidableEq, Repr

/-- The ids of the scheduler's jobs. -/
inductive Slot where
  | schedule
  | retry
  | catchup
deriving DecidableEq, Repr

/-- Where a call of `fire` waits. -/
inductive Phase where
  /-- APScheduler has made the task, and the call has not begun. -/
  | submitted
  /-- It waits for Docker. -/
  | docker (current : BackupSchedule) (backupDir : String)
  /-- It waits for the thread that reads the catalogue. -/
  | reading (current : BackupSchedule) (backupDir : String)
  /-- The thread has read the catalogue, and the loop has not come back to the call. -/
  | read (current : BackupSchedule) (backupDir : String) (points : List RestorePoint)
deriving DecidableEq, Repr

/-- A call of `fire` that is under way. -/
structure Flight where
  attempt : Attempt
  phase : Phase
deriving DecidableEq, Repr

/-- The audit entry of a run that could not start. -/
structure Skipped where
  target : String
  reason : String
  attempt : Nat
  gaveUp : Bool
deriving DecidableEq, Repr

/-- A backup that a call of `fire` put into the queue. -/
structure Started where
  attempt : Attempt
  job : Job
deriving DecidableEq, Repr

structure State where
  /-- What `load_schedule` gives. -/
  stored : Option BackupSchedule
  /-- How often the stored schedule was changed. -/
  era : Nat := 0
  /-- The schedule that the job `backup-schedule` runs by. -/
  scheduled : Option BackupSchedule
  retry : Option Planned := none
  catchup : Option Planned := none
  /-- The task of each of the scheduler's jobs: APScheduler runs one at a time. -/
  running : Slot → Option Flight := fun _ => none
  jobs : List Job
  catalogue : List RestorePoint
  audit : List Skipped := []
  /-- The number of the next run that comes due. -/
  nextDue : Nat
  /-- The due run of each call of `fire` that has begun. -/
  fired : List Nat := []
  started : List Started := []

/-- What the scheduler asks about a time stamp and about a schedule. -/
structure Surroundings where
  calendar : Calendar
  /-- `cadence_of`. -/
  cadence : String → String → Cadence

/-- `plan_retention` of a schedule. -/
def Surroundings.plan (env : Surroundings) (schedule : BackupSchedule)
    (points : List RestorePoint) (now : Int) : RetentionPlan :=
  planRetention env.calendar (env.cadence schedule.cron schedule.timezone) schedule points now

/-- A schedule that runs. -/
def active (schedule : Option BackupSchedule) : Option BackupSchedule :=
  schedule.filter BackupSchedule.enabled

/-! ### The parts of `BackupScheduler` -/

/-- `apply`. -/
def State.apply (s : State) (current : Option BackupSchedule) : State :=
  { s with retry := none, catchup := none, scheduled := active current }

/-- The task of a job becomes another one, or none. -/
def State.become (s : State) (slot : Slot) (flight : Option Flight) : State :=
  { s with running := Function.update s.running slot flight }

/-- `_skip`. -/
def State.skip (s : State) (attempt : Attempt) (reason : String) (backupDir : Option String)
    (now : Int) : State :=
  let audited : State :=
    { s with audit := s.audit ++
        [⟨backupDir.getD "", reason, attempt.number, maxAttempts ≤ attempt.number⟩] }
  if h : maxAttempts ≤ attempt.number then audited
  else
    let next : Attempt :=
      ⟨attempt.due, attempt.era, attempt.number + 1, Nat.lt_of_not_le h⟩
    { audited with retry := some ⟨next, now + retryDelay⟩ }

/-- `fire` up to its first await. -/
def State.begins (s : State) (slot : Slot) (attempt : Attempt) (backupDir : Option String)
    (reachable : Bool) (now : Int) : State :=
  let begun : State := { s with fired := s.fired ++ [attempt.due] }
  match active s.stored with
  | none => begun.become slot none
  | some current =>
      match backupDir.filter fun _ => reachable with
      | none =>
          (begun.skip attempt "the backup directory is not reachable" backupDir now).become slot
            none
      | some dir => begun.become slot (some ⟨attempt, .docker current dir⟩)

/-- `fire` once Docker has answered. -/
def State.afterDocker (s : State) (slot : Slot) (attempt : Attempt) (current : BackupSchedule)
    (backupDir : String) (blocking : Option BlockingRunner) (now : Int) : State :=
  match blocking with
  | some runner =>
      (s.skip attempt ("a " ++ runner.label ++ " of " ++ runner.target ++ " is still running")
        backupDir now).become slot none
  | none =>
      match activeJob s.jobs with
      | some job =>
          (s.skip attempt ("a " ++ job.action ++ " job is already running") backupDir now).become
            slot none
      | none => s.become slot (some ⟨attempt, .reading current backupDir⟩)

/-- The backup of a call that has the catalogue. -/
def scheduledBackup (env : Surroundings) (current : BackupSchedule) (backupDir : String)
    (points : List RestorePoint) (now : Int) : Job :=
  let plan := env.plan current points now
  backupJob backupDir schedulerUser plan.days "schedule"
    (plan.skipped.map fun reason => "retention not applied: " ++ reason) none

/-- The end of `fire`, with the backup in the queue. -/
def State.enqueue (s : State) (slot : Slot) (attempt : Attempt) (job : Job) : State :=
  let enqueued : State :=
    { s with jobs := s.jobs ++ [job], started := s.started ++ [⟨attempt, job⟩] }
  enqueued.become slot none

/-- APScheduler runs a job that is planned once: it leaves the store, and gets a task unless it is
too late or its last task has not ended. -/
def State.submit (s : State) (slot : Slot) (planned : Planned) (now : Int) : State :=
  if (s.running slot).isSome || oneShotGrace < now - planned.runDate then s
  else s.become slot (some ⟨planned.attempt, .submitted⟩)

/-! ### Steps -/

inductive Event where
  /-- The page saves a schedule or removes it, and applies that. -/
  | save (new : Option BackupSchedule)
  /-- Anything else puts a job into the queue. -/
  | otherJob (job : Job)
  | work (succeeds : Bool)
  /-- The catalogue changes. -/
  | rewrite (points : List RestorePoint)
  /-- A job of the scheduler comes due. -/
  | comesDue (slot : Slot) (now : Int)
  /-- A call of `fire` begins, and sees this backup directory. -/
  | begins (slot : Slot) (backupDir : Option String) (reachable : Bool) (now : Int)
  /-- Docker has answered a call. -/
  | answered (slot : Slot) (restore upgrade : Except String (Option RunnerStatus)) (now : Int)
  /-- The thread of a call reads the catalogue. -/
  | load (slot : Slot)
  /-- A call goes on with what its thread has read. -/
  | resume (slot : Slot) (now : Int)

def step (env : Surroundings) (s : State) : Event → Option State
  | .save new =>
      some ({ s with stored := new, era := if new = s.stored then s.era else s.era + 1 }.apply new)
  | .otherJob job => some { s with jobs := s.jobs ++ [{ job with status := .queued }] }
  | .work succeeds => some { s with jobs := work succeeds s.jobs }
  | .rewrite points => some { s with catalogue := points }
  | .comesDue .schedule _ =>
      if s.scheduled.isNone || (s.running .schedule).isSome then none
      else
        let first : Attempt := ⟨s.nextDue, s.era, 1, by decide⟩
        some ({ s with nextDue := s.nextDue + 1 }.become .schedule (some ⟨first, .submitted⟩))
  | .comesDue .retry now =>
      match s.retry with
      | none => none
      | some planned =>
          if now < planned.runDate then none
          else some ({ s with retry := none }.submit .retry planned now)
  | .comesDue .catchup now =>
      match s.catchup with
      | none => none
      | some planned =>
          if now < planned.runDate then none
          else some ({ s with catchup := none }.submit .catchup planned now)
  | .begins slot backupDir reachable now =>
      match s.running slot with
      | some ⟨attempt, .submitted⟩ => some (s.begins slot attempt backupDir reachable now)
      | _ => none
  | .answered slot restore upgrade now =>
      match s.running slot with
      | some ⟨attempt, .docker current backupDir⟩ =>
          some (s.afterDocker slot attempt current backupDir (blockingRunner restore upgrade) now)
      | _ => none
  | .load slot =>
      match s.running slot with
      | some ⟨attempt, .reading current backupDir⟩ =>
          some (s.become slot (some ⟨attempt, .read current backupDir s.catalogue⟩))
      | _ => none
  | .resume slot now =>
      match s.running slot with
      | some ⟨attempt, .read current backupDir points⟩ =>
          some (s.enqueue slot attempt (scheduledBackup env current backupDir points now))
      | _ => none

/-- `start`: the stored schedule is applied, and a missed run is planned. -/
def startScheduler (env : Surroundings) (stored : Option BackupSchedule) (jobs : List Job)
    (points : List RestorePoint) (now : Int) : State :=
  let missed := (active stored).any fun current =>
    current.runOnStartup = .ifMissed &&
      catchupDue env.calendar (env.cadence current.cron current.timezone) points now
  { stored := stored
    scheduled := active stored
    catchup := if missed then some ⟨⟨0, 0, 1, by decide⟩, now + catchupDelay⟩ else none
    jobs := jobs
    catalogue := points
    nextDue := 1 }

end Papaia.Backup
