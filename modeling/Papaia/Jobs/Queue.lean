/-
Module: Papaia.Jobs.Queue
Purpose: The queue of jobs and its worker, one step between two awaits at a time, with every write
  to a file that may fail.
Trusted boundary: the clock, what the file system answers, what a callback does; ids are new
Main exports: Job, Worker, State, activeJob, Event, step
-/
import Papaia.Backup.BackupRun
import Mathlib.Data.List.Sort

namespace Papaia.Jobs

open Backup (JobStatus)

/-! ### Jobs -/

/-- A job; times are in microseconds. -/
structure Job where
  id : Nat
  action : String
  target : String
  user : String
  createdAt : Int
  status : JobStatus := .queued
  startedAt : Option Int := none
  finishedAt : Option Int := none
  exitCode : Option Int := none
deriving DecidableEq, Repr

def Job.isActive (job : Job) : Bool :=
  job.status = .queued || job.status = .running

/-- `active_job`: the oldest job that has not finished, by the time it was created. -/
def activeJob (jobs : List Job) : Option Job :=
  (jobs.insertionSort fun one other => one.createdAt ≤ other.createdAt).find? Job.isActive

/-! ### The state -/

/-- The worker: not started, between two jobs, in a job, or ended by an error. -/
inductive Worker where
  | absent
  | waiting
  | running (id : Nat)
  | dead
deriving DecidableEq, Repr

/-- The job whose callback runs. -/
def Worker.job : Worker → Option Nat
  | running id => some id
  | absent | waiting | dead => none

/-- A queue: the jobs in the order they were made, the ids whose callback has not been taken, those
that wait for the worker, and the worker.  `accepted`, `started` and `ended` are the history of the
run: the ids that were put into the queue, and those whose callback began and ended. -/
structure State where
  jobs : List Job := []
  callbacks : List Nat := []
  queue : List Nat := []
  worker : Worker := .absent
  accepted : List Nat := []
  started : List Nat := []
  ended : List Nat := []
deriving DecidableEq, Repr

/-- Changes the job of an id. -/
def changeJob (id : Nat) (change : Job → Job) (jobs : List Job) : List Job :=
  jobs.map fun job => if job.id = id then change job else job

/-! ### The steps -/

/-- Whether a write to a file works. -/
abbrev Write := Bool

/-- How a callback ends. -/
inductive Outcome where
  | returned
  | raised
deriving DecidableEq, Repr

inductive Event where
  /-- `start`. -/
  | start
  /-- `enqueue`, with the directory it makes and the line it writes to the index. -/
  | enqueue (job : Job) (directory index : Write)
  /-- The worker takes the next id. -/
  | take (now : Int) (index : Write)
  /-- The callback ends; an error is written to the log of the job and to the audit log. -/
  | finish (outcome : Outcome) (now : Int) (log audit index : Write)
deriving DecidableEq, Repr

/-- `enqueue`: a job is known before the first write that may fail. -/
def enqueue (s : State) (job : Job) (directory index : Write) : State :=
  let known := { s with jobs := s.jobs ++ [job], callbacks := s.callbacks ++ [job.id] }
  if !directory then known
  else if !index then known
  else { known with queue := s.queue ++ [job.id], accepted := s.accepted ++ [job.id] }

/-- The first half of the loop of `_worker`: the line in the index is written before the `try`. -/
def takeNext (s : State) (id : Nat) (rest : List Nat) (now : Int) (index : Write) : State :=
  let taken := { s with queue := rest, callbacks := s.callbacks.filter (· ≠ id) }
  if (s.jobs.any fun job => job.id = id) && s.callbacks.contains id then
    let begun := { taken with
      jobs := changeJob id (fun job => { job with status := .running, startedAt := some now })
        s.jobs }
    if index then { begun with worker := .running id, started := s.started ++ [id] }
    else { begun with worker := .dead }
  else taken

/-- The second half: what is raised in the `except` or in the `finally` ends the worker. -/
def finishJob (s : State) (id : Nat) (outcome : Outcome) (now : Int) (log audit index : Write) :
    State :=
  let done := fun (change : Job → Job) (alive : Bool) =>
    { s with
      jobs := changeJob id (fun job => { change job with finishedAt := some now }) s.jobs
      worker := if alive then .waiting else .dead
      ended := s.ended ++ [id] }
  match outcome with
  | .returned => done (fun job => { job with status := .succeeded, exitCode := some 0 }) index
  | .raised =>
      if log then
        done (fun job => { job with status := .failed, exitCode := some 1 }) (audit && index)
      else done (fun job => job) false

def step (s : State) : Event → Option State
  | .start =>
      match s.worker with
      | .absent | .dead => some { s with worker := .waiting }
      | .waiting | .running _ => some s
  | .enqueue job directory index =>
      if (s.jobs.any fun other => other.id = job.id) || job.status ≠ .queued then none
      else some (enqueue s job directory index)
  | .take now index =>
      match s.worker, s.queue with
      | .waiting, id :: rest => some (takeNext s id rest now index)
      | _, _ => none
  | .finish outcome now log audit index =>
      match s.worker with
      | .running id => some (finishJob s id outcome now log audit index)
      | _ => none

end Papaia.Jobs
