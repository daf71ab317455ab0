/-
Module: Papaia.Stack.Requests
Purpose: The requests that want the stack for themselves, one step between two awaits at a time:
  backups, restores, stack actions, upgrades and the acknowledgement of a runner.
Trusted boundary: Docker refuses a name that is taken and lists the runners there are; what a
  request checks before it looks for runners and jobs has passed
Main exports: RunnerKind, Runner, findRunner, Act, Request.acts, Refusal, Flight, Event, State, step
-/
import Papaia.Backup.BackupRun

namespace Papaia.Stack

open Backup

/-! ### Runners -/

/-- `RunnerKind`. -/
inductive RunnerKind where
  | restore
  | stack
  | upgrade
deriving DecidableEq, Repr

def RunnerKind.namePrefix : RunnerKind → String
  | restore => "papaia-restore-"
  | stack => "papaia-stack-"
  | upgrade => "papaia-upgrade-"

/-- A detached container; its kind and its target make its name. -/
structure Runner where
  kind : RunnerKind
  target : String
  isRunning : Bool
deriving DecidableEq, Repr

def Runner.name (runner : Runner) : String :=
  runner.kind.namePrefix ++ runner.target

/-- `find_runner`, of the containers in the order they were started: one that runs, or else the one
that was started last. -/
def findRunner (docker : List Runner) (kind : RunnerKind) : Option Runner :=
  let found := docker.filter fun runner => runner.kind = kind
  match found.reverse.find? Runner.isRunning with
  | some runner => some runner
  | none => found.getLast?

/-! ### Requests -/

/-- The jobs that must have the stack for themselves. -/
inductive JobRequest where
  | backup
  | delete
  | scopedRestore
deriving DecidableEq, Repr

def JobRequest.action : JobRequest → String
  | backup => "backup"
  | delete => "backup-delete"
  | scopedRestore => "restore-scoped"

inductive Request where
  | job (kind : JobRequest) (target user : String)
  | restore (restorePoint : String)
  | stackAction (action : String)
  | upgrade (version : String)
  | acknowledge (kind : RunnerKind)
deriving DecidableEq, Repr

/-- What a request does between two awaits. -/
inductive Act where
  /-- Looks for a runner, and is refused while one runs. -/
  | whileRunning (kind : RunnerKind)
  /-- Looks for a runner, and is refused while there is one. -/
  | whilePresent (kind : RunnerKind)
  /-- Is refused while a job is active. -/
  | whileJob
  /-- Looks for a runner, is refused while one runs, and removes one that has finished. -/
  | clearFinished (kind : RunnerKind)
  /-- Looks for a runner, and removes it. -/
  | clearFound (kind : RunnerKind)
  /-- `clear_runner`: looks again, then removes. -/
  | lookAgain (kind : RunnerKind) (target : String)
  | remove (kind : RunnerKind) (target : String)
  /-- `docker run`. -/
  | run (kind : RunnerKind) (target : String)
  /-- Queues a job where none is active. -/
  | enqueue (kind : JobRequest) (target user : String)
deriving DecidableEq, Repr

/-- What each entry point checks, in its order, and does. -/
def Request.acts : Request → List Act
  | job kind target user => [.whileRunning .restore, .whileRunning .upgrade,
      .enqueue kind target user]
  | restore restorePoint => [.whilePresent .restore, .whileRunning .upgrade, .whileJob,
      .run .restore restorePoint]
  | stackAction action => [.whileJob, .whileRunning .upgrade, .clearFinished .stack,
      .run .stack action]
  | upgrade version => [.whilePresent .upgrade, .whileRunning .restore, .whileRunning .stack,
      .whileJob, .run .upgrade version]
  | acknowledge kind => [.clearFound kind]

/-- Why a request is refused. -/
inductive Refusal where
  | running (kind : RunnerKind) (target : String)
  | unacknowledged (kind : RunnerKind) (target : String)
  | jobActive (action : String)
  | nothingToClear
  | stillRunning (name : String)
  | docker (detail : String)
deriving DecidableEq, Repr

def Refusal.message (request : Request) : Refusal → String
  | running .restore target => "a restore of " ++ target ++ " is still running"
  | running .upgrade target => "an upgrade to " ++ target ++ " is still running"
  | running .stack target =>
      match request with
      | .upgrade _ => "a stack of " ++ target ++ " is still running"
      | _ => "a stack " ++ target ++ " is still running"
  | unacknowledged .upgrade target =>
      "the result of the previous upgrade (" ++ target ++ ") has not been acknowledged yet"
  | unacknowledged _ target =>
      "the result of the previous restore (" ++ target ++ ") has not been acknowledged yet"
  | jobActive action =>
      match request with
      | .restore _ => "a job is currently running; wait for it to finish before restoring"
      | .stackAction _ => "a job is running; wait for it to finish"
      | .upgrade _ =>
          "a " ++ action ++ " job is running; it would be killed when the upgrade stops the stack"
      | _ => "a " ++ action ++ " job is already running; wait for it to finish"
  | nothingToClear =>
      match request with
      | .acknowledge .restore => "no restore runner to clear"
      | _ => "nothing to clear"
  | stillRunning name => "runner " ++ name ++ " is still running"
  | docker detail => detail

/-! ### The state -/

/-- A request in flight: what it has yet to do, and why it was refused. -/
structure Flight where
  request : Request
  acts : List Act
  refusal : Option Refusal := none
deriving DecidableEq, Repr

/-- Docker's runners, the jobs, and the requests. -/
structure State where
  docker : List Runner
  jobs : List Job
  flights : List Flight
deriving DecidableEq, Repr

namespace State

/-- The request goes on with what it has yet to do. -/
def goOn (s : State) (i : Nat) (flight : Flight) (acts : List Act) : State :=
  { s with flights := s.flights.set i { flight with acts := acts } }

def refuse (s : State) (i : Nat) (flight : Flight) (refusal : Refusal) : State :=
  { s with flights := s.flights.set i { flight with acts := [], refusal := some refusal } }

end State

/-- What Docker says when a name is taken, or a runner cannot be removed. -/
def dockerFailed (verb name : String) : Refusal :=
  .docker ("docker " ++ verb ++ " failed: " ++ name)

/-- One act of a request. -/
def perform (s : State) (i : Nat) (flight : Flight) (rest : List Act) : Act → State
  | .whileRunning kind =>
      match findRunner s.docker kind with
      | some runner =>
          if runner.isRunning then s.refuse i flight (.running kind runner.target)
          else s.goOn i flight rest
      | none => s.goOn i flight rest
  | .whilePresent kind =>
      match findRunner s.docker kind with
      | some runner =>
          if runner.isRunning then s.refuse i flight (.running kind runner.target)
          else s.refuse i flight (.unacknowledged kind runner.target)
      | none => s.goOn i flight rest
  | .whileJob =>
      match activeJob s.jobs with
      | some job => s.refuse i flight (.jobActive job.action)
      | none => s.goOn i flight rest
  | .clearFinished kind =>
      match findRunner s.docker kind with
      | some runner =>
          if runner.isRunning then s.refuse i flight (.running kind runner.target)
          else s.goOn i flight (.lookAgain kind runner.target :: .remove kind runner.target :: rest)
      | none => s.goOn i flight rest
  | .clearFound kind =>
      match findRunner s.docker kind with
      | some runner =>
          s.goOn i flight (.lookAgain kind runner.target :: .remove kind runner.target :: rest)
      | none => s.refuse i flight .nothingToClear
  | .lookAgain kind target =>
      match findRunner s.docker kind with
      | some runner =>
          if runner.target = target ∧ runner.isRunning then
            s.refuse i flight (.stillRunning runner.name)
          else s.goOn i flight rest
      | none => s.goOn i flight rest
  | .remove kind target =>
      if ⟨kind, target, false⟩ ∈ s.docker then
        { s.goOn i flight rest with
          docker := s.docker.filter fun runner => !(runner.kind = kind && runner.target = target) }
      else s.refuse i flight (dockerFailed "rm" (kind.namePrefix ++ target))
  | .run kind target =>
      if s.docker.any fun runner => runner.kind = kind && runner.target = target then
        s.refuse i flight (dockerFailed "run" (kind.namePrefix ++ target))
      else { s.goOn i flight rest with docker := s.docker ++ [⟨kind, target, true⟩] }
  | .enqueue kind target user =>
      match activeJob s.jobs with
      | some job => s.refuse i flight (.jobActive job.action)
      | none =>
          { s.goOn i flight rest with
            jobs := s.jobs ++ [{ action := kind.action, target := target, user := user }] }

/-- What happens next: a request arrives or goes on, a runner ends, the worker of the queue goes on,
or a job is queued that needs not have the stack for itself. -/
inductive Event where
  | arrive (request : Request)
  | advance (i : Nat)
  | runnerEnds (kind : RunnerKind) (target : String)
  | works (succeeds : Bool)
  | otherJob (job : Job)
deriving DecidableEq, Repr

/-- The actions of the jobs that must have the stack for themselves. -/
def ownActions : List String :=
  ["backup", "backup-delete", "restore-scoped"]

def step (s : State) : Event → Option State
  | .arrive request => some { s with flights := s.flights ++ [⟨request, request.acts, none⟩] }
  | .advance i =>
      match s.flights[i]? with
      | some flight =>
          match flight.acts with
          | act :: rest => some (perform s i flight rest act)
          | [] => none
      | none => none
  | .runnerEnds kind target =>
      some { s with
        docker := s.docker.map fun runner =>
          if runner.kind = kind ∧ runner.target = target then { runner with isRunning := false }
          else runner }
  | .works succeeds => some { s with jobs := work succeeds s.jobs }
  | .otherJob job =>
      if job.action ∈ ownActions then none else some { s with jobs := s.jobs ++ [job] }

end Papaia.Stack
