/-
Module: Papaia.Backup.BackupRun
Purpose: The job queue as its callers see it, and the one way a backup gets into it.
Trusted boundary: Docker's answers about the detached runners are given
Main exports: JobStatus, Job, activeJob, work, RunnerStatus, blockingRunner, backupFlags,
  enqueueBackup
-/
import Papaia.Data.Text

namespace Papaia.Backup

/-! ### The queue -/

inductive JobStatus where
  | queued
  | running
  | succeeded
  | failed
deriving DecidableEq, Repr

/-- A job.  A backup has its retention and its node in `params`; `flags` and `log` are what its
callback runs and writes first. -/
structure Job where
  action : String
  target : String
  user : String
  retentionDays : Option Int := none
  node : Option String := none
  flags : List String := []
  log : List String := []
  status : JobStatus := .queued
deriving DecidableEq, Repr

/-- Whether a job has not finished yet. -/
def Job.isActive (job : Job) : Bool :=
  job.status = .queued || job.status = .running

/-- `active_job`: the oldest job that has not finished.  Jobs stand in the order they were made. -/
def activeJob (jobs : List Job) : Option Job :=
  jobs.find? Job.isActive

/-- Gives the first job of one status another one. -/
def moveFirst (source target : JobStatus) : List Job → List Job
  | [] => []
  | job :: rest =>
      if job.status = source then { job with status := target } :: rest
      else job :: moveFirst source target rest

/-- The next step of `_worker`: the job that runs ends, or else the oldest one that waits begins. -/
def work (succeeds : Bool) (jobs : List Job) : List Job :=
  if jobs.any fun job => job.status = .running then
    moveFirst .running (if succeeds then .succeeded else .failed) jobs
  else moveFirst .queued .running jobs

/-! ### What a backup must not run alongside -/

structure RunnerStatus where
  target : String
  isRunning : Bool
deriving DecidableEq, Repr

structure BlockingRunner where
  label : String
  target : String
deriving DecidableEq, Repr

/-- `blocking_runner`, from what `find_runner` gives for a restore and for an upgrade.  A Docker that
cannot be reached blocks nothing. -/
def blockingRunner (restore upgrade : Except String (Option RunnerStatus)) :
    Option BlockingRunner :=
  match restore, upgrade with
  | .ok restore, .ok upgrade =>
      [(restore, "restore"), (upgrade, "upgrade")].findSome? fun (candidate, label) =>
        (candidate.filter RunnerStatus.isRunning).map fun active => ⟨label, active.target⟩
  | _, _ => none

/-! ### The backup itself -/

/-- `backup_flags`. -/
def backupFlags (backupDir : String) (retentionDays : Option Int) : List String :=
  ("--backup-dir=" ++ backupDir) ::
    (retentionDays.map fun days => "--retention-period-days=" ++ Text.renderInt days).toList

/-- The job of `enqueue_backup`. -/
def backupJob (backupDir user : String) (retentionDays : Option Int) (trigger : String)
    (note node : Option String) : Job :=
  let flags := backupFlags backupDir retentionDays ++
    (node.map fun name => "--only=node:" ++ name).toList
  { action := "backup"
    target := backupDir
    user := user
    retentionDays := retentionDays
    node := node
    flags := flags
    log := (note.map fun text => "[" ++ trigger ++ "] " ++ text).toList ++
      ["[ctl] papaia-ctl backup " ++ Text.joinWith " " flags] }

end Papaia.Backup
