/-
Module: Papaia.Ingest.Embedding
Purpose: The life of one staged upload between the awaits: files that are being saved, embedding runs
  that are being started for any collections, requests to discard it, passes of `reconcile`, and
  the runs of the ingester.  The upload stays within its time limit.
Trusted boundary: the ingester (it names each run once and tells the truth about it when it answers)
Main exports: RunView, Verdict, settle, Run, Request, Start, Pass, State, Event, step, created
-/
import Papaia.Ingest.Uploads
import Mathlib.Logic.Function.Basic

namespace Papaia.Ingest.Embedding

/-! ### What the ingester says about a run -/

structure RunView where
  status : String
  error : Option String := none
  failedDocuments : Nat := 0
deriving DecidableEq, Repr

def RunView.active (view : RunView) : Bool :=
  view.status = "running"

/-- Succeeded, and no document failed on the way. -/
def RunView.clean (view : RunView) : Bool :=
  view.status = "success" && view.failedDocuments = 0

/-- `_STATUS_TEXT`. -/
def statusText (status : String) : String :=
  if status = "running" then "Running"
  else if status = "success" then "Finished"
  else if status = "failed" then "Failed"
  else if status = "interrupted" then "Stopped"
  else if status = "aborted_guard" then "Stopped by a safety check"
  else if status = "aborted_lock" then "Gave up waiting for the collection"
  else if status = "" then "Unknown"
  else status

def RunView.label (view : RunView) : String :=
  if view.status = "success" && view.failedDocuments ≠ 0 then "Finished with errors"
  else statusText view.status

/-- The answer to `get_run`. -/
inductive Answer where
  | forgotten
  | view (view : RunView)
deriving DecidableEq, Repr

/-- What `_settle` does with an upload. -/
inductive Verdict where
  | wait
  | consume
  | keep (note : String)
deriving DecidableEq, Repr

/-- `_settle`. -/
def settle : Answer → Verdict
  | .forgotten => .keep "The ingester no longer knows the run; the files were kept."
  | .view view =>
      if view.active then .wait
      else if view.clean then .consume
      else
        .keep (view.error.getD
          (if view.failedDocuments ≠ 0 then
            Text.renderInt view.failedDocuments ++ " document(s) failed"
          else view.label))

/-! ### Who is under way -/

/-- A run of the ingester on the staging folder.  `files` is what was there when it was started. -/
structure Run where
  id : String
  job : String
  files : Files
  view : RunView := { status := "running" }
deriving DecidableEq, Repr

/-- A run that has not ended. -/
def Run.working (run : Run) : Bool :=
  run.view.active

/-- What is asked of `start`.  `jobId` is the managed job of the connection and the collection. -/
structure Request where
  jobId : String
  collection : String
  connection : String
  mode : String
  /-- The selected paths; none means all of the upload. -/
  paths : List String := []
deriving DecidableEq, Repr

/-- How far a call of `start` is. -/
inductive StartPhase where
  /-- `_plan` has accepted the upload. -/
  | planned
  /-- Nothing blocks it, and no run of the collection was working. -/
  | checked
  /-- The ingester has started the run, and its answer is on the way. -/
  | accepted (runId : String)
deriving DecidableEq, Repr

structure Start where
  request : Request
  /-- The number and the size of the selected files. -/
  files : Nat
  bytes : Nat
  phase : StartPhase := .planned
deriving DecidableEq, Repr

/-- A pass of `reconcile` that asks about the run of the upload. -/
structure Pass where
  /-- The manifest as the pass listed it. -/
  batch : Batch
  runId : String
  /-- What the ingester has answered. -/
  answer : Option Answer := none
deriving DecidableEq, Repr

inductive AuditEntry where
  | start (run : StartedAs) (files bytes : Nat)
  | consume (files bytes : Nat) (runId : String)
  | keep (runId status : String) (failed : Nat)
deriving DecidableEq, Repr

structure State where
  /-- None once it is removed. -/
  upload : Option Upload
  saves : List Save := []
  starts : Nat → Option Start := fun _ => none
  passes : Nat → Option Pass := fun _ => none
  runs : List Run := []
  audit : List AuditEntry := []

/-! ### The parts of `start` and `reconcile` -/

/-- Whether a selection has a file: the path itself or a folder above it. -/
def selects (paths : List String) (path : String) : Bool :=
  paths.isEmpty || paths.any fun rel =>
    rel = "" || rel = path || (rel.toList ++ ['/']).isPrefixOf path.toList

/-- The selected files, also those that are still being written. -/
def selected (paths : List String) (files : Files) (saves : List Save) : Files :=
  (files ++ saves.map fun save => (save.tmp, save.written)).filter fun entry =>
    selects paths entry.1

/-- `_plan` of an upload. -/
def plan (upload : Upload) (saves : List Save) (request : Request) : Option Start :=
  if upload.batch.state = .embedding then none
  else
    let files := selected request.paths upload.files saves
    if files.isEmpty then none
    else
      some
        { request := request
          files := files.length
          bytes := (files.map fun entry => entry.2.length).sum }

/-- What `mark_embedding` records for a request. -/
def Request.startedAs (request : Request) (runId : String) : StartedAs where
  runId := runId
  jobId := request.jobId
  collection := request.collection
  connection := request.connection
  mode := request.mode

/-- A call of `start` comes to another phase, or ends. -/
def State.setStart (s : State) (task : Nat) (start : Option Start) : State :=
  { s with starts := Function.update s.starts task start }

/-- A pass gets its answer, or ends. -/
def State.setPass (s : State) (task : Nat) (pass : Option Pass) : State :=
  { s with passes := Function.update s.passes task pass }

/-- A call of `save_file` ends. -/
def State.endSave (s : State) (task : Nat) : State :=
  { s with saves := s.saves.filter fun save => save.task ≠ task }

/-- What a pass does once it has its answer, to an upload that is still there. -/
def State.apply (s : State) (upload : Upload) (pass : Pass) (answer : Answer) : State :=
  match settle answer, answer with
  | .wait, _ => s
  | .consume, _ =>
      { s with
        upload := none
        audit := s.audit ++ [.consume pass.batch.files pass.batch.bytes pass.runId] }
  | .keep note, .view view =>
      { s with
        upload := some (markKept note upload)
        audit := s.audit ++ [.keep pass.runId view.status view.failedDocuments] }
  | .keep note, .forgotten => { s with upload := some (markKept note upload) }

/-! ### Steps -/

inductive Event where
  | saveBegins (task : Nat) (path tmp : String)
  | saveReads (task : Nat) (chunk : Bytes)
  | saveEnds (task : Nat)
  /-- The client goes away, or a write fails. -/
  | saveFails (task : Nat)
  /-- `start` comes to `_plan`. -/
  | plans (task : Nat) (request : Request)
  /-- `start` has asked about detached runners and about running runs of the collection. -/
  | checks (task : Nat) (blocked folderRunning : Bool)
  /-- `start` is refused before the ingester has started a run. -/
  | givesUp (task : Nat)
  /-- The ingester takes the request of a run, and names the run. -/
  | accepts (task : Nat) (runId : String)
  /-- The answer to the request arrives, or is lost. -/
  | answered (task : Nat) (lost : Bool)
  /-- A run ends. -/
  | runEnds (runId : String) (view : RunView)
  | discards
  | passBegins (task : Nat)
  /-- The ingester answers a pass.  It may have forgotten a run that has ended. -/
  | reports (task : Nat) (forgotten : Bool)
  /-- The ingester cannot be asked. -/
  | passFails (task : Nat)
  /-- A pass goes on with its answer. -/
  | settles (task : Nat)
deriving Repr

def step (limits : Limits) (s : State) : Event → Option State
  | .saveBegins task path tmp =>
      match s.upload with
      | none => none
      | some upload =>
          if s.saves.any fun save => save.task = task || save.tmp = tmp then none
          else
            match beginSave upload task path tmp with
            | .error _ => some s
            | .ok save => some { s with saves := s.saves ++ [save] }
  | .saveReads task chunk =>
      match s.saves.find? fun save => save.task = task with
      | none => none
      | some save =>
          match writeChunk limits save chunk with
          | .error _ => some (s.endSave task)
          | .ok written =>
              some { s with
                saves := s.saves.map fun other => if other.task = task then written else other }
  | .saveEnds task =>
      match s.saves.find? fun save => save.task = task with
      | none => none
      | some save =>
          -- the folder of an upload that is gone does not take the file
          some ({ s with upload := s.upload.map (commitSave save) }.endSave task)
  | .saveFails task => some (s.endSave task)
  | .plans task request =>
      match s.upload, s.starts task with
      | some upload, none =>
          match plan upload s.saves request with
          | none => some s
          | some start => some (s.setStart task (some start))
      | _, _ => none
  | .checks task blocked folderRunning =>
      match s.starts task with
      | some ⟨request, files, bytes, .planned⟩ =>
          if blocked || folderRunning ||
              s.runs.any fun run => run.job = request.jobId && run.working then
            some (s.setStart task none)
          else some (s.setStart task (some ⟨request, files, bytes, .checked⟩))
      | _ => none
  | .givesUp task =>
      match s.starts task with
      | some ⟨_, _, _, .planned⟩ | some ⟨_, _, _, .checked⟩ => some (s.setStart task none)
      | _ => none
  | .accepts task runId =>
      match s.starts task with
      | some ⟨request, files, bytes, .checked⟩ =>
          if s.runs.any fun run => run.id = runId then none
          else if s.runs.any fun run => run.job = request.jobId && run.working then
            -- 409: a run of this job is still working
            some (s.setStart task none)
          else
            let run : Run :=
              { id := runId
                job := request.jobId
                files := (s.upload.map Upload.files).getD [] }
            some ({ s with runs := s.runs ++ [run] }.setStart task
              (some ⟨request, files, bytes, .accepted runId⟩))
      | _ => none
  | .answered task lost =>
      match s.starts task with
      | some ⟨request, files, bytes, .accepted runId⟩ =>
          match s.upload with
          | none => some (s.setStart task none)
          | some upload =>
              if lost then some (s.setStart task none)
              else
                let marked : State :=
                  { s with
                    upload := some (markEmbedding (request.startedAs runId) upload)
                    audit := s.audit ++ [.start (request.startedAs runId) files bytes] }
                some (marked.setStart task none)
      | _ => none
  | .runEnds runId view =>
      if view.active then none
      else
        some { s with
          runs := s.runs.map fun run =>
            if run.id = runId && run.working then { run with view := view } else run }
  | .discards =>
      match s.upload with
      | none => none
      | some upload =>
          match discard upload with
          | .error _ => some s
          | .ok () => some { s with upload := none }
  | .passBegins task =>
      match s.upload, s.passes task with
      | some upload, none =>
          match upload.batch.state, upload.batch.run with
          | .embedding, some run =>
              some (s.setPass task (some { batch := upload.batch, runId := run.runId }))
          | _, _ => some s
      | _, _ => none
  | .reports task forgotten =>
      match s.passes task with
      | some ⟨batch, runId, none⟩ =>
          match s.runs.find? fun run => run.id = runId with
          | none => none
          | some run =>
              if forgotten && run.working then none
              else
                let answer := if forgotten then .forgotten else .view run.view
                some (s.setPass task (some ⟨batch, runId, some answer⟩))
      | _ => none
  | .passFails task => some (s.setPass task none)
  | .settles task =>
      match s.passes task with
      | some ⟨batch, runId, some answer⟩ =>
          match s.upload with
          | none => some (s.setPass task none)
          | some upload =>
              some ((s.apply upload ⟨batch, runId, some answer⟩ answer).setPass task none)
      | _ => none

/-- An upload right after `create`. -/
def created : State where
  upload := some {}

end Papaia.Ingest.Embedding
