/-
Module: Papaia.Ingest.JobsFile
Purpose: One write of `jobs.yaml` by the manager and a later rollback of it, step by step, with
  other writers of the file in between.  The comparison and the rename of a swap are one instant.
Trusted boundary: Runtime, Yaml, the file system (a system call can fail)
Main exports: Call, Decision, Call.decide, Written, Phase, State, Event, step
-/
import Papaia.Ingest.Catalog

namespace Papaia.Ingest

/-! ### What is written -/

/-- What a write does with the file as it was read. -/
inductive Decision where
  | refuse (error : CatalogError)
  | unchanged
  | write (data : Bytes)
deriving DecidableEq, Repr

/-- The two ways to write the file. -/
inductive Call where
  /-- `update`: a change of the document, with the rules the result has to keep. -/
  | update (mutate : Mapping → Except CatalogError Mapping)
      (rules : Option (Mapping → List String))
  /-- `replace_raw`. -/
  | replaceRaw (raw : Bytes) (expectedRevision : String)

/-- `_MAX_ATTEMPTS` of `update`; `replace_raw` tries once. -/
def Call.attempts : Call → Nat
  | .update _ _ => 3
  | .replaceRaw _ _ => 1

/-- What a call reports when the file kept changing. -/
def Call.lostRace : Call → CatalogError
  | .update _ _ => .rejected "jobs.yaml keeps changing while the manager writes it; try again"
  | .replaceRaw _ _ =>
      .conflict "jobs.yaml changed while it was being saved. Reload the page and try again."

/-- The decision of a call, from the file as it was read. -/
def Call.decide (yaml : Yaml) (call : Call) (snapshot : JobsSnapshot) : Decision :=
  match call with
  | .update mutate rules =>
      match snapshot.structuralError with
      | some problem => .refuse (.rejected ("jobs.yaml cannot be changed: " ++ problem))
      | none =>
          match mutate snapshot.document with
          | .error error => .refuse error
          | .ok document =>
              if snapshot.present && (Val.map document).alike (.map snapshot.document) then .unchanged
              else
                match (rules.map fun check => check document).getD [] with
                | [] => .write (yaml.dump document)
                | problem :: rest =>
                    .refuse (.rejected ("jobs.yaml would not be valid for the ingester: " ++
                      Text.joinWith "; " (problem :: rest)))
  | .replaceRaw raw expectedRevision =>
      if snapshot.revision ≠ expectedRevision then
        .refuse (.conflict ("jobs.yaml changed since it was opened. Reload the page to see the " ++
          "current content."))
      else if snapshot.present && snapshot.raw = raw then .unchanged
      else .write raw

/-- What a write changed, so that the caller can undo it. -/
structure Written where
  before : Bytes
  existed : Bool
  /-- The revision of the file as it was read after the write. -/
  afterRevision : String
  changed : Bool
deriving DecidableEq, Repr

/-! ### Steps -/

/-- How far the manager is.  `data` is what its own write put into the file. -/
inductive Phase where
  /-- About to read the file. -/
  | reading (attempts : Nat)
  /-- About to stage the new content. -/
  | staging (attempts : Nat) (snapshot : JobsSnapshot) (data : Bytes)
  /-- About to compare and rename. -/
  | swapping (attempts : Nat) (snapshot : JobsSnapshot) (data : Bytes)
  /-- Renamed, about to read the file again. -/
  | rereading (snapshot : JobsSnapshot) (data : Bytes)
  | refused (error : CatalogError)
  /-- The call has returned; the next step of the manager is `restore`. -/
  | returned (written : Written) (data : Bytes)
  /-- `restore` of a file that did not exist: about to compare. -/
  | checking (written : Written) (data : Bytes)
  /-- The comparison held, about to remove the file. -/
  | unlinking (written : Written) (data : Bytes)
  /-- `restore` of a file that existed: about to stage the previous content. -/
  | restaging (written : Written) (data : Bytes)
  /-- About to compare and rename. -/
  | reswapping (written : Written) (data : Bytes)
  | restored (result : Bool)
deriving Repr

/-- The file (none: there is none) and the manager. -/
structure State where
  file : Option Bytes
  phase : Phase
deriving Repr

/-- The next step belongs to somebody else, who puts any content there or removes the file, or to
the manager, whose system call may fail. -/
inductive Event where
  | foreign (content : Option Bytes)
  | manager (fails : Bool)
deriving DecidableEq, Repr

/-- What a read of the file gives. -/
def readFile (file : Option Bytes) (fails : Bool) : FileRead :=
  if fails then .unreadable "Input/output error"
  else
    match file with
    | none => .missing
    | some raw => .content raw

/-- The revision a comparison sees: a file that is not there has the empty one. -/
def currentRevision (yaml : Yaml) (file : Option Bytes) : String :=
  yaml.revision (file.getD [])

/-- An `OSError` of a write. -/
def readOnlyError : CatalogError :=
  .rejected "the job catalog is read-only here"

/-- One step of the manager: the file and the phase after it. -/
def managerStep (rt : Runtime) (yaml : Yaml) (call : Call) (file : Option Bytes) (fails : Bool) :
    Phase → Option (Option Bytes × Phase)
  | .reading attempts =>
      let snapshot := snapshotOf rt yaml (readFile file fails)
      match call.decide yaml snapshot with
      | .refuse error => some (file, .refused error)
      | .unchanged =>
          some (file, .returned ⟨snapshot.raw, true, snapshot.revision, false⟩ snapshot.raw)
      | .write data => some (file, .staging attempts snapshot data)
  | .staging attempts snapshot data =>
      -- the mode of a file that existed is read from it
      if fails || (snapshot.present && file.isNone) then some (file, .refused readOnlyError)
      else some (file, .swapping attempts snapshot data)
  | .swapping attempts snapshot data =>
      if fails then some (file, .refused readOnlyError)
      else if currentRevision yaml file = snapshot.revision then
        some (some data, .rereading snapshot data)
      else
        match attempts with
        | 0 | 1 => some (file, .refused call.lostRace)
        | left + 1 => some (file, .reading left)
  | .rereading snapshot data =>
      let after := snapshotOf rt yaml (readFile file fails)
      some (file, .returned ⟨snapshot.raw, snapshot.present, after.revision, true⟩ data)
  | .refused _ => none
  | .returned written data =>
      if !written.changed then some (file, .restored true)
      else if written.existed then some (file, .restaging written data)
      else some (file, .checking written data)
  | .checking written data =>
      if fails then some (file, .restored false)
      else
        match file with
        | none => some (file, .restored false)
        | some raw =>
            if yaml.revision raw = written.afterRevision then some (file, .unlinking written data)
            else some (file, .restored false)
  | .unlinking _ _ =>
      if fails || file.isNone then some (file, .restored false) else some (none, .restored true)
  | .restaging written data =>
      if fails || file.isNone then some (file, .restored false)
      else some (file, .reswapping written data)
  | .reswapping written _ =>
      if fails then some (file, .restored false)
      else if currentRevision yaml file = written.afterRevision then
        some (some written.before, .restored true)
      else some (file, .restored false)
  | .restored _ => none

/-- One step of the system. -/
def step (rt : Runtime) (yaml : Yaml) (call : Call) (s : State) : Event → Option State
  | .foreign content => some { s with file := content }
  | .manager fails =>
      (managerStep rt yaml call s.file fails s.phase).map fun result => ⟨result.1, result.2⟩

/-- A call that is about to begin. -/
def started (call : Call) (file : Option Bytes) : State :=
  ⟨file, .reading call.attempts⟩

end Papaia.Ingest
