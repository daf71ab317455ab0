/-
Module: Papaia.Ingest.Changes
Purpose: The changes `JobsFileRepository` makes to the document of `jobs.yaml`, and what each of them
  leaves alone.
Trusted boundary: the fingerprint of an entry (`entry_etag`)
Main exports: Change, Change.mutate, LeavesOthers, Change.Frame, Change.frame_of_mutate
-/
import Papaia.Ingest.JobsFile

namespace Papaia.Ingest

/-! ### The changes -/

/-- `remove_job`. -/
def removeJob (etagOf : Val → String) (jobId : String) (etag : Option String) (shown : String)
    (jobs : List Val) : Except CatalogError (List Val) :=
  match indexOf jobs jobId with
  | none => .error (.conflict ("The job " ++ shown ++ " is no longer in jobs.yaml."))
  | some index =>
      (checkEtag etagOf (jobs.getD index .null) etag shown).map fun _ => jobs.eraseIdx index

/-- What `set_enabled` makes of an entry: the key is dropped for an enabled job. -/
def enabledEntry (enabled : Bool) (job : Val) : Val :=
  match job with
  | .map entries =>
      .map (if enabled then Mapping.pop entries "enabled"
        else Mapping.put entries (.str "enabled") (.bool false))
  | other => other

/-- `set_enabled`. -/
def setEnabledJob (jobId : String) (enabled : Bool) (shown : String) (jobs : List Val) :
    Except CatalogError (List Val) :=
  match indexOf jobs jobId with
  | none => .error (.conflict ("The job " ++ shown ++ " is no longer in jobs.yaml."))
  | some index => .ok (jobs.set index (enabledEntry enabled (jobs.getD index .null)))

/-- The change of the list under `jobs`, which a document that was parsed has. -/
def onJobs (change : List Val → Except CatalogError (List Val)) (document : Mapping) :
    Except CatalogError Mapping :=
  match document.getD "jobs" with
  | .list jobs => (change jobs).map fun jobs => document.put (.str "jobs") (.list jobs)
  | _ => .error (.rejected "jobs must be a list")

/-- `set_defaults`: an empty mapping removes the section. -/
def putDefaults (defaults document : Mapping) : Mapping :=
  if defaults.isEmpty then document.pop "defaults"
  else document.put (.str "defaults") (.map defaults)

/-- A mutation of the document.  `opened` is the entry the caller's etag was computed from. -/
inductive Change where
  | custom (mutate : Mapping → Except CatalogError Mapping)
  | upsert (jobId : String) (job : Mapping)
  | putJob (jobId : String) (entry : Mapping) (create : Bool) (opened : Option Val)
  | removeJob (jobId : String) (opened : Option Val)
  | setEnabled (jobId : String) (enabled : Bool)
  | setDefaults (defaults : Mapping)

/-- What a change makes of the document, or why it no longer applies. -/
def Change.mutate (rt : Runtime) (etagOf : Val → String) :
    Change → Mapping → Except CatalogError Mapping
  | .custom mutate, document => mutate document
  | .upsert jobId job, document =>
      onJobs (fun jobs => .ok (placeJob jobs jobId job)) document
  | .putJob jobId entry create opened, document =>
      onJobs (Ingest.putJob etagOf jobId entry create (opened.map etagOf) (rt.repr (.str jobId)))
        document
  | .removeJob jobId opened, document =>
      onJobs (Ingest.removeJob etagOf jobId (opened.map etagOf) (rt.repr (.str jobId))) document
  | .setEnabled jobId enabled, document =>
      onJobs (setEnabledJob jobId enabled (rt.repr (.str jobId))) document
  | .setDefaults defaults, document => .ok (putDefaults defaults document)

/-! ### What a change leaves alone -/

/-- The list of jobs around one place: what stands there is replaced, put in or taken out. -/
structure AtOnePlace (jobId : String) (jobs jobs' : List Val) where
  before : List Val
  old : Option Val
  new : Option Val
  after : List Val
  jobs_eq : jobs = before ++ old.toList ++ after
  jobs'_eq : jobs' = before ++ new.toList ++ after
  old_has_id : ∀ job ∈ old, hasId jobId job = true

/-- A change of one job: every top-level key stays in its place with its value, and every other
entry of the list in its order. -/
structure LeavesOthers (jobId : String) (document document' : Mapping) where
  keys : document'.map Prod.fst = document.map Prod.fst
  others : ∀ key, key ≠ .str "jobs" → document'.lookup key = document.lookup key
  jobs : List Val
  jobs' : List Val
  jobs_eq : document.get? "jobs" = some (.list jobs)
  jobs'_eq : document'.get? "jobs" = some (.list jobs')
  place : AtOnePlace jobId jobs jobs'

/-- What a change does to the document it is applied to. -/
def Change.Frame : Change → Mapping → Mapping → Prop
  | .custom _, _, _ => True
  | .upsert jobId job, document, document' =>
      ∃ frame : LeavesOthers jobId document document', frame.place.new = some (.map job)
  | .putJob jobId entry create opened, document, document' =>
      ∃ frame : LeavesOthers jobId document document',
        frame.place.new = some (.map entry) ∧ (create = true → frame.place.old = none) ∧
          (create = false → ∃ old, frame.place.old = some old ∧ ∀ v ∈ opened, old = v)
  | .removeJob jobId opened, document, document' =>
      ∃ frame : LeavesOthers jobId document document',
        frame.place.new = none ∧ ∃ old, frame.place.old = some old ∧ ∀ v ∈ opened, old = v
  | .setEnabled jobId enabled, document, document' =>
      ∃ frame : LeavesOthers jobId document document',
        ∃ old, frame.place.old = some old ∧ frame.place.new = some (enabledEntry enabled old)
  | .setDefaults defaults, document, document' =>
      document'.get? "defaults" = (if defaults.isEmpty then none else some (.map defaults)) ∧
        ∀ key, key ≠ .str "defaults" → document'.lookup key = document.lookup key

/-- The etag of the caller is no other entry's: an entry with its id that has the fingerprint of the
opened one is the opened one. -/
def Change.EtagTells (etagOf : Val → String) (change : Change) (document : Mapping) : Prop :=
  ∀ jobs, document.get? "jobs" = some (.list jobs) →
    match change with
    | .putJob jobId _ false (some opened) | .removeJob jobId (some opened) =>
        ∀ existing, findJob jobs jobId = some existing → etagOf existing = etagOf opened →
          existing = opened
    | _ => True

end Papaia.Ingest
