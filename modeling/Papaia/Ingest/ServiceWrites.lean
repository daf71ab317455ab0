/-
Module: Papaia.Ingest.ServiceWrites
Purpose: The writes of `JobsService` that check before they write: a save of a job, a change of the
  catalog defaults, and the switch of a job, step by step, with other writers of the file in
  between.
Trusted boundary: FormRuntime, Yaml, the file system, the ingester's verdict
Main exports: ServiceCall, ServiceCall.step, saveCall, setDefaultsCall, switchCall
-/
import Papaia.Ingest.Changes
import Papaia.Ingest.JobForms

namespace Papaia.Ingest

open Text

/-! ### A call that checks and then writes -/

/-- A call of the service: it checks the file as it is, may ask the ingester across an await, and
then hands a change to `JobsFileRepository.update`. -/
structure ServiceCall (κ : Type) where
  /-- What the check finds; none where it raises. -/
  check : JobsSnapshot → Option κ
  asks : Bool
  mutate : κ → Mapping → Except CatalogError Mapping
  rules : κ → Option (Mapping → List String)

/-- The write a check leads to. -/
def ServiceCall.call {κ : Type} (c : ServiceCall κ) (found : κ) : Call :=
  .update (c.mutate found) (c.rules found)

inductive ServicePhase (κ : Type) where
  /-- About to read the file for the check. -/
  | checking
  /-- At the await of the ingester's verdict. -/
  | asking (found : κ)
  | writing (found : κ) (phase : Phase)
  | raised

structure Serving (κ : Type) where
  file : Option Bytes
  phase : ServicePhase κ

/-- The write begins. -/
def ServiceCall.begin {κ : Type} (c : ServiceCall κ) (found : κ) : ServicePhase κ :=
  .writing found (.reading (c.call found).attempts)

/-- One step: somebody else's, or one of the call.  At the await, `fails` is a verdict against the
job. -/
def ServiceCall.step {κ : Type} (rt : Runtime) (yaml : Yaml) (c : ServiceCall κ) (s : Serving κ) :
    Event → Option (Serving κ)
  | .foreign content => some { s with file := content }
  | .manager fails =>
      match s.phase with
      | .checking =>
          match c.check (snapshotOf rt yaml (readFile s.file fails)) with
          | none => some ⟨s.file, .raised⟩
          | some found => some ⟨s.file, if c.asks then .asking found else c.begin found⟩
      | .asking found => some ⟨s.file, if fails then .raised else c.begin found⟩
      | .writing found phase =>
          (managerStep rt yaml (c.call found) s.file fails phase).map fun result =>
            ⟨result.1, .writing found result.2⟩
      | .raised => none

/-- `JobsService._defaults`. -/
def serviceDefaults (document : Mapping) : Mapping :=
  mappingAt document "defaults"

/-! ### `set_defaults` -/

/-- The sections of the request that hold something. -/
def cleanSections (sections : Mapping) : Mapping :=
  (knownDefaults sections).filter fun entry => match entry.2 with
    | .map section_ => !section_.isEmpty
    | _ => false

/-- The check of `set_defaults`: the document that was checked, or none where it raises. -/
def setDefaultsCheck (rt : Runtime) (ctx : RuleContext) (sections : Mapping)
    (snapshot : JobsSnapshot) : Option Mapping :=
  let unknown := sections.any fun entry => !isKeyIn defaultSections entry.1
  if unknown then none
  else if checkCatalog rt (putDefaults (cleanSections sections) snapshot.document) ctx = [] then
    some snapshot.document
  else none

/-- `JobsService.set_defaults`. -/
def setDefaultsCall (rt : Runtime) (etagOf : Val → String) (ctx : RuleContext)
    (sections : Mapping) : ServiceCall Mapping where
  check := setDefaultsCheck rt ctx sections
  asks := false
  mutate _ := (Change.setDefaults (cleanSections sections)).mutate rt etagOf
  rules _ := none

/-! ### `save` -/

/-- `is_managed`. -/
def isManaged (jobId : String) : Bool :=
  startsWith jobId "mgr-"

/-- `id_problem`. -/
def idProblem (value : String) : Option String :=
  if !isSlug value then
    some "use lowercase letters, digits, '-' and '_' (up to 64, starting with a letter or a digit)"
  else if value = "new" then some ("'" ++ value ++ "' is reserved")
  else if isManaged value then
    some "ids starting with 'mgr-' belong to the Embedding page; choose another"
  else none

/-- What the editor sends.  `opened` is the entry its etag was computed from. -/
structure SaveRequest where
  state : Mapping
  create : Bool
  opened : Option Val
  originalId : Option String

structure Candidate where
  entry : Mapping
  jobId : String
  /-- The catalog with the entry in. -/
  document : Mapping
  defaults : Mapping
  spec : Option JobSpec
  issues : List Issue

/-- The problems with the id of a candidate. -/
def idIssues (request : SaveRequest) (jobId : String) (jobs : List Val) : List Issue :=
  if request.create then
    match idProblem jobId with
    | some problem => [⟨if jobId = "" then none else some jobId, "id", problem⟩]
    | none =>
        if (findJob jobs jobId).isSome then
          [⟨some jobId, "id", "a job with this id already exists"⟩]
        else []
  else
    (match request.originalId with
      | some original =>
          if jobId = original then []
          else [⟨some original, "id", "the id of a job cannot change, because its content is " ++
            "tied to it; duplicate the job instead"⟩]
      | none => []) ++
    (if isManaged (request.originalId.getD jobId) then
      [⟨some jobId, "id",
        "this job belongs to the Embedding page; its next run would overwrite a change"⟩]
    else [])

/-- `_candidate`; none where it raises. -/
def candidateOf (rt : FormRuntime) (request : SaveRequest) (snapshot : JobsSnapshot) :
    Option Candidate :=
  match snapshot.structuralError with
  | some _ => none
  | none => do
      let defaults := serviceDefaults snapshot.document
      let (entry, issues) ← authored rt request.state defaults
      let jobId := rt.textOr "" (entry.getD "id")
      let jobs := ((snapshot.document.getD "jobs").list?).getD []
      let document ← candidateDocument snapshot.document jobId entry
      let (spec, schemaIssues) := parseJob rt.toRuntime entry defaults none
      pure
        { entry := entry
          jobId := jobId
          document := document
          defaults := defaults
          spec := spec
          issues := issues ++ idIssues request jobId jobs ++ schemaIssues }

/-- `_problems` up to the question to the ingester. -/
def Candidate.problems (rt : Runtime) (ctx : RuleContext) (candidate : Candidate) : List Issue :=
  candidate.issues ++
    if candidate.spec.isSome then checkOne rt candidate.document candidate.jobId ctx else []

/-- The check of `save`: the candidate, when nothing is wrong with it. -/
def saveCheck (rt : FormRuntime) (ctx : RuleContext) (request : SaveRequest)
    (snapshot : JobsSnapshot) : Option Candidate :=
  (candidateOf rt request snapshot).filter fun candidate =>
    (candidate.problems rt.toRuntime ctx).isEmpty

/-- `Issue.__str__`. -/
def Issue.text (issue : Issue) : String :=
  (match issue.jobId with
    | some jobId => if jobId = "" then "" else jobId ++ ": "
    | none => "") ++ issue.field ++ ": " ++ issue.message

/-- `JobsService.save` until its write.  `ctx` is what the candidate is checked against, `current`
what the document is checked against that is written. -/
def saveCall (rt : FormRuntime) (etagOf : Val → String) (ctx current : RuleContext)
    (request : SaveRequest) : ServiceCall Candidate where
  check := saveCheck rt ctx request
  asks := true
  mutate candidate := (Change.putJob candidate.jobId candidate.entry request.create
    request.opened).mutate rt.toRuntime etagOf
  rules candidate := some fun document =>
    (checkOne rt.toRuntime document candidate.jobId current).map Issue.text

/-! ### `set_enabled` -/

/-- The check of `set_enabled`: the job is there, it is nobody else's, and one that is to be enabled
passes the rules as an enabled job.  The two reads of the file are one here. -/
def switchCheck (rt : Runtime) (etagOf : Val → String) (ctx : RuleContext) (jobId : String)
    (enabled : Bool) (snapshot : JobsSnapshot) : Option Unit :=
  let jobs := ((snapshot.document.getD "jobs").list?).getD []
  if (findJob jobs jobId).isNone || isManaged jobId then none
  else if enabled then
    match (Change.setEnabled jobId true).mutate rt etagOf snapshot.document with
    | .ok candidate => if checkOne rt candidate jobId ctx = [] then some () else none
    | .error _ => none
  else some ()

/-- `JobsService.set_enabled` until its write. -/
def switchCall (rt : Runtime) (etagOf : Val → String) (ctx current : RuleContext) (jobId : String)
    (enabled : Bool) : ServiceCall Unit where
  check := switchCheck rt etagOf ctx jobId enabled
  asks := false
  mutate _ := (Change.setEnabled jobId enabled).mutate rt etagOf
  rules _ := if enabled then
      some fun document => (checkOne rt document jobId current).map Issue.text
    else none

end Papaia.Ingest
