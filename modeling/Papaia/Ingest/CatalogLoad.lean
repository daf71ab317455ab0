/-
Module: Papaia.Ingest.CatalogLoad
Purpose: A write of `jobs.yaml` and the question whether the ingester took it: what the ingester
  holds after a reload, how it reports a job, and the two comparisons the manager makes.
Trusted boundary: Runtime, Reporting (the ingester's JSON and its masks)
Main exports: Reporting, JobSpec.dump, jobIn, heldAfter, subsetMatches, loadedAsWritten,
  servedAsWritten, reloadAndVerify, afterWrite
-/
import Papaia.Ingest.ManagedJobs
import Papaia.Ingest.Changes

namespace Papaia.Ingest

open Text

/-! ### How the ingester reports a job -/

/-- What a report makes of the values the schema takes as they are, and of credentials. -/
structure Reporting where
  /-- A value of the payload after its way through JSON. -/
  json : Val → Val
  /-- What stands for a credential that is set. -/
  mask : String → Val
  /-- What stands for a credential that is not. -/
  unset : Val
  mask_truthy : ∀ reference, (mask reference).truthy = true
  unset_falsy : unset.truthy = false

/-- The word of a choice. -/
def wordOf {α : Type} [DecidableEq α] (table : List (String × α)) (a : α) : String :=
  ((table.find? fun entry => entry.2 = a).map (·.1)).getD ""

def dumpOption {α : Type} (dump : α → Val) : Option α → Val
  | none => .null
  | some a => dump a

def dumpTexts (texts : List String) : Val :=
  .list (texts.map .str)

def SourceValue.dump (r : Reporting) : SourceValue → Val
  | .text value => .str value
  | .secret none => r.unset
  | .secret (some reference) => r.mask reference
  | .port value => .int value
  | .flag value => .bool value

def SourceSpec.dump (r : Reporting) (source : SourceSpec) : Mapping :=
  (.str "type", .str source.type.word) :: (.str "label", .str source.label) ::
    (.str "rclone_flags", dumpTexts source.rcloneFlags) ::
    source.values.map fun entry => (.str entry.1, entry.2.dump r)

def FiltersSpec.dump (filters : FiltersSpec) : Mapping :=
  [(.str "include", dumpTexts filters.includes), (.str "exclude", dumpTexts filters.exclude),
    (.str "max_file_bytes", dumpOption .int filters.maxFileBytes)]

def TargetSpec.dump (r : Reporting) (target : TargetSpec) : Mapping :=
  [(.str "collection", .str target.collection), (.str "connection", .str target.connection),
    (.str "acl_tags", dumpTexts target.aclTags),
    (.str "extra_payload",
      .map (target.extraPayload.map fun entry => (.str entry.1, r.json entry.2)))]

def ScheduleSpec.dump (schedule : ScheduleSpec) : Mapping :=
  [(.str "cron", dumpOption .str schedule.cron), (.str "every", dumpOption .str schedule.every),
    (.str "timezone", dumpOption .str schedule.timezone),
    (.str "jitter_seconds", .int schedule.jitterSeconds),
    (.str "misfire_grace_seconds", .int schedule.misfireGraceSeconds),
    (.str "run_on_startup", .str (wordOf RunOnStartup.table schedule.runOnStartup))]

def ChunkingSpec.dump (chunking : ChunkingSpec) : Mapping :=
  [(.str "strategy", .str (wordOf ChunkStrategy.table chunking.strategy)),
    (.str "words", .int chunking.words), (.str "overlap", .int chunking.overlap)]

def EmbeddingSpec.dump (embedding : EmbeddingSpec) : Mapping :=
  [(.str "model", dumpOption .str embedding.model),
    (.str "batch_size", dumpOption .int embedding.batchSize)]

def SafetySpec.dump (safety : SafetySpec) : Mapping :=
  [(.str "max_delete_ratio", .float safety.maxDeleteRatio),
    (.str "empty_source_guard", .bool safety.emptySourceGuard)]

/-- A job with every default, by authored key. -/
def JobSpec.dump (r : Reporting) (spec : JobSpec) : Mapping :=
  [(.str "id", .str spec.id), (.str "enabled", .bool spec.enabled),
    (.str "description", .str spec.description), (.str "source", .map (spec.source.dump r)),
    (.str "filters", .map spec.filters.dump), (.str "target", .map (spec.target.dump r)),
    (.str "mode", .str (wordOf Mode.table spec.mode)),
    (.str "full_scope", .str (wordOf FullScope.table spec.fullScope)),
    (.str "append_probe", .str (wordOf AppendProbe.table spec.appendProbe)),
    (.str "schedule", .map spec.schedule.dump), (.str "chunking", .map spec.chunking.dump),
    (.str "embedding", .map spec.embedding.dump), (.str "safety", .map spec.safety.dump),
    (.str "mcp_allow_full", .bool spec.mcpAllowFull),
    (.str "expand_embedded", .bool spec.expandEmbedded),
    (.str "source_template", .str spec.sourceTemplate)]

/-! ### What the ingester holds -/

/-- An entry of the catalog and the job it is, when it parses. -/
def parsedEntry (rt : Runtime) (defaults : Mapping) (raw : Val) : Option (Mapping × JobSpec) :=
  raw.mapping?.bind fun entry =>
    (readJobSpec rt (effective entry defaults)).toOption.map fun spec => (entry, spec)

/-- The defaults of a document, none where it has no mapping of them. -/
def catalogDefaults (document : Mapping) : Mapping :=
  (defaultsOf document).getD []

/-- The job of a catalog with an id, and its entry.  A catalog the ingester takes has every id
once. -/
def jobIn (rt : Runtime) (document : Mapping) (jobId : String) : Option (Mapping × JobSpec) :=
  (((jobsOf document).getD []).filterMap (parsedEntry rt (catalogDefaults document))).find?
    fun entry => entry.2.id = jobId

/-- One error of a reload. -/
structure ReloadError where
  jobId : Option String
  field : String
  message : String
deriving DecidableEq, Repr

/-- The catalog the ingester holds after a reload: the new one as a whole, or, when it reports an
error, its previous one. -/
def heldAfter (errors : List ReloadError) (old new : Mapping) : Mapping :=
  if errors.isEmpty then new else old

/-- `GET /v1/jobs/\x7bid\x7d`. -/
def detailOf (rt : Runtime) (r : Reporting) (held : Mapping) (jobId : String) : Option Mapping :=
  (jobIn rt held jobId).map fun entry => [(.str "config", .map (entry.2.dump r))]

/-! ### The comparison -/

/-- `_SECRET_FIELDS`. -/
def secretFields : List String :=
  ["pass", "access_key_id", "secret_access_key", "key_file", "service_account_json", "token",
    "key", "sas_url"]

/-- `mapping[key]` for any key, when it is there. -/
def heldAt (m : Mapping) (key : Scalar) : Option Val :=
  (m.find? fun entry => entry.1.eqv key).map (·.2)

mutual

/-- `subset_matches`: whether everything in the first value is in the second. -/
def subsetMatches : Val → Val → Bool
  | .map wanted, served =>
      match served with
      | .map entries => subsetEntries wanted entries
      | _ => false
  | wanted, served => wanted.eqv served

/-- The entries of a mapping against another one. -/
def subsetEntries : List (Scalar × Val) → Mapping → Bool
  | [], _ => true
  | (key, value) :: rest, served =>
      (match heldAt served key with
        | some w => subsetMatches value w
        | none => false) && subsetEntries rest served

end

/-- Whether a key of a source is one whose value is masked. -/
def isSecretKey : Scalar → Bool
  | .str key => secretFields.contains key
  | _ => false

def maskedEntries (source : Mapping) : Mapping :=
  source.filter fun entry => isSecretKey entry.1

def withoutSecrets (source : Mapping) : Mapping :=
  source.filter fun entry => !isSecretKey entry.1

/-- `_mapping`. -/
def mappingOr (v : Val) : Mapping :=
  v.mapping?.getD []

/-- `loaded_as_written`. -/
def loadedAsWritten (detail effectiveJob : Mapping) : Bool :=
  match (detail.getD "config").mapping? with
  | none => false
  | some config =>
      let wantedSource := mappingOr (effectiveJob.getD "source")
      let servedSource := mappingOr (Mapping.getD config "source")
      (maskedEntries wantedSource).all
          (fun entry => (heldAt servedSource entry.1).any Val.truthy) &&
        subsetEntries (effectiveJob.put (.str "source") (.map (withoutSecrets wantedSource))) config

/-- `list(value or [])`. -/
def listOr (v : Val) : List Val :=
  v.list?.getD []

/-- `served[name].get(key) == job[name][key]`. -/
def sameAt (config job : Mapping) (name key : String) : Bool :=
  (Mapping.getD (mappingOr (config.getD name)) key).eqv
    (Mapping.getD (mappingOr (job.getD name)) key)

/-- `_served_as_written` of the Embedding page. -/
def servedAsWritten (detail job : Mapping) : Bool :=
  match (detail.getD "config").mapping? with
  | none => false
  | some config =>
      let filters := mappingOr (Mapping.getD config "filters")
      let wanted := mappingOr (job.getD "filters")
      let unwanted := listOr (wanted.getD "exclude")
      sameAt config job "source" "path" && sameAt config job "source" "label" &&
        sameAt config job "target" "collection" && sameAt config job "target" "connection" &&
        sameAt config job "embedding" "model" &&
        Val.eqvList (listOr (filters.getD "include")) (listOr (wanted.getD "include")) &&
        Val.eqvList ((listOr (filters.getD "exclude")).take unwanted.length) unwanted

/-! ### The reload -/

/-- `LoadOutcome`. -/
structure LoadOutcome where
  applied : Bool
  elsewhere : List String := []
deriving DecidableEq, Repr

/-- `issue_text`. -/
def ReloadError.text (error : ReloadError) : String :=
  let named := (filled error.jobId).getD "jobs.yaml"
  named ++ ": " ++ error.field ++ ": " ++ error.message

/-- `reload_and_verify`, from the errors of the reload and the job as it is reported then. -/
def reloadAndVerify (errors : List ReloadError) (jobId : String) (detail : Option Mapping)
    (agrees : Mapping → Bool) (tolerateOtherProblems : Bool) : Except CatalogError LoadOutcome :=
  let mine := (errors.filter fun error => error.jobId = some jobId).map ReloadError.text
  let others := (errors.filter fun error => error.jobId ≠ some jobId).map ReloadError.text
  if mine.isEmpty && detail.any agrees then .ok { applied := true }
  else if mine.isEmpty && !others.isEmpty && tolerateOtherProblems then
    .ok { applied := false, elsewhere := others }
  else
    let problems :=
      if !mine.isEmpty then mine
      else if !others.isEmpty then others
      else ["the ingester kept its previous job catalog"]
    .error (.rejected ("The ingester did not take the job: " ++ joinWith "; " problems))

/-- `_after_write` of a write with a comparison: the outcome, or the write is undone. -/
def afterWrite (rt : Runtime) (r : Reporting) (errors : List ReloadError) (old new : Mapping)
    (jobId : String) (agrees : Mapping → Bool) (tolerateOtherProblems : Bool) :
    Except CatalogError LoadOutcome :=
  reloadAndVerify errors jobId (detailOf rt r (heldAfter errors old new) jobId) agrees
    tolerateOtherProblems

/-- What `save` compares: the entry with the catalog defaults merged in. -/
def savedAgrees (new entry detail : Mapping) : Bool :=
  loadedAsWritten detail (effective entry (catalogDefaults new))

/-- What `set_enabled` compares, with the entry as it was before the write. -/
def switchedAgrees (new raw : Mapping) (enabled : Bool) (detail : Mapping) : Bool :=
  loadedAsWritten detail (effective (raw.put (.str "enabled") (.bool enabled)) (catalogDefaults new))

/-- What `_load` of the Embedding page compares. -/
def runAgrees (entry detail : Mapping) : Bool :=
  servedAsWritten detail entry

end Papaia.Ingest
