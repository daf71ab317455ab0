/-
Module: Papaia.Ingest.Rules
Purpose: The catalog rules of `jobspec.py`: the merge of the defaults, the reading of one authored
  job, the rules of the loader for one job and across jobs, and the two questions a page asks,
  about the whole catalog and about one job of it.
Trusted boundary: Runtime
Main exports: Issue, deepMerge, effective, parseJob, RuleContext, checkJob, crossJob, checkCatalog,
  checkOne
-/
import Papaia.Ingest.JobSpec
import Papaia.Lib.FirstSeen
import Papaia.Backup.Zone
import Mathlib.Data.List.Sort

namespace Papaia.Ingest

open Text FirstSeen

/-! ### Problems -/

/-- One problem, attributable to a job and a field. -/
structure Issue where
  jobId : Option String
  field : String
  message : String
deriving DecidableEq, Repr

/-- `_FRIENDLY`. -/
def friendly : List (String × String) :=
  [("missing", "this is required"),
    ("extra_forbidden", "is not a setting the ingester knows"),
    ("string_too_short", "this is required"),
    ("string_pattern_mismatch", "has a format the ingester does not accept"),
    ("int_parsing", "must be a whole number"),
    ("float_parsing", "must be a number"),
    ("bool_parsing", "must be true or false"),
    ("greater_than_equal", "is too small"),
    ("less_than_equal", "is too large")]

/-- The path of a fault without the chosen kind of source in it. -/
def issuePath : List String → List String
  | "source" :: tag :: rest =>
      if (SourceType.table.map (·.1)).contains tag then "source" :: rest
      else "source" :: tag :: rest
  | loc => loc

/-- The text of a fault that misses a pattern, by the last key of its path. -/
def patternText (tail : String) : String :=
  if ["id", "label", "connection"].contains tail then
    "use lowercase letters, digits, '-' and '_' (up to 64, starting with a letter or a digit)"
  else if tail = "collection" then
    "use letters, digits, '.', '_' and '-' (up to 128, starting with a letter or a digit)"
  else "has a format the ingester does not accept"

/-- `_issue_from`. -/
def issueFrom (jobId : Option String) (fault : Fault) : Issue :=
  let loc := issuePath fault.loc
  let path := if loc.isEmpty then "<root>" else joinWith "." loc
  let text :=
    if fault.kind = "string_pattern_mismatch" then patternText (loc.getLast?.getD "")
    else
      match friendly.lookup fault.kind with
      | some known => known
      | none =>
          if fault.kind = "value_error" then
            if startsWith fault.msg "Value error, " then
              String.ofList (fault.msg.toList.drop 13)
            else fault.msg
          else if fault.kind = "literal_error" && loc.getLast? == some "type" then
            "choose one of the source types"
          else fault.msg
  { jobId := jobId, field := path, message := text }

/-! ### Effective and authored -/

mutual

/-- The value a key has after the merge: mappings merge, everything else is replaced by the job's
value. -/
def mergeValue (old : Option Val) : Val → Val
  | .map override =>
      match old with
      | some (.map base) =>
          .map (base.map (fun entry => (entry.1, mergedAt entry.2 entry.1 override)) ++
            override.filter fun entry => (base.lookup entry.1).isNone)
      | _ => .map override
  | v => v

/-- What the override makes of the old value of a key. -/
def mergedAt (old : Val) (key : Scalar) : List (Scalar × Val) → Val
  | [] => old
  | (k, v) :: rest => if k = key then mergeValue (some old) v else mergedAt old key rest

end

/-- `deep_merge`, by key: the keys of the base in their place, then the new keys of the override.
A dict has every key once, so the loop of the source visits no key twice. -/
def deepMerge (base override : Mapping) : Mapping :=
  base.map (fun entry => (entry.1, mergedAt entry.2 entry.1 override)) ++
    override.filter fun entry => (base.lookup entry.1).isNone

/-- Sections of `defaults:` that are mixed under every job. -/
def defaultSections : List String :=
  ["embedding", "chunking", "filters", "schedule", "safety"]

/-- `known_defaults`: the part of a catalog's `defaults:` the ingester applies. -/
def knownDefaults (defaults : Mapping) : Mapping :=
  defaultSections.filterMap fun key => (defaults.get? key).map fun value => (.str key, value)

/-- The job as the ingester merges it: the catalog defaults under the authored keys. -/
def effective (raw defaults : Mapping) : Mapping :=
  deepMerge (knownDefaults defaults) raw

/-- The id a job is reported under: its own when it is a non-empty text. -/
def reportedId (raw : Mapping) (label : Option String) : Option String :=
  match raw.get? "id" with
  | some (.str id) => if id = "" then label else some id
  | _ => label

/-- `parse_job`: the job, or what is wrong with it. -/
def parseJob (rt : Runtime) (raw defaults : Mapping) (label : Option String) :
    Option JobSpec × List Issue :=
  match readJobSpec rt (effective raw defaults) with
  | .ok spec => (some spec, [])
  | .error faults => (none, faults.toList.map (issueFrom (reportedId raw label)))

/-! ### The rules of the loader for one job -/

/-- What the ingester knows when it loads a catalog.  `connections` and `secrets` are none when
they cannot be read. -/
structure RuleContext where
  connections : Option (List String) := none
  secrets : Option (List String) := none
  systemCollections : List String := ["_collection_meta", "_rbac_acl"]
  localRoot : String := "/data/local"
deriving Repr

/-- `posixpath.normpath`. -/
def normpath (path : String) : String :=
  let chars := path.toList
  -- two leading slashes are kept, one or more than two become one
  let slashes := (chars.takeWhile (· == '/')).length
  let lead := if slashes = 2 then "//" else if slashes = 0 then "" else "/"
  let step := fun (kept : List String) (part : List Char) =>
    if part = [] || part = ['.'] then kept
    else if part = ['.', '.'] then
      match kept with
      | [] => if slashes = 0 then [".."] else []
      | last :: before => if last = ".." then ".." :: kept else before
    else String.ofList part :: kept
  let body := joinWith "/" ((chars.splitOn '/').foldl step []).reverse
  if lead ++ body = "" then "." else lead ++ body

def backslashesTurned (path : String) : String :=
  String.ofList (path.toList.map fun c => if c = '\\' then '/' else c)

/-- `_local_path_problem`. -/
def localPathProblem (path root : String) : Option String :=
  let mount := String.ofList
    ((normpath (backslashesTurned root)).toList.reverse.dropWhile (· == '/')).reverse
  let normalised := normpath (backslashesTurned path)
  if normalised = mount || startsWith normalised (mount ++ "/") then none
  else some ("local source paths must live under '" ++ mount ++ "' (got '" ++ path ++ "')")

/-- `cron_error` in the zone UTC. -/
def cronError (rt : Runtime) (expression : String) : Option String :=
  (rt.crontabError expression).map fun text => "invalid cron expression: " ++ text

/-- The text of the reference a secret key holds. -/
def SourceSpec.reference (source : SourceSpec) (key : String) : Val :=
  match source.values.lookup key with
  | some (.secret (some text)) => .str text
  | _ => .null

/-- The folder a local source reads. -/
def SourceSpec.localPath (source : SourceSpec) : Option String :=
  if source.type = .localFolder then
    match source.values.lookup "path" with
    | some (.text path) => some path
    | _ => none
  else none

def sortKeys (keys : List String) : List String :=
  keys.insertionSort (· ≤ ·)

/-- `check_job`: the per-job rules of the ingester's loader that the schema does not carry. -/
def checkJob (rt : Runtime) (jobId : String) (spec : JobSpec) (ctx : RuleContext) : List Issue :=
  (match spec.schedule.cron.bind (cronError rt) with
    | some problem => [⟨some jobId, "schedule.cron", problem⟩]
    | none => []) ++
  (match spec.schedule.timezone with
    | some name =>
        if name = "" then []
        else
          match Backup.zoneError rt.knowsZone (rt.repr (.str name)) name with
          | some problem => [⟨some jobId, "schedule.timezone", problem⟩]
          | none => []
    | none => []) ++
  (match ctx.secrets with
    | none => []
    | some known =>
        (sortKeys (secretKeys spec.source.type)).filterMap fun key =>
          match secretName (spec.source.reference key) with
          | some name =>
              if known.contains name then none
              else some ⟨some jobId, "source." ++ key,
                "the credential '" ++ name ++ "' does not exist; add it on the Credentials page " ++
                  "or choose another"⟩
          | none => none) ++
  (match spec.source.localPath.bind (localPathProblem · ctx.localRoot) with
    | some problem => [⟨some jobId, "source.path", problem⟩]
    | none => []) ++
  (if spec.enabled && spec.embedding.model.getD "" = "" then
    [⟨some jobId, "embedding.model",
      "no embedding model: set one for this job or in the catalog defaults"⟩]
  else []) ++
  (match ctx.connections with
    | none => []
    | some known =>
        if known.contains spec.target.connection then []
        else [⟨some jobId, "target.connection",
          "unknown connection '" ++ spec.target.connection ++
            "'; add it on the Connections page"⟩])

/-! ### The rules across jobs -/

/-- A job of the catalog under the id it is reported with. -/
abbrev Row := String × JobSpec

/-- No two jobs have one id. -/
def idRule : Rule Row String Issue where
  key row := some row.1
  clash _ _ := true
  report _ row := ⟨some row.1, "id", "duplicate job id"⟩

/-- On one collection every label serves one job. -/
def labelRule : Rule Row (String × String) Issue where
  key row := some (row.2.target.collection, row.2.source.label)
  clash _ _ := true
  report other row :=
    ⟨some row.1, "source.label",
      "the label '" ++ row.2.source.label ++ "' already serves the collection '" ++
        row.2.target.collection ++ "' in the job '" ++ other.1 ++
        "'; labels have to differ per collection"⟩

/-- The model a job names, when it names one. -/
def JobSpec.modelName (spec : JobSpec) : String :=
  spec.embedding.model.getD ""

/-- One model per collection.  A job without a model is passed over. -/
def modelRule : Rule Row String Issue where
  key row := if row.2.modelName = "" then none else some row.2.target.collection
  clash first row := first.2.modelName != row.2.modelName
  report first row :=
    ⟨some row.1, "embedding.model",
      "the collection '" ++ row.2.target.collection ++ "' is already served with '" ++
        first.2.modelName ++ "' by the job '" ++ first.1 ++ "'; one model per collection"⟩

/-- One connection per collection. -/
def connectionRule : Rule Row String Issue where
  key row := some row.2.target.collection
  clash first row := first.2.target.connection != row.2.target.connection
  report first row :=
    ⟨some row.1, "target.connection",
      "the collection '" ++ row.2.target.collection ++ "' is already served over '" ++
        first.2.target.connection ++ "' by the job '" ++ first.1 ++
        "'; one connection per collection"⟩

/-- The loop over the enabled jobs that keeps the tables `models` and `connections`. -/
def servingIssues (models connections : List (String × Row)) : List Row → List Issue
  | [] => []
  | row :: rest =>
      (modelRule.note models row).2 ++ (connectionRule.note connections row).2 ++
        servingIssues (modelRule.note models row).1 (connectionRule.note connections row).1 rest

/-- A system collection is no target. -/
def systemIssue (ctx : RuleContext) (row : Row) : Option Issue :=
  if ctx.systemCollections.contains row.2.target.collection then
    some ⟨some row.1, "target.collection",
      "'" ++ row.2.target.collection ++ "' is a system collection and cannot be a target"⟩
  else none

/-- The jobs the rules about collections look at. -/
def enabledRows (rows : List Row) : List Row :=
  rows.filter fun row => row.2.enabled

/-- `_cross_job`. -/
def crossJob (rows : List Row) (ctx : RuleContext) : List Issue :=
  idRule.scan [] rows ++ rows.filterMap (systemIssue ctx) ++
    labelRule.scan [] (enabledRows rows) ++ servingIssues [] [] (enabledRows rows)

/-! ### The whole catalog -/

/-- The defaults of a document, when they are a mapping (or say nothing). -/
def defaultsOf (document : Mapping) : Option Mapping :=
  if (document.getD "defaults").truthy then (document.getD "defaults").mapping? else some []

/-- The jobs of a document, when they are a list (or say nothing). -/
def jobsOf (document : Mapping) : Option (List Val) :=
  if (document.getD "jobs").truthy then (document.getD "jobs").list? else some []

/-- `jobs[index]`. -/
def indexLabel (index : Nat) : String :=
  "jobs[" ++ toString index ++ "]"

/-- One entry of the catalog: the job it parses to, and what is wrong with it on its own. -/
def checkEntry (rt : Runtime) (defaults : Mapping) (ctx : RuleContext) (index : Nat) (raw : Val) :
    Option Row × List Issue :=
  match raw.mapping? with
  | none => (none, [⟨none, indexLabel index, "job must be a mapping"⟩])
  | some job =>
      match parseJob rt job defaults (some (indexLabel index)) with
      | (none, problems) => (none, problems)
      | (some spec, problems) => (some (spec.id, spec), problems ++ checkJob rt spec.id spec ctx)

/-- The entries of the catalog, in order. -/
def checkEntries (rt : Runtime) (defaults : Mapping) (ctx : RuleContext) (jobs : List Val) :
    List (Option Row × List Issue) :=
  jobs.zipIdx.map fun entry => checkEntry rt defaults ctx entry.2 entry.1

/-- The sections `defaults:` may not have, sorted for the message. -/
def unknownSections (rt : Runtime) (defaults : Mapping) : List String :=
  sortKeys ((defaults.map (rt.keyText ·.1)).filter fun key => !defaultSections.contains key)

/-- `version != 1`, where Python also takes `True` and `1.0` for one. -/
def isVersionOne (document : Mapping) : Bool :=
  (document.getD "version").eqv (.int 1)

/-- `check_catalog`: what the ingester would say about a whole catalog. -/
def checkCatalog (rt : Runtime) (document : Mapping) (ctx : RuleContext) : List Issue :=
  if !isVersionOne document then
    [⟨none, "version", "unsupported catalog version " ++ rt.repr (document.getD "version") ++
      "; expected 1"⟩]
  else
    match defaultsOf document with
    | none => [⟨none, "defaults", "defaults must be a mapping"⟩]
    | some defaults =>
        let sections :=
          if (unknownSections rt defaults).isEmpty then []
          else [⟨none, "defaults", "unsupported defaults sections: " ++
            joinWith ", " (unknownSections rt defaults)⟩]
        match jobsOf document with
        | none => sections ++ [⟨none, "jobs", "jobs must be a list"⟩]
        | some jobs =>
            let entries := checkEntries rt defaults ctx jobs
            sections ++ entries.flatMap (·.2) ++ crossJob (entries.filterMap (·.1)) ctx

/-- `check_one`: the issues that are reported about one job. -/
def checkOne (rt : Runtime) (document : Mapping) (jobId : String) (ctx : RuleContext) :
    List Issue :=
  (checkCatalog rt document ctx).filter fun issue => issue.jobId == some jobId

end Papaia.Ingest
