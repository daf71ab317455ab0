/-
Module: Papaia.Ingest.ManagedJobs
Purpose: The jobs the Embedding page keeps in `jobs.yaml`: their ids, the entry of a run, its place
  in the file, and the page's own check of the rules across jobs, over the raw mappings.
Trusted boundary: Runtime, Naming (`str.lower` and the hash)
Main exports: Naming, managedJobId, ManagedJob, buildJob, catalogProblems, upsert
-/
import Papaia.Ingest.Catalog

namespace Papaia.Ingest

open Text

/-! ### The entry of a run -/

/-- What the ids of managed jobs are made with. -/
structure Naming where
  /-- `text.lower()`. -/
  lower : String → String
  /-- `hashlib.sha256(text.encode()).hexdigest()`. -/
  digest : String → String

/-- The two kinds of source. -/
inductive ManagedKind where
  | upload
  | folder
deriving DecidableEq, Repr

/-- `_KINDS`. -/
def ManagedKind.suffix : ManagedKind → String
  | .upload => "u"
  | .folder => "f"

/-- `LABELS`. -/
def ManagedKind.label : ManagedKind → String
  | .upload => "manager-upload"
  | .folder => "manager-folder"

/-- `_ID_SLUG.sub("-", text)`; `inRun` says that the character before was one to replace. -/
def dashRuns (inRun : Bool) : List Char → List Char
  | [] => []
  | c :: rest =>
      if c.isLower || c.isDigit then c :: dashRuns false rest
      else if inRun then dashRuns true rest
      else '-' :: dashRuns true rest

/-- `text.strip("-")`. -/
def stripDashes (chars : List Char) : List Char :=
  ((chars.dropWhile (· == '-')).reverse.dropWhile (· == '-')).reverse

/-- `managed_job_id`. -/
def managedJobId (naming : Naming) (connection collection : String) (kind : ManagedKind) :
    String :=
  let slug := (stripDashes (dashRuns false (naming.lower collection).toList)).take 32
  let named := if slug.isEmpty then "c" else String.ofList slug
  let digest := String.ofList ((naming.digest (connection ++ "|" ++ collection)).toList.take 8)
  "mgr-" ++ named ++ "-" ++ digest ++ "-" ++ kind.suffix

/-- The arguments of `build_job`. -/
structure ManagedJob where
  kind : ManagedKind
  connection : String
  collection : String
  model : String
  sourcePath : String
  includes : Option (List String)
  exclude : Option (List String) := none
deriving DecidableEq, Repr

/-- The id of the job of a run. -/
def ManagedJob.id (naming : Naming) (job : ManagedJob) : String :=
  managedJobId naming job.connection job.collection job.kind

/-- A list of texts under its key, where it has any. -/
def textsEntry (key : String) (texts : Option (List String)) : Mapping :=
  match texts.getD [] with
  | [] => []
  | text :: rest => [(.str key, .list ((text :: rest).map .str))]

/-- The filters of a run; without any the key is left out. -/
def ManagedJob.filtersEntry (job : ManagedJob) : Mapping :=
  match textsEntry "include" job.includes ++ textsEntry "exclude" job.exclude with
  | [] => []
  | filters => [(.str "filters", .map filters)]

/-- `build_job`. -/
def buildJob (naming : Naming) (job : ManagedJob) : Mapping :=
  [(.str "id", .str (job.id naming)),
    (.str "description", .str
      "Managed by the papaia manager (Embedding page). The next run overwrites changes."),
    (.str "source", .map [(.str "type", .str "local"), (.str "label", .str job.kind.label),
      (.str "path", .str job.sourcePath)])] ++
  job.filtersEntry ++
  [(.str "target", .map [(.str "collection", .str job.collection),
      (.str "connection", .str job.connection)]),
    (.str "mode", .str "append"),
    (.str "embedding", .map [(.str "model", .str job.model)])]

/-! ### Reading the catalog -/

/-- The text under a key of a section. -/
def textIn (job : Mapping) (name key : String) : Option String :=
  (job.getD name).mapping?.bind fun entries => (Mapping.getD entries key).str?

/-- `_enabled`. -/
def rawEnabled (job : Mapping) : Bool :=
  match job.get? "enabled" with
  | some (.bool false) => false
  | _ => true

/-- `_collection_of`. -/
def collectionOf (job : Mapping) : Option String :=
  textIn job "target" "collection"

/-- `_connection_of`. -/
def connectionOf (job : Mapping) : Option String :=
  textIn job "target" "connection"

/-- `_label_of`. -/
def labelOf (job : Mapping) : Option String :=
  textIn job "source" "label"

/-- A text that says something. -/
def filled (text : Option String) : Option String :=
  text.filter fun found => found != ""

/-- `_model_of`: the model of the job, or the one of the catalog defaults. -/
def modelOf (document job : Mapping) : Option String :=
  (filled (textIn job "embedding" "model")).or
    (filled ((document.getD "defaults").mapping?.bind fun defaults =>
      textIn defaults "embedding" "model"))

/-- `_jobs_of`. -/
def mappingsOf (document : Mapping) : List Mapping :=
  ((jobsOf document).getD []).filterMap Val.mapping?

/-- `job.get("id") == job_id`. -/
def isNamed (jobId : String) (job : Mapping) : Bool :=
  (job.getD "id").eqv (.str jobId)

/-- `%(value)r` of a text or `None`. -/
def Runtime.reprText (rt : Runtime) (text : Option String) : String :=
  rt.repr (text.elim .null .str)

/-- What one other job of the collection says against a job: the body of the loop. -/
def problemsWith (rt : Runtime) (document mine other : Mapping) : List String :=
  let job := rt.repr (other.getD "id")
  let collection := rt.reprText (collectionOf mine)
  if !rawEnabled other || collectionOf other != collectionOf mine then []
  else
    (if connectionOf other = connectionOf mine then []
      else ["the job " ++ job ++ " writes to the collection " ++ collection ++
        " on the connection " ++ rt.reprText (connectionOf other) ++
        "; a collection lives in exactly one database"]) ++
    (match modelOf document mine, modelOf document other with
      | some model, some otherModel =>
          if otherModel = model then []
          else ["the job " ++ job ++ " embeds " ++ collection ++ " with " ++
            rt.reprText (some otherModel) ++ "; a collection records exactly one model, and this " ++
            "run uses " ++ rt.reprText (some model)]
      | _, _ => []) ++
    (match labelOf mine with
      | some label =>
          if labelOf other = some label then
            ["the job " ++ job ++ " already uses the source label " ++ rt.reprText (some label) ++
              " on " ++ collection]
          else []
      | none => [])

/-- The connection of a job has to be one of `connections.yaml`, when that can be read. -/
def unknownConnection (rt : Runtime) (connections : Option (List String)) (mine : Mapping) :
    List String :=
  match connections with
  | none => []
  | some known =>
      if (connectionOf mine).any known.contains then []
      else ["the connection " ++ rt.reprText (connectionOf mine) ++ " is not in connections.yaml"]

/-- `catalog_problems`: what the ingester would refuse about one job once the document is loaded. -/
def catalogProblems (rt : Runtime) (document : Mapping) (jobId : String)
    (connections : Option (List String)) : List String :=
  match (mappingsOf document).find? (isNamed jobId) with
  | none => []
  | some mine =>
      unknownConnection rt connections mine ++
      -- `other is mine` leaves out the entry itself, not every entry with its id
      ((mappingsOf document).eraseP (isNamed jobId)).flatMap (problemsWith rt document mine)

/-! ### The file -/

/-- The change `upsert` makes.  `none` where `jobs` is no list, which `snapshot` has refused
before. -/
def upsert (document job : Mapping) (jobId : String) : Option Mapping :=
  match document.get? "jobs" with
  | some (.list jobs) => some (document.put (.str "jobs") (.list (placeJob jobs jobId job)))
  | _ => none

end Papaia.Ingest
