/-
Module: Papaia.Ingest.Catalog
Purpose: `jobs.yaml` as the manager reads and changes it: the parsed document or the reason it
  cannot be used, the snapshot of one read, and the changes of a document.
Trusted boundary: Yaml (the parser, the dumper) and the hash of a file's bytes
Main exports: FileRead, JobsSnapshot, parseDocument, parseJobs, snapshotOf, indexOf, placeJob, putJob,
  setEnabledJob, candidateDocument
-/
import Papaia.Ingest.Rules

namespace Papaia.Ingest

open Text

/-- The bytes of a file. -/
abbrev Bytes := List UInt8

/-- The YAML library and the hash. -/
structure Yaml where
  /-- `yaml.safe_load`, with the text of a `YAMLError`. -/
  load : Bytes → Except String Val
  /-- `dump_document(document).encode("utf-8")`. -/
  dump : Mapping → Bytes
  /-- `hashlib.sha256(raw).hexdigest()`. -/
  sha256 : Bytes → String

/-- `revision`: the hash of the bytes, or the empty text when there is nothing. -/
def Yaml.revision (yaml : Yaml) (raw : Bytes) : String :=
  if raw.isEmpty then "" else yaml.sha256 raw

/-- The bytes of an ASCII text. -/
def asciiBytes (text : String) : Bytes :=
  text.toList.map fun c => UInt8.ofNat c.toNat

/-- The library on one file: its text parses to the document, and nothing else is looked at. -/
def oneFileYaml (text : String) (document : Mapping) : Yaml where
  load raw := if raw = asciiBytes text then .ok (.map document) else .error "another file"
  dump _ := asciiBytes text
  sha256 raw := String.ofList ('x' :: raw.map fun byte => Char.ofNat byte.toNat)

/-- What a read of the file gives. -/
inductive FileRead where
  | missing
  | unreadable (reason : String)
  | content (raw : Bytes)
deriving DecidableEq, Repr

/-- A catalog file without entries; `key` names its list. -/
def starterOf (key : String) : Mapping :=
  [(.str "version", .int 1), (.str key, .list [])]

/-- `_starter`. -/
def starter : Mapping :=
  starterOf "jobs"

/-- `splitlines()[0]` of a stripped text, or a stand-in for an empty one. -/
def firstLine (text : String) : String :=
  let line := (strip text).toList.takeWhile fun c => c != '\n' && c != '\r'
  if (strip text) = "" then "invalid YAML" else String.ofList line

/-- `document.setdefault(key, value)`. -/
def setDefault (document : Mapping) (key : String) (value : Val) : Mapping :=
  match document.get? key with
  | some _ => document
  | none => document.put (.str key) value

/-- The mapping a parsed file stands for: an empty file is an empty mapping. -/
def topLevel : Val → Option Mapping
  | .null => some []
  | .map entries => some entries
  | _ => none

/-- The parsing of the three catalog files, which differ in the name of their list: the document, or
the empty one with the reason the file cannot be changed. -/
def parseDocument (key : String) (rt : Runtime) (yaml : Yaml) (raw : Bytes) :
    Mapping × Option String :=
  match yaml.load raw with
  | .error text => (starterOf key, some ("invalid YAML: " ++ firstLine text))
  | .ok value =>
      match topLevel value with
      | none => (starterOf key, some "the top level must be a mapping")
      | some mapping =>
          let document := setDefault mapping "version" (.int 1)
          if !isVersionOne document then
            (starterOf key, some ("unsupported " ++ key ++ " version " ++
              rt.repr (document.getD "version") ++ "; expected 1"))
          else
            match document.getD key with
            | .null => (document.put (.str key) (.list []), none)
            | .list _ => (document, none)
            | _ => (starterOf key, some (key ++ " must be a list"))

/-- `_parse` of `jobs.yaml`. -/
def parseJobs (rt : Runtime) (yaml : Yaml) (raw : Bytes) : Mapping × Option String :=
  parseDocument "jobs" rt yaml raw

/-- The file as read once. -/
structure JobsSnapshot where
  present : Bool
  raw : Bytes
  revision : String
  document : Mapping
  structuralError : Option String
deriving Repr

/-- `JobsFileRepository.snapshot`, from what the read of the file gave. -/
def snapshotOf (rt : Runtime) (yaml : Yaml) : FileRead → JobsSnapshot
  | .missing =>
      { present := false, raw := [], revision := "", document := starter, structuralError := none }
  | .unreadable reason =>
      { present := true, raw := [], revision := "", document := starter,
        structuralError := some ("the file cannot be read: " ++ reason) }
  | .content raw =>
      { present := true, raw := raw, revision := yaml.revision raw,
        document := (parseJobs rt yaml raw).1, structuralError := (parseJobs rt yaml raw).2 }

/-! ### Changes of a document -/

/-- Whether an entry of the list is a job with this id. -/
def hasId (jobId : String) (job : Val) : Bool :=
  match job with
  | .map entries => (Mapping.getD entries "id").eqv (.str jobId)
  | _ => false

/-- `_find`: the first job with an id. -/
def findJob (jobs : List Val) (jobId : String) : Option Val :=
  jobs.find? (hasId jobId)

/-- `_index_of`. -/
def indexOf (jobs : List Val) (jobId : String) : Option Nat :=
  jobs.findIdx? (hasId jobId)

/-- A job in the place of the first one with its id, or at the end when the id is new. -/
def placeJob (jobs : List Val) (jobId : String) (entry : Mapping) : List Val :=
  match indexOf jobs jobId with
  | some index => jobs.set index (.map entry)
  | none => jobs ++ [.map entry]

/-- `JobsService._candidate`: the catalog with the entry in.  `none` where `jobs` is no list, which
`snapshot` has refused before. -/
def candidateDocument (document : Mapping) (jobId : String) (entry : Mapping) : Option Mapping :=
  match (setDefault document "jobs" (.list [])).getD "jobs" with
  | .list jobs => some (document.put (.str "jobs") (.list (placeJob jobs jobId entry)))
  | _ => none

/-- Why a change of the catalog is refused: it no longer applies, or it cannot be made. -/
inductive CatalogError where
  | conflict (message : String)
  | rejected (message : String)
deriving DecidableEq, Repr

/-- `_check_etag` for the entry that is there. -/
def checkEtag (etagOf : Val → String) (existing : Val) (etag : Option String) (shown : String) :
    Except CatalogError Unit :=
  match etag with
  | some expected =>
      if etagOf existing = expected then .ok ()
      else .error (.conflict ("The job " ++ shown ++
        " was changed by somebody else since it was opened. Reload it to see the current version."))
  | none => .ok ()

/-- The change `put_job` makes to the list of jobs: a create refuses an id that exists, a replace
an entry that is gone or no longer what was edited. -/
def putJob (etagOf : Val → String) (jobId : String) (entry : Mapping) (create : Bool)
    (etag : Option String) (shown : String) (jobs : List Val) : Except CatalogError (List Val) :=
  match indexOf jobs jobId with
  | none =>
      if create then .ok (jobs ++ [.map entry])
      else .error (.conflict ("The job " ++ shown ++ " is no longer in jobs.yaml."))
  | some index =>
      if create then .error (.conflict ("A job with the id " ++ shown ++ " already exists."))
      else
        match checkEtag etagOf (jobs.getD index .null) etag shown with
        | .error problem => .error problem
        | .ok () => .ok (jobs.set index (.map entry))

/-- What `put_job` writes is the entry in its place. -/
theorem putJob_eq_place {etagOf : Val → String} {jobId : String} {entry : Mapping} {create : Bool}
    {etag : Option String} {shown : String} {jobs jobs' : List Val}
    (h : putJob etagOf jobId entry create etag shown jobs = .ok jobs') :
    jobs' = placeJob jobs jobId entry := by
  cases hindex : indexOf jobs jobId with
  | none => cases create <;> simp_all [putJob, placeJob]
  | some index =>
      cases create with
      | true => simp [putJob, hindex] at h
      | false =>
          cases hetag : checkEtag etagOf (jobs.getD index .null) etag shown with
          | error problem => simp only [putJob, hindex, hetag] at h; cases h
          | ok =>
              simp only [putJob, hindex, hetag] at h
              simpa [placeJob, hindex] using h.symm

end Papaia.Ingest
