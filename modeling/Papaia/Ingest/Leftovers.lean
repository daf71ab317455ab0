/-
Module: Papaia.Ingest.Leftovers
Purpose: The two deletions that cannot be undone from the page: the content the ingester keeps of a
  job that is gone, and a stored credential.  Both first look into `jobs.yaml`.
Trusted boundary: Runtime, Yaml, `str.upper`
Main exports: ServiceError, deleteOrphan, fullName, references, deleteSecret, deleteCredential
-/
import Papaia.Ingest.Catalog

namespace Papaia.Ingest

open Text

/-- Why the service refuses. -/
inductive ServiceError where
  | conflict (message : String)
  /-- A run of the job is working. -/
  | working (message : String) (runId : Val)
  /-- Jobs use the credential. -/
  | inUse (message : String) (usedBy : List String)
  | invalidRequest (message : String)
  | notFound (what : String)
  | rejected (message : String)
deriving Repr

/-! ### Content that is left over -/

/-- The jobs of a document, as the service looks through them. -/
def jobEntries (document : Mapping) : List Val :=
  (document.getD "jobs").list?.getD []

/-- What the ingester answers when it is asked for the working runs of a job. -/
inductive RunsAnswer where
  | unavailable
  | runs (ids : List Val)
deriving Repr

/-- `_refuse_while_running` before a clean-up.  An ingester that cannot be asked does not hold it
up. -/
def refuseWhileRunning : RunsAnswer → Except ServiceError Unit
  | .unavailable => .ok ()
  | .runs [] => .ok ()
  | .runs (runId :: _) =>
      .error (.working ("A run of this job is working. Wait for it, or abort it, before its " ++
        "content is cleaned up.") runId)

/-- A request that deletes at the ingester. -/
inductive Request where
  /-- `DELETE /v1/orphans/{job_id}` -/
  | deleteOrphan (jobId : String)
deriving DecidableEq, Repr

/-- `delete_orphan`, up to the request it sends. -/
def deleteOrphan (rt : Runtime) (yaml : Yaml) (read : FileRead) (running : RunsAnswer)
    (jobId : String) : Except ServiceError Request :=
  match findJob (jobEntries (snapshotOf rt yaml read).document) jobId with
  | some _ =>
      .error (.conflict ("The job " ++ rt.repr (.str jobId) ++ " is still in jobs.yaml, so its " ++
        "content is not left over: the ingester did not load it. Repair the job instead."))
  | none =>
      match refuseWhileRunning running with
      | .error refusal => .error refusal
      | .ok () => .ok (.deleteOrphan jobId)

/-! ### Stored credentials -/

/-- `full_name`: the stored name of a credential. -/
def fullName (upper : String → String) (name : String) : Option String :=
  let plain := (upper (strip name)).toList.map fun c => if c = '-' || c = ' ' then '_' else c
  let chars := if "QI_SECRET_".toList.isPrefixOf plain then plain else "QI_SECRET_".toList ++ plain
  if isSecretName chars && (chars.drop 10).length ≤ 80 then some (String.ofList chars) else none

/-- The label of a job: its id when it has one, else its place. -/
def jobLabel (index : Nat) (job : Mapping) : String :=
  match job.get? "id" with
  | some (.str id) => if id = "" then indexLabel index else id
  | _ => indexLabel index

/-- The credentials the values of a source refer to. -/
def sourceReferences (job : Mapping) : List String :=
  match job.get? "source" with
  | some (.map source) =>
      source.filterMap fun entry => entry.2.str?.bind fun text => referenceIn (strip text)
  | _ => []

/-- `references(document).get(name, [])`: the labels of the jobs that refer to a credential. -/
def references (document : Mapping) (name : String) : List String :=
  ((jobEntries document).zipIdx.filterMap fun entry =>
    entry.1.mapping?.bind fun job =>
      if (sourceReferences job).contains name then some (jobLabel entry.2 job) else none).eraseDups

/-- `_NAME_RE.match`, whose end also stands before a last newline. -/
def matchesName (text : String) : Bool :=
  match text.toList.reverse with
  | '\n' :: rest => isSecretName rest.reverse
  | _ => isSecretName text.toList

/-- The name of an entry, when it is a text. -/
def secretEntryName (entry : Mapping) : Option String :=
  (entry.get? "name").bind Val.str?

/-- `_entry_problems`, the first of them about one entry: the ingester refuses the whole file over
it. -/
def entryProblem (index : Nat) (seen : List String) (raw : Val) : Option String :=
  let place := "secrets[" ++ toString index ++ "]"
  match raw.mapping? with
  | none => some (place ++ " must hold exactly a name and a value")
  | some entry =>
      if entry.length ≠ 2 || (entry.get? "name").isNone || (entry.get? "value").isNone then
        some (place ++ " must hold exactly a name and a value")
      else if !(secretEntryName entry).any matchesName then
        some (place ++ ": the name must look like QI_SECRET_<NAME>")
      else if (secretEntryName entry).any seen.contains then
        some ("duplicate secret name '" ++ (secretEntryName entry).getD "" ++ "'")
      else if !((entry.get? "value").bind Val.str?).any (startsWith · "enc:1:") then
        some (place ++ ": the value must be an enc:1: token")
      else none

def firstEntryProblem (index : Nat) (seen : List String) : List Val → Option String
  | [] => none
  | raw :: rest =>
      match entryProblem index seen raw with
      | some problem => some problem
      | none =>
          firstEntryProblem (index + 1) ((raw.mapping?.bind secretEntryName).toList ++ seen) rest

/-- The stored entries, or why the file cannot be changed. -/
def secretEntries (rt : Runtime) (yaml : Yaml) : FileRead → Except String (Mapping × List Val)
  | .missing => .ok (starterOf "secrets", [])
  | .unreadable reason => .error ("the file cannot be read: " ++ reason)
  | .content raw =>
      match parseDocument "secrets" rt yaml raw with
      | (_, some problem) => .error problem
      | (document, none) =>
          let entries := (document.getD "secrets").list?.getD []
          match firstEntryProblem 0 [] entries with
          | some problem => .error problem
          | none => .ok (document, entries)

/-- Whether a stored entry is the one of a credential. -/
def storesName (name : String) : Val → Bool
  | .map entry => (Mapping.getD entry "name").eqv (.str name)
  | _ => false

/-- One pass of `SecretsRepository.delete`: the document without the credential, or none when it
was not stored. -/
def deleteSecret (rt : Runtime) (yaml : Yaml) (read : FileRead) (name : String) :
    Except ServiceError (Option Mapping) :=
  match secretEntries rt yaml read with
  | .error problem => .error (.rejected ("secrets.yaml cannot be changed: " ++ problem))
  | .ok (document, entries) =>
      let kept := entries.filter fun entry => !storesName name entry
      if kept.length = entries.length then .ok none
      else .ok (some (document.put (.str "secrets") (.list kept)))

/-- `delete_credential`: the name and the document `secrets.yaml` is left with. -/
def deleteCredential (rt : Runtime) (yaml : Yaml) (upper : String → String)
    (environment : List String) (jobs secrets : FileRead) (name : String) :
    Except ServiceError (String × Mapping) :=
  match fullName upper name with
  | none =>
      .error (.invalidRequest ("Use capital letters, digits and '_' for the name (for example " ++
        "S3_KEY or NEXTCLOUD_PASSWORD)."))
  | some full =>
      if environment.contains full then
        .error (.conflict (full ++ " comes from ai/rag/.env and cannot be deleted here. Remove " ++
          "it from that file."))
      else
        let used := references (snapshotOf rt yaml jobs).document full
        if used.isEmpty then
          match deleteSecret rt yaml secrets full with
          | .error refusal => .error refusal
          | .ok none => .error (.notFound full)
          | .ok (some document) => .ok (full, document)
        else
          .error (.inUse (full ++ " is used by: " ++ joinWith ", " used ++
            ". Change those jobs first.") used)

end Papaia.Ingest
