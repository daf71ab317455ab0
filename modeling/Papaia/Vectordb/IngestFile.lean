/-
Module: Papaia.Vectordb.IngestFile
Purpose: `connections.yaml` as the manager reads, checks and changes it.  A change is a surgery on
  the document, and a write is refused only when the document has a problem it did not have before.
Trusted boundary: Runtime, Yaml
Main exports: readConnection, FileIssue, validateEntries, parseConnections, Surgery, freshIssues,
  updatePass
-/
import Papaia.Ingest.Catalog

namespace Papaia.Vectordb

open Text Ingest

/-! ### One entry -/

structure ConnectionEntry where
  name : String
  url : String
  apiKey : Option String
deriving DecidableEq, Repr

/-- `ENC_PREFIX`. -/
def encPrefix : String :=
  "enc:1:"

def httpScheme (url : String) : Bool :=
  startsWith url "http://" || startsWith url "https://"

/-- `_http_scheme`. -/
def readUrl (v : Val) : Checked String :=
  match readFilledStr v with
  | .ok url =>
      if httpScheme url then .ok url
      else Checked.fault "value_error" "Value error, url must start with http:// or https://"
  | read => read

/-- `_encrypted_only`. -/
def readApiKey (v : Val) : Checked (Option String) :=
  match readNullable readStr v with
  | .ok (some token) =>
      if token = "" then .ok none
      else if startsWith token encPrefix then .ok (some token)
      else Checked.fault "value_error"
        "Value error, api_key must be an enc:1: token; a literal value is not accepted"
  | read => read

/-- `ConnectionEntry.model_validate`. -/
def readConnection (rt : Runtime) (m : Mapping) : Checked ConnectionEntry :=
  (((Checked.of ConnectionEntry.mk).both
    (field m "name" missing (readPattern isSlug))).both
    (field m "url" missing readUrl)).both
    (field m "api_key" (.ok none) readApiKey)
    |>.also (noExtras rt ["name", "url", "api_key"] m)

/-! ### What is wrong with a document -/

/-- A problem with one entry. -/
structure FileIssue where
  name : Option String
  field : String
  message : String
deriving DecidableEq, Repr

def FileIssue.key (issue : FileIssue) : Option String × String :=
  (issue.name, issue.field)

/-- `connections[index]`. -/
def entryLabel (index : Nat) : String :=
  "connections[" ++ toString index ++ "]"

/-- `raw.get("name")` when it is a text that is not empty. -/
def statedName (m : Mapping) : Option String :=
  match m.get? "name" with
  | some (.str name) => if name = "" then none else some name
  | _ => none

/-- `".".join(loc) or "<root>"`. -/
def issueField (fault : Fault) : String :=
  if joinWith "." fault.loc = "" then "<root>" else joinWith "." fault.loc

/-- `_issues_from`, under the name of the entry or its place in the list. -/
def issuesFrom (index : Nat) (m : Mapping) (faults : Faults) : List FileIssue :=
  faults.toList.map fun fault =>
    ⟨some ((statedName m).getD (entryLabel index)), issueField fault, fault.msg⟩

/-- The loop of `validate_entries`, with the names seen so far. -/
def validateFrom (rt : Runtime) (index : Nat) (seen : List String) : List Val → List FileIssue
  | [] => []
  | raw :: rest =>
      match raw.mapping? with
      | none =>
          ⟨none, entryLabel index, "connection must be a mapping"⟩ ::
            validateFrom rt (index + 1) seen rest
      | some m =>
          match readConnection rt m with
          | .error faults => issuesFrom index m faults ++ validateFrom rt (index + 1) seen rest
          | .ok entry =>
              (if seen.contains entry.name then
                [⟨some entry.name, "name", "duplicate connection name"⟩] else []) ++
                validateFrom rt (index + 1) (entry.name :: seen) rest

/-- `validate_entries`. -/
def validateEntries (rt : Runtime) (entries : List Val) : List FileIssue :=
  validateFrom rt 0 [] entries

/-! ### The document -/

/-- `_starter` of `connections.yaml`. -/
def starter : Mapping :=
  starterOf "connections"

/-- `_parse` of `connections.yaml`. -/
def parseConnections (rt : Runtime) (yaml : Yaml) (raw : Bytes) : Mapping × Option String :=
  parseDocument "connections" rt yaml raw

/-- The document of `snapshot`, from what the read of the file gave. -/
def readConnections (rt : Runtime) (yaml : Yaml) : FileRead → Mapping × Option String
  | .missing => (starter, none)
  | .unreadable reason => (starter, some ("the file cannot be read: " ++ reason))
  | .content raw => parseConnections rt yaml raw

/-- `document["connections"]`. -/
def connectionsOf (document : Mapping) : List Val :=
  (document.getD "connections").list?.getD []

/-- Whether an entry is a mapping with this name. -/
def named (name : String) (raw : Val) : Bool :=
  match raw with
  | .map entries => (Mapping.getD entries "name").eqv (.str name)
  | _ => false

/-- `find_entry`: the place of the first entry with a name, and the entry. -/
def findEntry (document : Mapping) (name : String) : Option (Nat × Mapping) :=
  match (connectionsOf document).findIdx? (named name) with
  | some index => (((connectionsOf document).getD index .null).mapping?).map fun m => (index, m)
  | none => none

/-- What a change does to the list of entries. -/
inductive Surgery where
  /-- `remove_entry`: every entry of a name goes. -/
  | remove (name : String)
  /-- `entry.clear()` and `entry.update(new)` on the entry at a place. -/
  | overwrite (index : Nat) (entry : Mapping)
  | append (entry : Mapping)

/-- A surgery on elements that carry an entry. -/
def Surgery.on {α : Type} (look : α → Val) (put : Val → α) (elements : List α) :
    Surgery → List α
  | .remove name => elements.filter fun element => !named name (look element)
  | .overwrite index entry => elements.set index (put (.map entry))
  | .append entry => elements ++ [put (.map entry)]

def Surgery.apply (surgery : Surgery) (entries : List Val) : List Val :=
  surgery.on id id entries

/-! ### The write -/

/-- Why the store refuses. -/
inductive StoreError where
  | unknown (message : String)
  | alreadyExists (message : String)
  | stale (message : String)
  | inUse (message : String) (jobs : List String)
  | protectedDefault (message : String)
  | invalid (message : String)
  | file (message : String)
deriving DecidableEq, Repr

/-- The problems of the new entries under keys that none of the old problems has. -/
def freshIssues (rt : Runtime) (old new : List Val) : List FileIssue :=
  (validateEntries rt new).filter fun issue =>
    !((validateEntries rt old).map FileIssue.key).contains issue.key

/-- `str(issue)`. -/
def FileIssue.text (rt : Runtime) (issue : FileIssue) : String :=
  (match issue.name with
    | some name => if name = "" then "" else "connection " ++ rt.repr (.str name) ++ ": "
    | none => "") ++ issue.field ++ ": " ++ issue.message

/-- One pass of the loop in `update`, up to the write: the document as it was read, the change, and
the document to write when it has no fresh problem. -/
def updatePass (rt : Runtime) (yaml : Yaml) (change : Mapping → Except StoreError Surgery)
    (read : FileRead) : Except StoreError Mapping :=
  match readConnections rt yaml read with
  | (_, some problem) => .error (.file ("connections.yaml cannot be changed: " ++ problem))
  | (document, none) =>
      match change document with
      | .error refusal => .error refusal
      | .ok surgery =>
          let entries := surgery.apply (connectionsOf document)
          let fresh := freshIssues rt (connectionsOf document) entries
          if fresh.isEmpty then .ok (document.put (.str "connections") (.list entries))
          else .error (.invalid (joinWith "; " (fresh.map (FileIssue.text rt))))

end Papaia.Vectordb
