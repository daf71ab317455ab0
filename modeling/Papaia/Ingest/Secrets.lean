/-
Module: Papaia.Ingest.Secrets
Purpose: The writes of `secrets.yaml` by the manager, step by step, with other writers of the file in
  between.  The comparison and the rename of a swap are two steps.
Trusted boundary: Runtime, Yaml, the token of an encryption, the file system (a system call can fail)
Main exports: CredentialCall, CredentialCall.mutate, CredentialPhase, CredentialState, credentialStep
-/
import Papaia.Ingest.JobsFile
import Papaia.Ingest.Leftovers

namespace Papaia.Ingest

open Text

/-! ### What a call changes -/

/-- A call of the repository; `body` is the token `encrypt` gives for the value. -/
inductive CredentialCall where
  | set (name value body : String)
  | delete (name : String)
deriving DecidableEq, Repr

def CredentialCall.name : CredentialCall → String
  | .set name _ _ => name
  | .delete name => name

def encPrefix : String :=
  "enc:1:"

def maxValueBytes : Nat :=
  64 * 1024

/-- What `set` refuses before it reads the file. -/
def CredentialCall.refusal (hasKey : Bool) : CredentialCall → Option ServiceError
  | .set _ value _ =>
      if !hasKey then
        some (.rejected ("QI_CONNECTIONS_SECRET is not set in ai/rag/.env, so credentials cannot be " ++
          "stored encrypted."))
      else if strip value = "" then some (.invalidRequest "The value is empty.")
      else if maxValueBytes < value.utf8ByteSize then
        some (.invalidRequest "The value is larger than 64 KB.")
      else none
  | .delete _ => none

/-- The mutation of `set`: the entries with the token stored, and whether the name is new. -/
def setEntry (name token : String) : List Val → List Val × Bool
  | [] => ([.map [(.str "name", .str name), (.str "value", .str token)]], true)
  | .map entry :: rest =>
      if storesName name (.map entry) then (.map (Mapping.put entry (.str "value") (.str token)) :: rest, false)
      else (.map entry :: (setEntry name token rest).1, (setEntry name token rest).2)
  | other :: rest => (other :: (setEntry name token rest).1, (setEntry name token rest).2)

/-- The mutation of `delete`: the entries without the credential, and whether it was there. -/
def dropEntry (name : String) (entries : List Val) : List Val × Bool :=
  let kept := entries.filter fun entry => !storesName name entry
  (kept, kept.length != entries.length)

def CredentialCall.mutate : CredentialCall → List Val → List Val × Bool
  | .set name _ body, entries => setEntry name (encPrefix ++ body) entries
  | .delete name, entries => dropEntry name entries

/-! ### The steps of `_update` -/

/-- `_MAX_ATTEMPTS`. -/
def maxAttempts : Nat := 3

/-- What an attempt is about to put into the file, and what it has read. -/
structure Attempt where
  call : CredentialCall
  /-- The attempts left, this one included. -/
  left : Nat
  present : Bool
  revision : String
  data : Bytes
  flag : Bool
deriving DecidableEq, Repr

inductive CredentialPhase where
  | idle
  /-- About to read the file. -/
  | reading (call : CredentialCall) (left : Nat)
  /-- About to stage the new content. -/
  | staging (attempt : Attempt)
  /-- About to compare the revision. -/
  | comparing (attempt : Attempt)
  /-- The comparison held, about to rename. -/
  | replacing (attempt : Attempt)
  | returned (call : CredentialCall) (flag : Bool)
  | raised (call : CredentialCall) (error : ServiceError)
deriving Repr

/-- The file (none: there is none) and the manager. -/
structure CredentialState where
  file : Option Bytes
  phase : CredentialPhase
deriving Repr

/-- The next step belongs to somebody else, who puts any content there or removes the file; or it is a
call of the manager, when none is under way; or it is a step of the call, whose system call may
fail. -/
inductive CredentialEvent where
  | foreign (content : Option Bytes)
  | call (call : CredentialCall)
  | manager (fails : Bool)
deriving DecidableEq, Repr

/-- An `OSError` of the write. -/
def foldersReadOnly : ServiceError :=
  .rejected "ai/rag/catalog does not accept the change; the catalog folder is read-only here"

/-- What an attempt makes of the file as it reads it. -/
def readAttempt (rt : Runtime) (yaml : Yaml) (call : CredentialCall) (left : Nat)
    (file : Option Bytes) (fails : Bool) : CredentialPhase :=
  match secretEntries rt yaml (readFile file fails) with
  | .error problem => .raised call (.rejected ("secrets.yaml cannot be changed: " ++ problem))
  | .ok (document, entries) =>
      let change := call.mutate entries
      let data := yaml.dump (document.put (.str "secrets") (.list change.1))
      if file = some data then .returned call change.2
      else
        .staging
          { call, left, data
            present := file.isSome
            revision := currentRevision yaml file
            flag := change.2 }

/-- One step of the manager: the file and the phase after it. -/
def credentialManagerStep (rt : Runtime) (yaml : Yaml) (file : Option Bytes) (fails : Bool) :
    CredentialPhase → Option (Option Bytes × CredentialPhase)
  | .reading call left => some (file, readAttempt rt yaml call left file fails)
  | .staging attempt =>
      -- the mode of a file that existed is read from it
      if fails || (attempt.present && file.isNone) then
        some (file, .raised attempt.call foldersReadOnly)
      else some (file, .comparing attempt)
  | .comparing attempt =>
      if fails then some (file, .raised attempt.call foldersReadOnly)
      else if currentRevision yaml file = attempt.revision then some (file, .replacing attempt)
      else
        match attempt.left with
        | 0 | 1 =>
            some (file, .raised attempt.call
              (.rejected "secrets.yaml keeps changing while the manager writes it; try again"))
        | left + 1 => some (file, .reading attempt.call left)
  | .replacing attempt =>
      if fails then some (file, .raised attempt.call foldersReadOnly)
      else some (some attempt.data, .returned attempt.call attempt.flag)
  | .idle | .returned _ _ | .raised _ _ => none

/-- The phase a call begins with. -/
def CredentialCall.firstPhase (hasKey : Bool) (call : CredentialCall) : CredentialPhase :=
  match call.refusal hasKey with
  | some error => .raised call error
  | none => .reading call maxAttempts

/-- A call begins when none is under way. -/
def CredentialPhase.begin (hasKey : Bool) (call : CredentialCall) :
    CredentialPhase → Option CredentialPhase
  | .idle | .returned _ _ | .raised _ _ => some (call.firstPhase hasKey)
  | _ => none

def credentialStep (rt : Runtime) (yaml : Yaml) (hasKey : Bool) (s : CredentialState) :
    CredentialEvent → Option CredentialState
  | .foreign content => some { s with file := content }
  | .call call => (s.phase.begin hasKey call).map fun phase => { s with phase }
  | .manager fails =>
      (credentialManagerStep rt yaml s.file fails s.phase).map fun result => ⟨result.1, result.2⟩

end Papaia.Ingest
