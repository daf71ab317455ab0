/-
Module: Papaia.Ingest.Transfers
Purpose: Calls of `save_file` on one upload, with the awaits of each between its steps: the path a
  file is stored under, the folders on the way, and what every call returns.
Trusted boundary: the Unicode categories, the file system (a write can fail); the folder has no links
  and its temporary names are not used for files
Main exports: cleanRel, cleanUploadPath, Transfers, TransferEvent, transferStep, freshTransfers
-/
import Papaia.Ingest.Uploads

namespace Papaia.Ingest

open Text

/-! ### The path of a file -/

/-- `unicodedata.category`, as far as it is asked for. -/
structure UnicodeTable where
  /-- A category that starts with `C`. -/
  isControl : Char → Bool
  /-- The category `Zs`. -/
  isSeparator : Char → Bool

/-- The parts of a path between its slashes. -/
def pathParts (path : String) : List String :=
  (path.toList.splitOn '/').map String.ofList

/-- `MAX_PATH_BYTES`. -/
def maxPathBytes : Nat :=
  1024

/-- `MAX_NAME_BYTES`. -/
def maxNameBytes : Nat :=
  255

/-- The problem `clean_rel` has with one part of a path. -/
def partProblem (table : UnicodeTable) (part : String) : Option String :=
  if part = "." || part = ".." then some "A path must not contain '.' or '..'."
  else if part.toList.any table.isControl then
    some "A path must not contain control characters."
  else if maxNameBytes < part.utf8ByteSize then some "A name in that path is too long."
  else none

/-- `clean_rel`. -/
def cleanRel (table : UnicodeTable) (rel : String) : Except String String :=
  if rel = "" then .ok ""
  else if startsWith rel "/" || rel.toList.contains '\\' then
    .error "A path is relative to the folder and uses '/'."
  else if maxPathBytes < rel.utf8ByteSize then .error "That path is too long."
  else
    let parts := (pathParts rel).filter fun part => part ≠ ""
    match parts.findSome? (partProblem table) with
    | some problem => .error problem
    | none => .ok (joinWith "/" parts)

/-- `clean_upload_path`. -/
def cleanUploadPath (rt : Runtime) (table : UnicodeTable) (raw : String) : Except String String :=
  if isBlank raw then .error "A file needs a name."
  else if endsWith raw "/" then .error "A file name does not end with '/'."
  else
    match cleanRel table raw with
    | .error problem => .error problem
    | .ok cleaned =>
        let unusable := fun part : String =>
          part ≠ strip part || endsWith part "." ||
            part.toList.any fun c => table.isSeparator c && c ≠ ' '
        if cleaned = "" then .error "A file needs a name."
        else
          match (pathParts cleaned).find? unusable with
          | some part => .error (rt.repr (.str part) ++ " is not a usable file name.")
          | none =>
              if cleaned.toList.any fun c => c == '*' || c == '?' then
                .error (rt.repr (.str cleaned) ++ " contains '*' or '?', which the ingester would " ++
                  "read as a wildcard. Rename the file or select its folder.")
              else if maxPathBytes < cleaned.utf8ByteSize ||
                  (pathParts cleaned).any fun part => maxNameBytes < part.utf8ByteSize then
                .error "That path is too long."
              else .ok cleaned

/-! ### The folder -/

/-- The folders above a path, from the outermost one. -/
def parentsOf (path : String) : List String :=
  let parts := pathParts path
  (List.range (parts.length - 1)).map fun depth => joinWith "/" (parts.take (depth + 1))

/-- The folders on the way are made one after the other, up to a file in the place of one. -/
def makeFolders (files : Files) (folders : List String) : List String → List String × Option String
  | [] => (folders, none)
  | parent :: rest =>
      if (fileAt files parent).isSome then (folders, some parent)
      else makeFolders files (if folders.contains parent then folders else folders ++ [parent]) rest

/-- Why a call raises. -/
inductive TransferError where
  | upload (error : UploadError)
  | invalid (message : String)
  /-- An `OSError`, or the client is gone. -/
  | unavailable
deriving DecidableEq, Repr

structure SavedFile where
  path : String
  bytes : Nat
  replaced : Bool
deriving DecidableEq, Repr

/-- The upload with its folders, the calls that are in progress, and what each finished call has
returned. -/
structure Transfers where
  upload : Upload
  folders : List String := []
  saves : List Save := []
  results : List (Nat × Except TransferError SavedFile) := []
deriving DecidableEq

/-- A call ends. -/
def Transfers.finish (s : Transfers) (task : Nat) (result : Except TransferError SavedFile) :
    Transfers :=
  { s with
    saves := s.saves.filter fun save => save.task ≠ task
    results := s.results ++ [(task, result)] }

/-! ### Steps -/

inductive TransferEvent where
  /-- A call comes to its first await. -/
  | begins (task : Nat) (rawPath tmp : String)
  /-- A chunk arrives and is checked. -/
  | reads (task : Nat) (chunk : Bytes)
  /-- Everything is written: the rename and the manifest, whose write may fail. -/
  | ends (task : Nat) (manifestFails : Bool)
  /-- The client goes away, or a write fails. -/
  | fails (task : Nat)
deriving Repr

/-- `save_file` up to its first await. -/
def Transfers.begin (rt : Runtime) (table : UnicodeTable) (s : Transfers) (task : Nat)
    (rawPath tmp : String) : Transfers :=
  if s.upload.batch.state = .embedding then s.finish task (.error (.upload .busySaving))
  else
    match cleanUploadPath rt table rawPath with
    | .error problem => s.finish task (.error (.invalid problem))
    | .ok path =>
        let (folders, blocked) := makeFolders s.upload.files s.folders (parentsOf path)
        let entered := { s with folders := folders }
        match blocked with
        | some parent =>
            entered.finish task (.error (.invalid
              (rt.repr (.str ((pathParts parent).getLastD "")) ++
                " is a file, so it cannot hold other files.")))
        | none =>
            if folders.contains path then
              entered.finish task (.error (.invalid
                (rt.repr (.str path) ++ " is a folder or a link, not a file.")))
            else
              match beginSave s.upload task path tmp with
              | .error error => entered.finish task (.error (.upload error))
              | .ok save => { entered with saves := s.saves ++ [save] }

/-- The end of `save_file`.  A folder that has come to stand under the name refuses the rename. -/
def Transfers.commit (s : Transfers) (save : Save) (manifestFails : Bool) : Transfers :=
  if s.folders.contains save.path then s.finish save.task (.error .unavailable)
  else if manifestFails then
    { s with upload := { s.upload with files := (commitSave save s.upload).files } }.finish save.task
      (.error .unavailable)
  else
    { s with upload := commitSave save s.upload }.finish save.task
      (.ok ⟨save.path, save.written.length, save.previous.isSome⟩)

/-- One step of one call. -/
def transferStep (rt : Runtime) (table : UnicodeTable) (limits : Limits) (s : Transfers) :
    TransferEvent → Option Transfers
  | .begins task rawPath tmp =>
      if s.saves.any (fun save => save.task = task || save.tmp = tmp) ||
          s.results.any (fun result => result.1 = task) then none
      else some (s.begin rt table task rawPath tmp)
  | .reads task chunk =>
      match s.saves.find? fun save => save.task = task with
      | none => none
      | some save =>
          match writeChunk limits save chunk with
          | .error error => some (s.finish task (.error (.upload error)))
          | .ok written =>
              some { s with
                saves := s.saves.map fun other => if other.task = task then written else other }
  | .ends task manifestFails =>
      match s.saves.find? fun save => save.task = task with
      | none => none
      | some save => some (s.commit save manifestFails)
  | .fails task =>
      match s.saves.find? fun save => save.task = task with
      | none => none
      | some save => some (s.finish save.task (.error .unavailable))

/-- An upload right after `create`. -/
def freshTransfers : Transfers where
  upload := {}

end Papaia.Ingest
