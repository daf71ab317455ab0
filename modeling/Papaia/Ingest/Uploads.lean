/-
Module: Papaia.Ingest.Uploads
Purpose: One upload of the Embedding page: its manifest, its files, and what a stored file, a run and
  a removal do to them.
Trusted boundary: none (the names of files are checked before they come here)
Main exports: UploadState, Batch, Files, Upload, Save, beginSave, writeChunk, commitSave,
  markEmbedding, markKept, discard
-/
import Papaia.Ingest.Catalog
import Mathlib.Algebra.GroupWithZero.Nat

namespace Papaia.Ingest

/-! ### An upload -/

inductive UploadState where
  | staged
  | embedding
  | kept
deriving DecidableEq, Repr

/-- The run a manifest names: `run_id`, `job_id`, `collection`, `connection` and `mode`. -/
structure StartedAs where
  runId : String
  jobId : String
  collection : String
  connection : String
  mode : String
deriving DecidableEq, Repr

structure Batch where
  state : UploadState := .staged
  files : Nat := 0
  bytes : Nat := 0
  run : Option StartedAs := none
  note : Option String := none
deriving DecidableEq, Repr

/-- The files of a staging folder by their relative paths.  A file that is still being written has a
name of its own and is none of these. -/
abbrev Files := List (String × Bytes)

def fileAt (files : Files) (path : String) : Option Bytes :=
  (files.find? fun entry => entry.1 = path).map Prod.snd

/-- `os.replace`: one file of a path. -/
def putFile (files : Files) (path : String) (content : Bytes) : Files :=
  files.filter (fun entry => entry.1 ≠ path) ++ [(path, content)]

/-- A manifest and the staging folder.  They are made and removed together. -/
structure Upload where
  batch : Batch := {}
  files : Files := []
deriving DecidableEq, Repr

/-! ### `save_file` -/

/-- The size limits, in bytes. -/
structure Limits where
  maxFile : Nat
  maxBatch : Nat
deriving DecidableEq, Repr

inductive UploadError where
  /-- "This upload is being embedded; wait for the run to finish." -/
  | busySaving
  /-- "This upload is being embedded; abort the run first." -/
  | busyDiscarding
  /-- "… is larger than the limit of … MiB per file (INGEST_MAX_UPLOAD_MB)." -/
  | fileTooLarge (path : String) (mebibytes : Nat)
  /-- "This upload would be larger than the limit of … MiB (INGEST_MAX_BATCH_MB)." -/
  | batchTooLarge (mebibytes : Nat)
deriving DecidableEq, Repr

/-- A call of `save_file` between its first check and its rename. -/
structure Save where
  task : Nat
  path : String
  /-- The name of the file while it is written. -/
  tmp : String
  /-- The manifest as the call read it. -/
  batch : Batch
  /-- The size of the file that is replaced. -/
  previous : Option Nat
  written : Bytes := []
deriving DecidableEq, Repr

/-- `save_file` up to its first await. -/
def beginSave (upload : Upload) (task : Nat) (path tmp : String) : Except UploadError Save :=
  if upload.batch.state = .embedding then .error .busySaving
  else
    .ok
      { task := task
        path := path
        tmp := tmp
        batch := upload.batch
        previous := (fileAt upload.files path).map List.length }

/-- A chunk of the file arrives. -/
def writeChunk (limits : Limits) (save : Save) (chunk : Bytes) : Except UploadError Save :=
  let written := save.written ++ chunk
  if limits.maxFile < written.length then
    .error (.fileTooLarge save.path (limits.maxFile / 2 ^ 20))
  else if limits.maxBatch + save.previous.getD 0 < save.batch.bytes + written.length then
    .error (.batchTooLarge (limits.maxBatch / 2 ^ 20))
  else .ok { save with written := written }

/-- The end of `save_file`: the rename and the manifest as it is now. -/
def commitSave (save : Save) (upload : Upload) : Upload where
  files := putFile upload.files save.path save.written
  batch :=
    { upload.batch with
      files := upload.batch.files + (if save.previous.isSome then 0 else 1)
      bytes := upload.batch.bytes + save.written.length - save.previous.getD 0
      state := if upload.batch.state = .kept then .staged else upload.batch.state
      note := if upload.batch.state = .kept then none else upload.batch.note }

/-! ### The life of an upload -/

/-- `mark_embedding`. -/
def markEmbedding (run : StartedAs) (upload : Upload) : Upload :=
  { upload with batch := { upload.batch with state := .embedding, run := some run, note := none } }

/-- `mark_kept`. -/
def markKept (note : String) (upload : Upload) : Upload :=
  { upload with
    batch := { upload.batch with
      state := .kept, note := some (String.ofList (note.toList.take 300)) } }

/-- `discard`: nothing is left of the upload. -/
def discard (upload : Upload) : Except UploadError Unit :=
  if upload.batch.state = .embedding then .error .busyDiscarding else .ok ()

end Papaia.Ingest
