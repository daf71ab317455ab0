/-
Module: Papaia.Config.Overlay
Purpose: The overlay files of the configuration and the versions kept of them: reading, replacing
  and removing a file by its revision, saving a version and dropping the oldest ones.
Trusted boundary: a read is one step, and so is a comparison with the rename or the removal it
  guards; the hash of the bytes is given
Main exports: Entry, OverlayError, Overlay.read, Overlay.write, Overlay.delete, Version,
  History.save, History.prune
-/
import Papaia.Lib.Swap
import Mathlib.Data.List.Sort
import Mathlib.Data.Prod.Lex

namespace Papaia.Config

/-! ### The files -/

/-- What is at the path of an overlay file. -/
inductive Entry where
  | absent
  | link
  | file (raw : List UInt8)
deriving DecidableEq, Repr

/-- The entry that has these bytes, or none. -/
def Entry.ofRaw : Option (List UInt8) → Entry
  | none => .absent
  | some raw => .file raw

/-- What the file system answers: nothing, or what an `OSError` says. -/
abbrev Io := Option String

/-- `OverlayError`, as this module raises it. -/
inductive OverlayError where
  | link
  | unreadable (value : String)
  | unwritable (value : String)
  | unremovable (value : String)
  | unsaved (value : String)
deriving DecidableEq, Repr

def OverlayError.message : OverlayError → String
  | link => "This overlay file is a symbolic link. Edit it on the host."
  | unreadable value => "The overlay file can't be read (" ++ value ++ ")."
  | unwritable value => "The overlay file can't be written (" ++ value ++ ")."
  | unremovable value => "The overlay file can't be removed (" ++ value ++ ")."
  | unsaved value => "The previous version can't be saved (" ++ value ++ "); nothing was changed."

/-- `OverlayFile`: what is on disk for one target. -/
structure OverlayFile where
  raw : Option (List UInt8)
  revision : String
deriving DecidableEq, Repr

namespace Overlay

variable (digest : List UInt8 → String)

/-- `revision_of`. -/
def revisionOf : Option (List UInt8) → String
  | none => ""
  | some raw => digest raw

/-- `read`. -/
def read (entry : Entry) (io : Io) : Except OverlayError OverlayFile :=
  match entry, io with
  | .link, _ => .error .link
  | _, some value => .error (.unreadable value)
  | .absent, none => .ok ⟨none, ""⟩
  | .file raw, none => .ok ⟨some raw, revisionOf digest (some raw)⟩

/-- The locked part of `write`: whether the file was replaced, and what is there now. -/
def write (entry : Entry) (data : List UInt8) (expectedRevision : String) (readIo writeIo : Io) :
    Except OverlayError Bool × Entry :=
  match read digest entry readIo with
  | .error e => (.error e, entry)
  | .ok current =>
      if current.revision ≠ expectedRevision then (.ok false, entry)
      else
        match writeIo with
        | some value => (.error (.unwritable value), entry)
        | none => (.ok true, .file data)

/-- `delete`. -/
def delete (entry : Entry) (expectedRevision : String) (readIo writeIo : Io) :
    Except OverlayError Bool × Entry :=
  match read digest entry readIo with
  | .error e => (.error e, entry)
  | .ok current =>
      if current.revision ≠ expectedRevision then (.ok false, entry)
      else
        match writeIo with
        | some value => (.error (.unremovable value), entry)
        | none => (.ok true, .absent)

/-- `write` or `delete`, by what is to be there. -/
def replace (entry : Entry) (content : Option (List UInt8)) (expectedRevision : String)
    (readIo writeIo : Io) : Except OverlayError Bool × Entry :=
  match content with
  | none => delete digest entry expectedRevision readIo writeIo
  | some data => write digest entry data expectedRevision readIo writeIo

end Overlay

/-! ### The versions -/

/-- What is about to happen to a file whose version is saved. -/
inductive HistoryEvent where
  | apply
  | discard
  | rollback
deriving DecidableEq, Repr

/-- A saved version: the second it was saved in, the event, the counter that tells it from the
others of that second and event, and the bytes. -/
structure Version where
  stamp : Nat
  event : HistoryEvent
  counter : Nat
  data : List UInt8
deriving DecidableEq, Repr

namespace Version

/-- `valid_id`: a counter has at most three digits. -/
def validId (version : Version) : Bool :=
  version.counter < 1000

/-- The stamp sorts as time; the counter breaks a tie within a second. -/
def order (version : Version) : ℕ ×ₗ ℕ :=
  toLex (version.stamp, version.counter)

end Version

namespace History

/-- `KEEP`. -/
def keep : Nat := 20

/-- Whether there is a version of this id. -/
def taken (versions : List Version) (stamp : Nat) (event : HistoryEvent) (counter : Nat) : Bool :=
  versions.any fun version =>
    version.stamp = stamp && version.event = event && version.counter = counter

/-- The first counter that is not taken; among one more than there are versions, one is not. -/
def freeCounter (versions : List Version) (stamp : Nat) (event : HistoryEvent) : Nat :=
  ((List.range (versions.length + 1)).find? fun counter =>
    !taken versions stamp event counter).getD 0

/-- The version that `save` writes. -/
def save (versions : List Version) (stamp : Nat) (event : HistoryEvent) (data : List UInt8) :
    Version where
  stamp := stamp
  event := event
  counter := freeCounter versions stamp event
  data := data

/-- `_ordered`, of the files as the directory lists them. -/
def ordered (listing : List Version) : List Version :=
  (listing.filter Version.validId).insertionSort fun one two => two.order ≤ one.order

/-- `prune`: the newest stay, what is no version stays, and so does what cannot be removed. -/
def prune (listing stuck : List Version) : List Version :=
  (ordered listing).take keep ++ ((ordered listing).drop keep).filter (stuck.contains ·) ++
    listing.filter fun version => !version.validId

end History

end Papaia.Config
