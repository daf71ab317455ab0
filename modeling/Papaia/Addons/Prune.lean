/-
Module: Papaia.Addons.Prune
Purpose: Which snapshots of an add-on are deleted, and what goes with them.
Trusted boundary: the Unicode table of decimal digits; nothing resists removal and no link stands
  among the snapshots
Main exports: isRevision, managedSnapshotPath, candidates, removeSnapshot, pruneSnapshots
-/
import Mathlib.Data.List.Sort
import Mathlib.Data.Rat.Defs
import Papaia.Lib.Disk

namespace Papaia.Addons

open FileTree Disk

/-! ### Where snapshots lie -/

section Revisions

variable (isDecimal : Char → Bool)

def isLowerHex (c : Char) : Bool :=
  ('0' ≤ c && c ≤ '9') || ('a' ≤ c && c ≤ 'f')

/-- `[0-9a-f]{12}|local-\d{14}`. -/
def revisionShape (chars : List Char) : Bool :=
  (chars.length = 12 && chars.all isLowerHex) ||
    (chars.take 6 = "local-".toList && chars.length = 20 && (chars.drop 6).all isDecimal)

/-- `_REVISION_RE.match`; its `$` stands before a line break at the end as well. -/
def isRevision (name : String) : Bool :=
  revisionShape isDecimal name.toList ||
    (name.toList.getLast? = some '\n' && revisionShape isDecimal name.toList.dropLast)

end Revisions

/-- `_managed/<catalog>` of a workspace. -/
def managedBase (workspace : Path) (catalogName : String) : Path :=
  workspace ++ ["addons", "_managed", catalogName]

/-- `managed_snapshot_path`. -/
def managedSnapshotPath (workspace : Path) (catalogName addonName : String)
    (revision : Option String) : Path :=
  match revision with
  | some revision =>
      if revision ≠ "" then managedBase workspace catalogName ++ [revision, addonName]
      else managedBase workspace catalogName ++ [addonName]
  | none => managedBase workspace catalogName ++ [addonName]

/-! ### Pruning -/

/-- Directories come with their time of modification. -/
abbrev Managed :=
  Volume Rat

/-- What a revision has of an add-on, with its time of modification. -/
abbrev Candidate :=
  Rat × String

section Prune

variable (isRevision : String → Bool)

/-- The snapshots of an add-on in the order the directory is read.  A directory with a manifest of its
own belongs to an add-on that is called like a revision. -/
def candidates (disk : Managed) (base : Path) (addonName : String) : List Candidate :=
  (iterdir disk base).filterMap fun revision =>
    if !isRevision revision || isThere disk (base ++ [revision, "papaia-app.yaml"]) then none
    else
      match disk.lookup (base ++ [revision, addonName]) with
      | some (.dir mtime) => some (mtime, revision)
      | _ => none

/-- What the swap of a directory may leave beside it. -/
def leftovers (parent : Path) (name : String) : List Path :=
  [parent ++ [s!"_{name}.prev"], parent ++ [s!"_{name}.staging"]]

/-- `_remove_snapshot` of a directory by its parent and its name. -/
def removeSnapshot (disk : Managed) (parent : Path) (name : String) : Managed :=
  let disk := (leftovers parent name).foldl rmtree (rmtree disk (parent ++ [name]))
  match parent.getLast? with
  | some parentName => if isRevision parentName then rmdir disk parent else disk
  | none => disk

/-- Whether a directory is the same as one of those that must stay. -/
def isProtected (keep : List Path) (path : Path) : Bool :=
  keep.any fun kept => kept = path

structure Pruning where
  disk : Managed
  room : Nat
  removed : List Path

def pruneCandidate (base : Path) (addonName : String) (keep : List Path) (s : Pruning)
    (candidate : Candidate) : Pruning :=
  let snapshot := base ++ [candidate.2, addonName]
  if isProtected keep snapshot then s
  else if 0 < s.room then { s with room := s.room - 1 }
  else
    { s with
      disk := removeSnapshot isRevision s.disk (base ++ [candidate.2]) addonName
      removed := s.removed ++ [snapshot] }

/-- `prune_snapshots`: what is on the disk after it, and what it returns.  `keep` holds the resolved
paths. -/
def pruneSnapshots (workspace : Path) (catalogName addonName : String) (keep : List Path)
    (limit : Int) (disk : Managed) : Managed × List Path :=
  let base := managedBase workspace catalogName
  if !isDir disk base then (disk, [])
  else
    let newestFirst := (candidates isRevision disk base addonName).insertionSort
      fun one other => other.1 ≤ one.1
    let s := newestFirst.foldl (pruneCandidate isRevision base addonName keep)
      ⟨disk, (max (limit - keep.length) 0).toNat, []⟩
    let legacy := base ++ [addonName]
    if isDir s.disk legacy && !isProtected keep legacy then
      (removeSnapshot isRevision s.disk base addonName, s.removed ++ [legacy])
    else (s.disk, s.removed)

/-- `prune_after`: what stays is the registered directory, the one a rollback goes back to, and a version
staged for a review. -/
def pruneAfter (workspace : Path) (catalogName addonName : String)
    (registered previous extra : Option Path) (disk : Managed) : Managed × List Path :=
  pruneSnapshots isRevision workspace catalogName addonName
    (registered.toList ++ previous.toList ++ extra.toList) 3 disk

end Prune

end Papaia.Addons
