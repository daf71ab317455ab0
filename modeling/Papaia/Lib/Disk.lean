/-
Module: Papaia.Lib.Disk
Purpose: A disk as the files and directories at its paths, and what is left when directories are
  removed.
Trusted boundary: none
Main exports: Item, Volume, HasDir, rmtree, rmdir, Below, entries_rmtree, entries_foldl_rmtree,
  entries_rmdir
-/
import Papaia.Lib.FileTree

namespace Papaia.Disk

open FileTree

/-- What stands at a path; a directory comes with what `stat` says of it. -/
inductive Item (κ : Type) where
  | file
  | dir (info : κ)
deriving DecidableEq

abbrev Volume (κ : Type) :=
  List (Path × Item κ)

variable {κ : Type}

def Item.isDir : Item κ → Bool
  | .file => false
  | .dir _ => true

/-- `Path.is_dir`. -/
def isDir (disk : Volume κ) (path : Path) : Bool :=
  disk.any fun entry => entry.1 = path && entry.2.isDir

/-- `Path.exists`. -/
def isThere (disk : Volume κ) (path : Path) : Bool :=
  disk.any fun entry => entry.1 = path

/-- The names `Path.iterdir` gives. -/
def iterdir (disk : Volume κ) (path : Path) : List String :=
  disk.filterMap fun entry => if entry.1.dropLast = path then entry.1.getLast? else none

/-- `shutil.rmtree` with `ignore_errors`: nothing happens to what is no directory. -/
def rmtree (disk : Volume κ) (path : Path) : Volume κ :=
  if isDir disk path then disk.filter fun entry => ¬path <+: entry.1 else disk

/-- `Path.rmdir` where an error is suppressed: nothing happens to what is not empty. -/
def rmdir (disk : Volume κ) (path : Path) : Volume κ :=
  if isDir disk path && disk.all fun entry => path <+: entry.1 → entry.1 = path then
    disk.filter fun entry => entry.1 ≠ path
  else disk

/-! ### What is on a disk -/

/-- What stands on a disk. -/
def entries (disk : Volume κ) : Set (Path × Item κ) :=
  {entry | entry ∈ disk}

/-- There is a directory at a path. -/
def HasDir (held : Set (Path × Item κ)) (path : Path) : Prop :=
  ∃ info, (path, .dir info) ∈ held

/-- What is left when some paths are gone. -/
def without (held : Set (Path × Item κ)) (gone : Path → Prop) : Set (Path × Item κ) :=
  {entry | entry ∈ held ∧ ¬gone entry.1}

@[simp] theorem mem_entries {disk : Volume κ} {entry : Path × Item κ} :
    entry ∈ entries disk ↔ entry ∈ disk :=
  Iff.rfl

@[simp] theorem mem_without {held : Set (Path × Item κ)} {gone : Path → Prop}
    {entry : Path × Item κ} : entry ∈ without held gone ↔ entry ∈ held ∧ ¬gone entry.1 :=
  Iff.rfl

theorem without_without (held : Set (Path × Item κ)) (one other : Path → Prop) :
    without (without held one) other = without held fun path => one path ∨ other path := by
  ext entry
  simp [and_assoc]

theorem without_congr {held : Set (Path × Item κ)} {one other : Path → Prop}
    (h : ∀ entry ∈ held, one entry.1 ↔ other entry.1) : without held one = without held other := by
  ext entry
  simp only [mem_without]
  constructor
  · rintro ⟨hmem, hgone⟩
    exact ⟨hmem, fun hother => hgone ((h entry hmem).2 hother)⟩
  · rintro ⟨hmem, hgone⟩
    exact ⟨hmem, fun hone => hgone ((h entry hmem).1 hone)⟩

@[simp] theorem hasDir_without {held : Set (Path × Item κ)} {gone : Path → Prop} {path : Path} :
    HasDir (without held gone) path ↔ HasDir held path ∧ ¬gone path := by
  simp [HasDir]

theorem isDir_iff {disk : Volume κ} {path : Path} :
    isDir disk path = true ↔ HasDir (entries disk) path := by
  rw [isDir, List.any_eq_true]
  constructor
  · rintro ⟨⟨path', item⟩, hmem, h⟩
    cases item with
    | file => simp [Item.isDir] at h
    | dir info =>
        obtain rfl : path' = path := by simpa [Item.isDir] using h
        exact ⟨info, hmem⟩
  · rintro ⟨info, hmem⟩
    exact ⟨_, hmem, by simp [Item.isDir]⟩

theorem mem_iterdir_iff {disk : Volume κ} {path : Path} {name : String} :
    name ∈ iterdir disk path ↔ ∃ item, (path ++ [name], item) ∈ disk := by
  rw [iterdir, List.mem_filterMap]
  constructor
  · rintro ⟨⟨path', item⟩, hmem, h⟩
    split at h
    · next hpath =>
        obtain ⟨front, rfl⟩ := List.getLast?_eq_some_iff.1 h
        obtain rfl : front = path := by simpa using hpath
        exact ⟨item, hmem⟩
    · cases h
  · rintro ⟨item, hmem⟩
    exact ⟨_, hmem, by simp⟩

/-- The paths of a disk are different and stand in directories. -/
structure Sound (disk : Volume κ) : Prop where
  nodup : (disk.map Prod.fst).Nodup
  parents : ∀ entry ∈ disk, entry.1 ≠ [] → HasDir (entries disk) entry.1.dropLast

/-- A directory is read with different names. -/
theorem nodup_iterdir {disk : Volume κ} (h : (disk.map Prod.fst).Nodup) (path : Path) :
    (iterdir disk path).Nodup := by
  have hmap : iterdir disk path = (disk.map Prod.fst).filterMap fun other =>
      if other.dropLast = path then other.getLast? else none := by
    rw [List.filterMap_map]
    rfl
  rw [hmap]
  apply h.filterMap
  intro one other name hone hother
  have hpath : ∀ {here : Path}, name ∈ (if here.dropLast = path then here.getLast? else none) →
      here = path ++ [name] := by
    intro here hmem
    split at hmem
    · next hfront =>
        obtain ⟨front, rfl⟩ := List.getLast?_eq_some_iff.1 hmem
        obtain rfl : front = path := by simpa using hfront
        rfl
    · cases hmem
  exact (hpath hone).trans (hpath hother).symm

/-! ### Removing -/

/-- A path lies at another that is a directory, or below it. -/
def Below (held : Set (Path × Item κ)) (top path : Path) : Prop :=
  HasDir held top ∧ top <+: path

theorem entries_rmtree (disk : Volume κ) (path : Path) :
    entries (rmtree disk path) = without (entries disk) (Below (entries disk) path) := by
  ext entry
  rw [rmtree]
  split
  · next hdir => simp [Below, isDir_iff.1 hdir]
  · next hdir =>
      have hno : ¬HasDir (entries disk) path := fun h => hdir (isDir_iff.2 h)
      simp [Below, hno]

/-- Removing one directory after another takes what lies in any of them. -/
theorem entries_foldl_rmtree (disk : Volume κ) (paths : List Path) :
    entries (paths.foldl rmtree disk) =
      without (entries disk) fun path => ∃ top ∈ paths, Below (entries disk) top path := by
  induction paths generalizing disk with
  | nil =>
      ext entry
      simp
  | cons path rest ih =>
      rw [List.foldl_cons, ih, entries_rmtree, without_without]
      apply without_congr
      intro entry _
      constructor
      · rintro (h | ⟨top, htop, hdir, hbelow⟩)
        · exact ⟨path, List.mem_cons_self, h⟩
        · exact ⟨top, List.mem_cons_of_mem _ htop, (hasDir_without.1 hdir).1, hbelow⟩
      · rintro ⟨top, htop, hdir, hbelow⟩
        by_cases hgone : Below (entries disk) path top
        · exact .inl ⟨hgone.1, hgone.2.trans hbelow⟩
        · rcases List.mem_cons.1 htop with rfl | htop
          · exact .inl ⟨hdir, hbelow⟩
          · exact .inr ⟨top, htop, hasDir_without.2 ⟨hdir, hgone⟩, hbelow⟩

/-- A directory that holds nothing. -/
def Vacant (held : Set (Path × Item κ)) (path : Path) : Prop :=
  HasDir held path ∧ ∀ entry ∈ held, path <+: entry.1 → entry.1 = path

theorem entries_rmdir (disk : Volume κ) (path : Path) :
    entries (rmdir disk path) =
      without (entries disk) fun other => other = path ∧ Vacant (entries disk) path := by
  have hempty : (isDir disk path && disk.all fun entry => path <+: entry.1 → entry.1 = path) =
      true ↔ Vacant (entries disk) path := by
    rw [Bool.and_eq_true, isDir_iff, List.all_eq_true]
    apply and_congr_right
    intro _
    apply forall_congr'
    intro entry
    simp [imp_iff_not_or]
  ext entry
  rw [rmdir]
  split
  · next h => simp [hempty.1 h]
  · next h =>
      have hno : ¬Vacant (entries disk) path := fun hyes => h (hempty.2 hyes)
      simp [hno]

end Papaia.Disk
