/-
Module: Papaia.Proofs.Transfers
Purpose: When the manifest of an upload counts what is in its folder.  A call of `save_file` measures
  the file it replaces and the room that is left before its awaits, and counts with both after them.
Trusted boundary: none
Main exports: Recorded, StillCurrent, recorded_commit, record_matches_folder
-/
import Papaia.Ingest.Transfers
import Papaia.Lib.Runs

namespace Papaia.Ingest

open Runs

/-! ### The promise and its condition -/

/-- The total size of the files of a folder. -/
def totalSize (files : Files) : Nat :=
  (files.map fun entry => entry.2.length).sum

/-- The manifest counts what is in the folder, and that is within the limit. -/
structure Recorded (limits : Limits) (upload : Upload) : Prop where
  distinct : (upload.files.map Prod.fst).Nodup
  files_eq : upload.batch.files = upload.files.length
  bytes_eq : upload.batch.bytes = totalSize upload.files
  within : upload.batch.bytes ≤ limits.maxBatch

/-- Where a call ends, the file it replaces has the size that was measured when it began, the file
fits into the room that is left now, and the manifest can be written. -/
def StillCurrent (limits : Limits) (s : Transfers) : TransferEvent → Prop
  | .ends task manifestFails =>
      ∀ save ∈ s.saves, save.task = task → s.folders.contains save.path = false →
        (fileAt s.upload.files save.path).map List.length = save.previous ∧
          s.upload.batch.bytes + save.written.length ≤
            limits.maxBatch + save.previous.getD 0 ∧
          manifestFails = false
  | _ => True

/-! ### A file is put in its place -/

theorem totalSize_append (files others : Files) :
    totalSize (files ++ others) = totalSize files + totalSize others := by
  simp [totalSize]

/-- What is left without a path, and the file that was under it. -/
theorem without_path (files : Files) (path : String) (h : (files.map Prod.fst).Nodup) :
    totalSize (files.filter fun entry => entry.1 ≠ path) +
        ((fileAt files path).map List.length).getD 0 = totalSize files ∧
      (files.filter fun entry => entry.1 ≠ path).length +
        (if (fileAt files path).isSome then 1 else 0) = files.length := by
  induction files with
  | nil => simp [totalSize, fileAt]
  | cons entry rest ih =>
      obtain ⟨hnot, hrest⟩ := List.nodup_cons.mp h
      obtain ⟨hsize, hlength⟩ := ih hrest
      by_cases hpath : entry.1 = path
      · have hkeep : rest.filter (fun entry => entry.1 ≠ path) = rest := by
          refine List.filter_eq_self.mpr ?_
          intro other hother
          have hne : other.1 ≠ path := by
            rintro rfl
            exact hnot (hpath ▸ List.mem_map_of_mem hother)
          simpa using hne
        have hdrop : (entry :: rest).filter (fun entry => entry.1 ≠ path) = rest := by
          rw [List.filter_cons_of_neg (by simpa using hpath), hkeep]
        have hfound : fileAt (entry :: rest) path = some entry.2 := by
          simp [fileAt, hpath]
        rw [hdrop, hfound]
        simp [totalSize, Nat.add_comm]
      · have hfound : fileAt (entry :: rest) path = fileAt rest path := by
          simp [fileAt, hpath]
        rw [hfound]
        simp only [totalSize] at hsize ⊢
        simp only [hpath, ne_eq, not_false_eq_true, decide_true, List.filter_cons_of_pos,
          List.map_cons, List.sum_cons, List.length_cons]
        constructor
        · simp only [ne_eq] at hsize
          omega
        · simp only [ne_eq] at hlength
          omega

theorem nodup_putFile {files : Files} (path : String) (content : Bytes)
    (h : (files.map Prod.fst).Nodup) : ((putFile files path content).map Prod.fst).Nodup := by
  have hfilter : ((files.filter fun entry => entry.1 ≠ path).map Prod.fst).Nodup :=
    h.sublist (List.filter_sublist.map Prod.fst)
  rw [putFile, List.map_append, List.nodup_append]
  refine ⟨hfilter, by simp, ?_⟩
  intro a ha b hb
  obtain ⟨entry, hentry, rfl⟩ := List.mem_map.mp ha
  obtain rfl : b = path := by simpa using hb
  simpa using (List.mem_filter.mp hentry).2

/-- A call that counts with what is still so keeps the manifest right. -/
theorem recorded_commit {limits : Limits} {upload : Upload} {save : Save}
    (h : Recorded limits upload)
    (hprevious : (fileAt upload.files save.path).map List.length = save.previous)
    (hroom : upload.batch.bytes + save.written.length ≤ limits.maxBatch + save.previous.getD 0) :
    Recorded limits (commitSave save upload) := by
  obtain ⟨hsize, hlength⟩ := without_path upload.files save.path h.distinct
  have hfiles := h.files_eq
  have hbytes := h.bytes_eq
  rw [hprevious] at hsize
  refine ⟨nodup_putFile _ _ h.distinct, ?_, ?_, ?_⟩
  · have hsome : save.previous.isSome = (fileAt upload.files save.path).isSome := by
      rw [← hprevious, Option.isSome_map]
    simp only [commitSave, putFile, List.length_append, List.length_singleton, hsome]
    cases hthere : (fileAt upload.files save.path).isSome with
    | true =>
        simp only [hthere, if_true] at hlength ⊢
        omega
    | false =>
        simp only [hthere, Bool.false_eq_true, if_false] at hlength ⊢
        omega
  · simp only [commitSave, putFile, totalSize_append]
    have hone : totalSize [(save.path, save.written)] = save.written.length := by
      simp [totalSize]
    omega
  · simp only [commitSave]
    omega

/-! ### Steps and runs -/

variable {rt : Runtime} {table : UnicodeTable} {limits : Limits}

@[simp] theorem upload_finish (s : Transfers) (task : Nat)
    (result : Except TransferError SavedFile) : (s.finish task result).upload = s.upload :=
  rfl

theorem upload_begin (s : Transfers) (task : Nat) (rawPath tmp : String) :
    (s.begin rt table task rawPath tmp).upload = s.upload := by
  unfold Transfers.begin
  repeat' split
  all_goals rfl

/-- A step leaves the upload as it is, unless it is the end of a call that has stored its file. -/
theorem upload_step {s s' : Transfers} {e : TransferEvent} (ok : StillCurrent limits s e)
    (taken : transferStep rt table limits s e = some s') :
    s'.upload = s.upload ∨
      ∃ task save saved, e = .ends task false ∧ save ∈ s.saves ∧ save.task = task ∧
        s.folders.contains save.path = false ∧ s'.upload = commitSave save s.upload ∧
          s'.results = s.results ++ [(task, .ok saved)] := by
  cases e with
  | begins task rawPath tmp =>
      simp only [transferStep] at taken
      split at taken
      next => cases taken
      next =>
        obtain rfl := Option.some.inj taken
        exact .inl (upload_begin s task rawPath tmp)
  | reads task chunk =>
      simp only [transferStep] at taken
      split at taken
      next => cases taken
      next =>
        split at taken <;> obtain rfl := Option.some.inj taken <;> exact .inl rfl
  | fails task =>
      simp only [transferStep] at taken
      split at taken
      next => cases taken
      next =>
        obtain rfl := Option.some.inj taken
        exact .inl rfl
  | ends task manifestFails =>
      simp only [transferStep] at taken
      split at taken
      next => cases taken
      next save hsave =>
        obtain rfl := Option.some.inj taken
        have hmem := List.mem_of_find?_eq_some hsave
        have htask : save.task = task := by simpa using List.find?_some hsave
        cases hfolder : s.folders.contains save.path with
        | true =>
            left
            rw [Transfers.commit, if_pos hfolder]
            rfl
        | false =>
            obtain ⟨-, -, rfl⟩ := ok save hmem htask hfolder
            have hcommit : s.commit save false =
                { s with upload := commitSave save s.upload }.finish save.task
                  (.ok ⟨save.path, save.written.length, save.previous.isSome⟩) := by
              rw [Transfers.commit, hfolder]
              rfl
            rw [hcommit, htask]
            exact .inr ⟨task, save, _, rfl, hmem, htask, hfolder, rfl, rfl⟩

/-- What the runs keep. -/
def AllRecorded (limits : Limits) (s : Transfers) : Prop :=
  Recorded limits s.upload

/-- A step keeps the manifest right. -/
theorem allRecorded_step (s : Transfers) (e : TransferEvent) (s' : Transfers)
    (h : AllRecorded limits s) (ok : StillCurrent limits s e)
    (taken : transferStep rt table limits s e = some s') : AllRecorded limits s' := by
  unfold AllRecorded at h ⊢
  rcases upload_step ok taken with hsame | ⟨task, save, saved, rfl, hmem, htask, hfolder,
    hcommit, -⟩
  · rwa [hsame]
  · obtain ⟨hprevious, hroom, -⟩ := ok save hmem htask hfolder
    rw [hcommit]
    exact recorded_commit h hprevious hroom

/-- In every run of calls in which each call that ends still finds what it measured, the manifest
counts what is in the folder and stays within the limit, and only a call that returns has changed
a file. -/
theorem record_matches_folder (rt : Runtime) (table : UnicodeTable) (limits : Limits)
    (s : Transfers) (reached : Reaches (transferStep rt table limits) (StillCurrent limits)
      freshTransfers s) :
    Recorded limits s.upload ∧
      ∀ e s', StillCurrent limits s e → transferStep rt table limits s e = some s' →
        s'.upload = s.upload ∨
          ∃ task saved, e = .ends task false ∧ s'.results = s.results ++ [(task, .ok saved)] := by
  have hfresh : AllRecorded limits freshTransfers := ⟨List.nodup_nil, rfl, rfl, Nat.zero_le _⟩
  have hrecorded : AllRecorded limits s := reached.invariant hfresh allRecorded_step
  refine ⟨hrecorded, ?_⟩
  · intro e s' ok taken
    rcases upload_step ok taken with hsame | ⟨task, save, saved, hend, -, -, -, -, hresults⟩
    · exact .inl hsame
    · exact .inr ⟨task, saved, hend, hresults⟩

/-! ### One file twice at a time -/

/-- The categories of ASCII. -/
def asciiTable : UnicodeTable where
  isControl c := c.toNat < 0x20 || c.toNat = 0x7f
  isSeparator c := c = ' '

/-- Limits of ten bytes. -/
def tightLimits : Limits :=
  ⟨10, 10⟩

/-- Two calls store the same new file, and each takes itself for the first. -/
theorem file_counted_twice :
    ¬∀ (rt : Runtime) (table : UnicodeTable) (limits : Limits) (s : Transfers),
      Reaches (transferStep rt table limits) (fun _ _ => True) freshTransfers s →
      s.saves = [] → Recorded limits s.upload := by
  intro h
  have hrun : (replay (transferStep plainRuntime asciiTable tightLimits) freshTransfers
      [.begins 1 "a" ".1.part", .begins 2 "a" ".2.part", .reads 1 [0], .reads 2 [0],
        .ends 1 false, .ends 2 false]).map
      (fun s => (s.saves.isEmpty, s.upload.batch.files, s.upload.files.length)) =
        some (true, 2, 1) := by decide
  obtain ⟨s, hs, hfacts⟩ := Option.map_eq_some_iff.mp hrun
  obtain ⟨hsaves, hcounts⟩ := Prod.mk.inj hfacts
  obtain ⟨hfiles, hlength⟩ := Prod.mk.inj hcounts
  have hrecorded := h plainRuntime asciiTable tightLimits s
    (reaches_of_replay (permits_all _ _) hs) (List.isEmpty_iff.mp hsaves)
  have hequal := hrecorded.files_eq
  omega

/-- The upload while its first file is on the way. -/
def oneUnderway : Transfers where
  upload := {}
  saves := [⟨1, "a", ".1.part", {}, none, [7, 7]⟩]

/-- The upload with its first file. -/
def oneStored : Transfers where
  upload := ⟨{ files := 1, bytes := 2 }, [("a", [7, 7])]⟩
  results := [(1, .ok ⟨"a", 2, false⟩)]

theorem one_stored_reached :
    Reaches (transferStep plainRuntime asciiTable tightLimits) (StillCurrent tightLimits)
      freshTransfers oneStored := by
  have hunderway : Reaches (transferStep plainRuntime asciiTable tightLimits)
      (StillCurrent tightLimits) freshTransfers oneUnderway := by
    have hpermits : Permits (transferStep plainRuntime asciiTable tightLimits)
        (StillCurrent tightLimits) freshTransfers
        [.begins 1 "a" ".1.part", .reads 1 [7, 7]] :=
      ⟨trivial, fun _ _ => ⟨trivial, fun _ _ => trivial⟩⟩
    exact reaches_of_replay hpermits (by decide)
  refine hunderway.next (e := .ends 1 false) ?_ (by decide)
  intro save hmem _ _
  obtain rfl := List.mem_singleton.mp hmem
  decide

/-- One file after the other is counted as it is. -/
theorem one_file_recorded :
    Recorded tightLimits oneStored.upload ∧
      ∀ e s', StillCurrent tightLimits oneStored e →
        transferStep plainRuntime asciiTable tightLimits oneStored e = some s' →
          s'.upload = oneStored.upload ∨
            ∃ task saved, e = .ends task false ∧
              s'.results = oneStored.results ++ [(task, .ok saved)] :=
  record_matches_folder plainRuntime asciiTable tightLimits oneStored one_stored_reached

end Papaia.Ingest
