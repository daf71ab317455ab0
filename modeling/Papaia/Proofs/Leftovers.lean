/-
Module: Papaia.Proofs.Leftovers
Purpose: When the two deletions that cannot be undone rest on a catalog that was read.  A file that
  cannot be used leaves an empty document in the snapshot, and both deletions look at the document
  alone.
Trusted boundary: none
Main exports: ReadAsCatalog, snapshotOf_cases, references_eq_nil_iff, purge_rests_on_catalog_iff
-/
import Papaia.Ingest.Leftovers

namespace Papaia.Ingest

open Text

/-- The file was read, and it is a catalog. -/
def ReadAsCatalog (rt : Runtime) (yaml : Yaml) (read : FileRead) (document : Mapping) : Prop :=
  ∃ raw, read = .content raw ∧ parseJobs rt yaml raw = (document, none)

/-- A job of the document refers to a credential in its source. -/
def Refers (document : Mapping) (name : String) : Prop :=
  ∃ (job source : Mapping) (key : Scalar) (text : String), .map job ∈ jobEntries document ∧
    job.get? "source" = some (.map source) ∧ (key, .str text) ∈ source ∧
      referenceIn (strip text) = some name

theorem parseDocument_refused {key : String} {rt : Runtime} {yaml : Yaml} {raw : Bytes}
    {document : Mapping} {problem : String}
    (h : parseDocument key rt yaml raw = (document, some problem)) : document = starterOf key := by
  unfold parseDocument at h
  split at h
  · exact (Prod.mk.inj h).1.symm
  · split at h
    · exact (Prod.mk.inj h).1.symm
    · dsimp only at h
      split at h
      · exact (Prod.mk.inj h).1.symm
      · split at h
        · cases (Prod.mk.inj h).2
        · cases (Prod.mk.inj h).2
        · exact (Prod.mk.inj h).1.symm

/-- A snapshot holds the catalog that was read, or a document without jobs. -/
theorem snapshotOf_cases (rt : Runtime) (yaml : Yaml) (read : FileRead) :
    ReadAsCatalog rt yaml read (snapshotOf rt yaml read).document ∨
      ((¬ ∃ document, ReadAsCatalog rt yaml read document) ∧
        (snapshotOf rt yaml read).document = starter) := by
  cases read with
  | missing | unreadable =>
      refine .inr ⟨?_, rfl⟩
      rintro ⟨_, _, hread, _⟩
      cases hread
  | content raw =>
      cases hparse : parseJobs rt yaml raw with
      | mk document problem =>
          cases problem with
          | none => exact .inl ⟨raw, rfl, by simp [snapshotOf, hparse]⟩
          | some problem =>
              refine .inr ⟨?_, by simp [snapshotOf, hparse, starter, parseDocument_refused hparse]⟩
              rintro ⟨other, _, hread, hother⟩
              cases hread
              rw [hparse] at hother
              cases (Prod.mk.inj hother).2

theorem jobEntries_starter : jobEntries starter = [] := rfl

theorem mem_sourceReferences {job : Mapping} {name : String} :
    name ∈ sourceReferences job ↔
      ∃ source key text, job.get? "source" = some (.map source) ∧ (key, .str text) ∈ source ∧
        referenceIn (strip text) = some name := by
  unfold sourceReferences
  split
  · rename_i source hsource
    simp only [List.mem_filterMap, Option.bind_eq_some_iff, Val.str?_eq_some]
    constructor
    · rintro ⟨⟨key, value⟩, hentry, text, rfl, hreference⟩
      exact ⟨source, key, text, hsource, hentry, hreference⟩
    · rintro ⟨other, key, text, hother, hentry, hreference⟩
      rw [hsource] at hother
      obtain rfl := Val.map.inj (Option.some.inj hother)
      exact ⟨(key, .str text), hentry, text, rfl, hreference⟩
  · rename_i hnone
    refine iff_of_false List.not_mem_nil ?_
    rintro ⟨source, _, _, hsource, _⟩
    exact hnone source hsource

theorem eraseDups_eq_nil_iff {labels : List String} : labels.eraseDups = [] ↔ labels = [] := by
  cases labels with
  | nil => simp
  | cons label rest => simp [List.eraseDups_cons]

/-- A credential is unused exactly when no job refers to it. -/
theorem references_eq_nil_iff {document : Mapping} {name : String} :
    references document name = [] ↔ ¬ Refers document name := by
  rw [references, eraseDups_eq_nil_iff, List.filterMap_eq_nil_iff]
  constructor
  · rintro h ⟨job, source, key, text, hjob, hsource, hentry, hreference⟩
    rw [← List.zipIdx_map_fst 0 (jobEntries document)] at hjob
    obtain ⟨entry, hmem, hentryEq⟩ := List.mem_map.1 hjob
    have hnone := h entry hmem
    have hcontains : (sourceReferences job).contains name = true := by
      rw [List.contains_iff_mem]
      exact mem_sourceReferences.2 ⟨source, key, text, hsource, hentry, hreference⟩
    rw [hentryEq, Val.mapping?_map, Option.bind_some, if_pos hcontains] at hnone
    cases hnone
  · intro h entry hmem
    cases hmap : entry.1.mapping? with
    | none => rfl
    | some job =>
        rw [Option.bind_some, if_neg]
        intro hcontains
        rw [List.contains_iff_mem, mem_sourceReferences] at hcontains
        obtain ⟨source, key, text, hrest⟩ := hcontains
        exact h ⟨job, source, key, text,
          Val.mapping?_eq_some.1 hmap ▸ List.fst_mem_of_mem_zipIdx hmem, hrest⟩

/-- The credential is one the manager stores and can delete. -/
def Deletable (rt : Runtime) (yaml : Yaml) (upper : String → String) (environment : List String)
    (secrets : FileRead) (name : String) : Prop :=
  ∃ full document entries, fullName upper name = some full ∧ full ∉ environment ∧
    secretEntries rt yaml secrets = .ok (document, entries) ∧
      ∃ entry ∈ entries, storesName full entry = true

theorem deleteSecret_eq_some {rt : Runtime} {yaml : Yaml} {secrets : FileRead} {name : String} :
    (∃ left, deleteSecret rt yaml secrets name = .ok (some left)) ↔
      ∃ document entries, secretEntries rt yaml secrets = .ok (document, entries) ∧
        ∃ entry ∈ entries, storesName name entry = true := by
  unfold deleteSecret
  cases hread : secretEntries rt yaml secrets with
  | error problem => simp
  | ok found =>
      obtain ⟨document, entries⟩ := found
      simp only [Except.ok.injEq, Prod.mk.injEq]
      split
      · rename_i hlength
        refine iff_of_false (by simp) ?_
        rintro ⟨_, _, ⟨rfl, rfl⟩, entry, hentry, hstores⟩
        rw [List.length_filter_eq_length_iff] at hlength
        simpa [hstores] using hlength entry hentry
      · rename_i hlength
        refine iff_of_true ⟨_, rfl⟩ ⟨document, entries, ⟨rfl, rfl⟩, ?_⟩
        rw [List.length_filter_eq_length_iff] at hlength
        by_contra hnone
        refine hlength fun entry hentry => ?_
        cases hstores : storesName name entry with
        | false => rfl
        | true => exact absurd ⟨entry, hentry, hstores⟩ hnone

/-- A credential goes exactly when it can be deleted and no job of the snapshot refers to it. -/
theorem deleteCredential_ok_iff {rt : Runtime} {yaml : Yaml} {upper : String → String}
    {environment : List String} {jobs secrets : FileRead} {name full : String} :
    (∃ left, deleteCredential rt yaml upper environment jobs secrets name = .ok (full, left)) ↔
      fullName upper name = some full ∧ full ∉ environment ∧
        ¬ Refers (snapshotOf rt yaml jobs).document full ∧
          ∃ document entries, secretEntries rt yaml secrets = .ok (document, entries) ∧
            ∃ entry ∈ entries, storesName full entry = true := by
  rw [← references_eq_nil_iff, ← deleteSecret_eq_some]
  unfold deleteCredential
  cases hname : fullName upper name with
  | none => simp
  | some stored =>
      dsimp only
      by_cases henv : stored ∈ environment
      · rw [if_pos (by simpa using henv)]
        refine iff_of_false (by simp) ?_
        rintro ⟨hsame, hnot, _⟩
        exact hnot (Option.some.inj hsame ▸ henv)
      · rw [if_neg (by simpa using henv)]
        cases hused : references (snapshotOf rt yaml jobs).document stored with
        | cons label rest =>
            refine iff_of_false (by simp) ?_
            rintro ⟨hsame, _, hnil, _⟩
            rw [← Option.some.inj hsame, hused] at hnil
            cases hnil
        | nil =>
            rw [List.isEmpty_nil, if_pos rfl]
            cases hdelete : deleteSecret rt yaml secrets stored with
            | error refusal =>
                refine iff_of_false (by simp) ?_
                rintro ⟨hsame, _, _, left, hleft⟩
                rw [← Option.some.inj hsame, hdelete] at hleft
                cases hleft
            | ok change =>
                cases change with
                | none =>
                    refine iff_of_false (by simp) ?_
                    rintro ⟨hsame, _, _, left, hleft⟩
                    rw [← Option.some.inj hsame, hdelete] at hleft
                    cases hleft
                | some left =>
                    constructor
                    · rintro ⟨_, h⟩
                      obtain ⟨rfl, rfl⟩ := Prod.mk.inj (Except.ok.inj h)
                      exact ⟨rfl, henv, hused, _, hdelete⟩
                    · rintro ⟨hsame, _⟩
                      exact ⟨left, by rw [Option.some.inj hsame]⟩

theorem findJob_eq_none_iff {jobs : List Val} {jobId : String} :
    findJob jobs jobId = none ↔ ∀ job ∈ jobs, hasId jobId job = false := by
  simp [findJob]

/-- The ingester is asked exactly when the snapshot has no such job and no run is working. -/
theorem deleteOrphan_ok_iff {rt : Runtime} {yaml : Yaml} {read : FileRead} {running : RunsAnswer}
    {jobId : String} :
    deleteOrphan rt yaml read running jobId = .ok (.deleteOrphan jobId) ↔
      (∀ job ∈ jobEntries (snapshotOf rt yaml read).document, hasId jobId job = false) ∧
        refuseWhileRunning running = .ok () := by
  rw [← findJob_eq_none_iff]
  unfold deleteOrphan
  cases findJob (jobEntries (snapshotOf rt yaml read).document) jobId with
  | some job => simp
  | none => cases refuseWhileRunning running <;> simp

end Papaia.Ingest
