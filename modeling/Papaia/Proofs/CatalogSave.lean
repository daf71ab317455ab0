/-
Module: Papaia.Proofs.CatalogSave
Purpose: What the check of one job says about the catalog it is saved into.  The rules across jobs
  blame the job that stands later in the file, so the check of the saved job sees every conflict
  with the jobs before it and none with the jobs behind it.
Trusted boundary: none
Main exports: checkCatalog_eq_nil_iff, crossJob_eq_nil_iff, save_keeps_catalog_clean_iff
-/
import Papaia.Ingest.Catalog
import Papaia.Proofs.Merge
import Papaia.Proofs.Reading

namespace Papaia.Ingest

open FirstSeen

/-! ### The rules across jobs as pairwise agreement -/

theorem idRule_coherent : idRule.Coherent := fun _ _ _ h => by simp [idRule] at h

theorem labelRule_coherent : labelRule.Coherent := fun _ _ _ h => by simp [labelRule] at h

theorem modelRule_coherent : modelRule.Coherent := by
  intro a b c hab hac
  simp only [modelRule, bne_eq_false_iff_eq] at hab hac ⊢
  exact hab.symm.trans hac

theorem connectionRule_coherent : connectionRule.Coherent := by
  intro a b c hab hac
  simp only [connectionRule, bne_eq_false_iff_eq] at hab hac ⊢
  exact hab.symm.trans hac

/-- The one loop over models and connections reports what two loops would. -/
theorem mem_servingIssues {models connections : List (String × Row)} {rows : List Row}
    {issue : Issue} :
    issue ∈ servingIssues models connections rows ↔
      issue ∈ modelRule.scan models rows ∨ issue ∈ connectionRule.scan connections rows := by
  induction rows generalizing models connections with
  | nil => simp [servingIssues, Rule.scan]
  | cons row rest ih =>
      simp only [servingIssues, Rule.scan, List.mem_append, ih]
      tauto

/-- The catalog has no conflict exactly when its jobs agree pairwise, whatever their order. -/
theorem crossJob_eq_nil_iff (rows : List Row) (ctx : RuleContext) :
    crossJob rows ctx = [] ↔
      rows.Pairwise idRule.Agree ∧ (∀ row ∈ rows, systemIssue ctx row = none) ∧
        (enabledRows rows).Pairwise labelRule.Agree ∧
        (enabledRows rows).Pairwise modelRule.Agree ∧
        (enabledRows rows).Pairwise connectionRule.Agree := by
  have hserving : servingIssues [] [] (enabledRows rows) = [] ↔
      modelRule.scan [] (enabledRows rows) = [] ∧
        connectionRule.scan [] (enabledRows rows) = [] := by
    simp only [List.eq_nil_iff_forall_not_mem, mem_servingIssues, not_or, forall_and]
  rw [crossJob, List.append_eq_nil_iff, List.append_eq_nil_iff, List.append_eq_nil_iff, hserving,
    idRule.scan_eq_nil_iff idRule_coherent, labelRule.scan_eq_nil_iff labelRule_coherent,
    modelRule.scan_eq_nil_iff modelRule_coherent,
    connectionRule.scan_eq_nil_iff connectionRule_coherent, List.filterMap_eq_nil_iff]
  tauto

/-! ### One entry of the catalog -/

/-- The job an entry parses to, with the catalog defaults under it. -/
def specOf (rt : Runtime) (defaults : Mapping) (raw : Val) : Option JobSpec :=
  raw.mapping?.bind fun job => (readJobSpec rt (effective job defaults)).toOption

/-- The row the rules across jobs see of an entry. -/
def rowOf (rt : Runtime) (defaults : Mapping) (raw : Val) : Option Row :=
  (specOf rt defaults raw).map fun spec => (spec.id, spec)

/-- An entry that parses and satisfies the rules about a single job. -/
def CleanEntry (rt : Runtime) (defaults : Mapping) (ctx : RuleContext) (raw : Val) : Prop :=
  ∃ spec, specOf rt defaults raw = some spec ∧ checkJob rt spec.id spec ctx = []

theorem parseJob_of_ok {rt : Runtime} {raw defaults : Mapping} {label : Option String}
    {spec : JobSpec} (h : readJobSpec rt (effective raw defaults) = .ok spec) :
    parseJob rt raw defaults label = (some spec, []) := by
  unfold parseJob
  rw [h]

theorem parseJob_of_error {rt : Runtime} {raw defaults : Mapping} {label : Option String}
    {faults : Faults} (h : readJobSpec rt (effective raw defaults) = .error faults) :
    parseJob rt raw defaults label =
      (none, faults.toList.map (issueFrom (reportedId raw label))) := by
  unfold parseJob
  rw [h]

/-- An entry that parses: its row, and the rules about a single job. -/
theorem checkEntry_of_spec {rt : Runtime} {defaults : Mapping} {ctx : RuleContext} {index : Nat}
    {raw : Val} {spec : JobSpec} (h : specOf rt defaults raw = some spec) :
    checkEntry rt defaults ctx index raw = (some (spec.id, spec), checkJob rt spec.id spec ctx) := by
  obtain ⟨job, hjob, hread⟩ := Option.bind_eq_some_iff.1 h
  have hok : readJobSpec rt (effective job defaults) = .ok spec := by
    cases hcase : readJobSpec rt (effective job defaults) with
    | error faults => rw [hcase] at hread; cases hread
    | ok other => rw [hcase] at hread; rw [Option.some.inj hread]
  unfold checkEntry
  rw [hjob]
  dsimp only
  rw [parseJob_of_ok hok]
  rfl

/-- An entry that does not parse: no row, and at least one issue. -/
theorem checkEntry_of_no_spec {rt : Runtime} {defaults : Mapping} {ctx : RuleContext}
    {index : Nat} {raw : Val} (h : specOf rt defaults raw = none) :
    (checkEntry rt defaults ctx index raw).1 = none ∧
      (checkEntry rt defaults ctx index raw).2 ≠ [] := by
  cases hjob : raw.mapping? with
  | none =>
      unfold checkEntry
      rw [hjob]
      simp
  | some job =>
      have hfail : (readJobSpec rt (effective job defaults)).toOption = none := by
        rw [specOf, hjob] at h
        exact h
      cases hread : readJobSpec rt (effective job defaults) with
      | ok spec => rw [hread] at hfail; cases hfail
      | error faults =>
          unfold checkEntry
          rw [hjob]
          dsimp only
          rw [parseJob_of_error hread]
          exact ⟨rfl, by simpa using faults.toList_ne_nil⟩

theorem checkEntry_row (rt : Runtime) (defaults : Mapping) (ctx : RuleContext) (index : Nat)
    (raw : Val) : (checkEntry rt defaults ctx index raw).1 = rowOf rt defaults raw := by
  cases hspec : specOf rt defaults raw with
  | none => rw [(checkEntry_of_no_spec hspec).1, rowOf, hspec, Option.map_none]
  | some spec => rw [checkEntry_of_spec hspec, rowOf, hspec, Option.map_some]

theorem checkEntry_eq_nil_iff (rt : Runtime) (defaults : Mapping) (ctx : RuleContext)
    (index : Nat) (raw : Val) :
    (checkEntry rt defaults ctx index raw).2 = [] ↔ CleanEntry rt defaults ctx raw := by
  cases hspec : specOf rt defaults raw with
  | none =>
      refine iff_of_false (checkEntry_of_no_spec hspec).2 ?_
      rintro ⟨spec, hsome, _⟩
      rw [hspec] at hsome
      cases hsome
  | some spec =>
      rw [checkEntry_of_spec hspec]
      constructor
      · exact fun h => ⟨spec, hspec, h⟩
      · rintro ⟨other, hother, h⟩
        rw [hspec] at hother
        rw [Option.some.inj hother]
        exact h

/-- The rows of a list of entries. -/
def rowsOf (rt : Runtime) (defaults : Mapping) (jobs : List Val) : List Row :=
  jobs.filterMap (rowOf rt defaults)

theorem rows_checkEntries (rt : Runtime) (defaults : Mapping) (ctx : RuleContext)
    (jobs : List Val) :
    (checkEntries rt defaults ctx jobs).filterMap (·.1) = rowsOf rt defaults jobs := by
  rw [checkEntries, List.filterMap_map, rowsOf]
  have hrow : ((fun entry : Option Row × List Issue => entry.1) ∘
      fun entry : Val × Nat => checkEntry rt defaults ctx entry.2 entry.1) =
      fun entry => rowOf rt defaults entry.1 := by
    funext entry
    exact checkEntry_row rt defaults ctx entry.2 entry.1
  rw [hrow]
  conv_rhs => rw [← List.zipIdx_map_fst 0 jobs, List.filterMap_map]
  rfl

theorem issues_checkEntries_eq_nil_iff (rt : Runtime) (defaults : Mapping) (ctx : RuleContext)
    (jobs : List Val) :
    (checkEntries rt defaults ctx jobs).flatMap (·.2) = [] ↔
      ∀ raw ∈ jobs, CleanEntry rt defaults ctx raw := by
  rw [checkEntries, List.flatMap_map, List.flatMap_eq_nil_iff]
  simp only [checkEntry_eq_nil_iff]
  constructor
  · intro h raw hraw
    rw [← List.zipIdx_map_fst 0 jobs] at hraw
    obtain ⟨entry, hentry, rfl⟩ := List.mem_map.1 hraw
    exact h entry hentry
  · intro h entry hentry
    exact h _ (List.fst_mem_of_mem_zipIdx hentry)

/-! ### The whole catalog -/

/-- A document whose frame is in order: version, defaults and a list of jobs. -/
structure Framed (rt : Runtime) (document defaults : Mapping) (jobs : List Val) : Prop where
  version : isVersionOne document = true
  defaults_eq : defaultsOf document = some defaults
  sections : unknownSections rt defaults = []
  jobs_eq : jobsOf document = some jobs

theorem checkCatalog_of_framed {rt : Runtime} {document defaults : Mapping} {jobs : List Val}
    (h : Framed rt document defaults jobs) (ctx : RuleContext) :
    checkCatalog rt document ctx =
      (checkEntries rt defaults ctx jobs).flatMap (·.2) ++
        crossJob (rowsOf rt defaults jobs) ctx := by
  unfold checkCatalog
  simp only [h.version, h.defaults_eq, h.sections, h.jobs_eq, rows_checkEntries]
  simp

theorem framed_of_clean {rt : Runtime} {document : Mapping} {ctx : RuleContext}
    (h : checkCatalog rt document ctx = []) :
    ∃ defaults jobs, Framed rt document defaults jobs := by
  unfold checkCatalog at h
  cases hversion : isVersionOne document with
  | false => simp [hversion] at h
  | true =>
      cases hdefaults : defaultsOf document with
      | none => simp [hversion, hdefaults] at h
      | some defaults =>
          cases hjobs : jobsOf document with
          | none => simp [hversion, hdefaults, hjobs] at h
          | some jobs =>
              refine ⟨defaults, jobs, hversion, hdefaults, ?_, hjobs⟩
              by_contra hsections
              have hne : (unknownSections rt defaults).isEmpty = false := by
                simpa using hsections
              simp [hversion, hdefaults, hjobs, hne] at h

/-- A framed catalog is clean exactly when its entries are and its jobs agree. -/
theorem checkCatalog_eq_nil_iff {rt : Runtime} {document defaults : Mapping} {jobs : List Val}
    (h : Framed rt document defaults jobs) (ctx : RuleContext) :
    checkCatalog rt document ctx = [] ↔
      (∀ raw ∈ jobs, CleanEntry rt defaults ctx raw) ∧
        crossJob (rowsOf rt defaults jobs) ctx = [] := by
  rw [checkCatalog_of_framed h, List.append_eq_nil_iff, issues_checkEntries_eq_nil_iff]

/-! ### The saved job in its place -/

/-- The entries that stand behind the place of a job. -/
def entriesBehind (jobs : List Val) (jobId : String) : List Val :=
  match indexOf jobs jobId with
  | some index => jobs.drop (index + 1)
  | none => []

theorem hasId_iff {jobId : String} {raw : Val} :
    hasId jobId raw = true ↔ ∃ job : Mapping, raw = .map job ∧ job.get? "id" = some (.str jobId) := by
  cases raw with
  | scalar | list | set => simp [hasId]
  | map job => simp [hasId, Mapping.getD_eqv_str]

/-- The saved job stands where the first job with its id stood, or behind all of them. -/
theorem placeJob_split (jobs : List Val) (jobId : String) (entry : Mapping) :
    ∃ before, placeJob jobs jobId entry = before ++ .map entry :: entriesBehind jobs jobId ∧
      ((∃ old, jobs = before ++ old :: entriesBehind jobs jobId ∧ hasId jobId old = true) ∨
        (jobs = before ∧ entriesBehind jobs jobId = [])) := by
  cases hindex : indexOf jobs jobId with
  | none =>
      exact ⟨jobs, by simp [placeJob, entriesBehind, hindex],
        .inr ⟨rfl, by simp [entriesBehind, hindex]⟩⟩
  | some index =>
      obtain ⟨hlt, hold, _⟩ := List.findIdx?_eq_some_iff_getElem.1 hindex
      refine ⟨jobs.take index, ?_, .inl ⟨jobs[index], ?_, hold⟩⟩
      · simp [placeJob, entriesBehind, hindex, List.set_eq_take_append_cons_drop, hlt]
      · simp only [entriesBehind, hindex]
        rw [List.getElem_cons_drop, List.take_append_drop]

theorem framed_candidate {rt : Runtime} {document defaults document' : Mapping} {jobs : List Val}
    {jobId : String} {entry : Mapping} (h : Framed rt document defaults jobs)
    (hplace : candidateDocument document jobId entry = some document') :
    Framed rt document' defaults (placeJob jobs jobId entry) := by
  have hlist : ∃ listed, (setDefault document "jobs" (.list [])).getD "jobs" = .list listed ∧
      document' = document.put (.str "jobs") (.list (placeJob listed jobId entry)) := by
    unfold candidateDocument at hplace
    split at hplace
    · rename_i listed hget
      exact ⟨listed, hget, (Option.some.inj hplace).symm⟩
    · cases hplace
  obtain ⟨listed, hget, rfl⟩ := hlist
  have hjobs : listed = jobs := by
    have hof := h.jobs_eq
    cases hkey : Mapping.get? document "jobs" with
    | none =>
        have hnull : Mapping.getD document "jobs" = .null := by rw [Mapping.getD, hkey]; rfl
        rw [jobsOf, hnull] at hof
        rw [setDefault, hkey] at hget
        simp only [Mapping.getD, Mapping.get?_put_self, Option.getD_some, Val.list.injEq] at hget
        rw [← hget]
        exact Option.some.inj hof
    | some value =>
        have hvalue : Mapping.getD document "jobs" = value := by rw [Mapping.getD, hkey]; rfl
        rw [setDefault, hkey] at hget
        dsimp only at hget
        rw [jobsOf, hget] at hof
        cases listed with
        | nil => exact Option.some.inj hof
        | cons first rest => exact Option.some.inj hof
  subst hjobs
  have hother : ∀ key, key ≠ "jobs" →
      Mapping.getD (document.put (.str "jobs") (.list (placeJob listed jobId entry))) key =
        document.getD key := fun key hkey => by
    rw [Mapping.getD, Mapping.get?_put_of_ne _ _ hkey, Mapping.getD]
  refine ⟨?_, ?_, h.sections, ?_⟩
  · rw [isVersionOne, hother "version" (by decide)]
    exact h.version
  · rw [defaultsOf, hother "defaults" (by decide)]
    exact h.defaults_eq
  · rw [jobsOf, Mapping.getD, Mapping.get?_put_self]
    cases placeJob listed jobId entry <;> rfl

/-- No enabled job behind the place of the saved one clashes with it: on its collection, every one
of them has another label, the same model and the same connection. -/
def NoLaterClash (rt : Runtime) (defaults : Mapping) (jobs : List Val) (jobId : String)
    (entry : Mapping) : Prop :=
  ∀ spec, specOf rt defaults (.map entry) = some spec → spec.enabled = true →
    ∀ raw ∈ entriesBehind jobs jobId, ∀ other, specOf rt defaults raw = some other →
      other.enabled = true → other.target.collection = spec.target.collection →
        other.source.label ≠ spec.source.label ∧ other.modelName = spec.modelName ∧
          other.target.connection = spec.target.connection

/-! ### What is reported about the saved job -/

theorem reportedId_of_text {raw : Mapping} {jobId : String} {label : Option String}
    (hid : raw.get? "id" = some (.str jobId)) (hne : jobId ≠ "") :
    reportedId raw label = some jobId := by
  simp [reportedId, hid, hne]

theorem checkJob_jobId {rt : Runtime} {jobId : String} {spec : JobSpec} {ctx : RuleContext}
    {issue : Issue} (h : issue ∈ checkJob rt jobId spec ctx) : issue.jobId = some jobId := by
  unfold checkJob at h
  simp only [List.mem_append] at h
  rcases h with ((((h | h) | h) | h) | h) | h
  · split at h <;> simp_all
  · split at h
    · split at h
      · simp at h
      · split at h <;> simp_all
    · simp at h
  · split at h
    · simp at h
    · obtain ⟨key, _, hkey⟩ := List.mem_filterMap.1 h
      split at hkey
      · split at hkey <;> simp_all
        simp [← hkey]
      · cases hkey
  · split at h <;> simp_all
  · split at h <;> simp_all
  · split at h
    · simp at h
    · split at h <;> simp_all

/-- The id of a parsed job is read from the entry alone: no default supplies it. -/
theorem readId_of_specOf {rt : Runtime} {defaults entry : Mapping} {spec : JobSpec}
    (h : specOf rt defaults (.map entry) = some spec) :
    field entry "id" missing (readPattern Text.isSlug) = .ok spec.id := by
  have hread : readJobSpec rt (effective entry defaults) = .ok spec := by
    rw [specOf, Val.mapping?_map, Option.bind_some] at h
    cases hcase : readJobSpec rt (effective entry defaults) with
    | error faults => rw [hcase] at h; cases h
    | ok other => rw [hcase] at h; rw [Option.some.inj h]
  have hfield := (readJobSpec_eq_ok.1 hread).1
  rwa [field_eq_ok, get?_effective_of_not_section _ _ (by decide), ← field_eq_ok] at hfield

/-- A job that parses has the id it was written with. -/
theorem id_of_specOf {rt : Runtime} {defaults entry : Mapping} {spec : JobSpec} {jobId : String}
    (h : specOf rt defaults (.map entry) = some spec)
    (hid : entry.get? "id" = some (.str jobId)) : spec.id = jobId ∧ jobId ≠ "" := by
  have hfield := readId_of_specOf h
  rw [field_eq_ok, hid] at hfield
  have hslug : Text.isSlug jobId = true ∧ jobId = spec.id := by
    by_cases hslug : Text.isSlug jobId = true
    · simpa [readPattern, readStr, laxText, hslug] using hfield
    · simp [readPattern, readStr, laxText, hslug] at hfield
  refine ⟨hslug.2.symm, ?_⟩
  rintro rfl
  exact absurd hslug.1 (by decide)

theorem exists_index {α : Type} {x : α} {xs : List α} (h : x ∈ xs) :
    ∃ index, (x, index) ∈ xs.zipIdx := by
  rw [← List.zipIdx_map_fst 0 xs] at h
  obtain ⟨entry, hentry, rfl⟩ := List.mem_map.1 h
  exact ⟨entry.2, hentry⟩

/-- When nothing is reported about the saved job, it parses and satisfies its own rules. -/
theorem cleanEntry_of_quiet {rt : Runtime} {document defaults entry : Mapping} {jobs : List Val}
    {ctx : RuleContext} {jobId : String} (h : Framed rt document defaults jobs)
    (hmem : .map entry ∈ jobs) (hid : entry.get? "id" = some (.str jobId)) (hne : jobId ≠ "")
    (quiet : ∀ issue ∈ checkCatalog rt document ctx, issue.jobId ≠ some jobId) :
    CleanEntry rt defaults ctx (.map entry) := by
  obtain ⟨index, hindex⟩ := exists_index hmem
  rw [← checkEntry_eq_nil_iff rt defaults ctx index, List.eq_nil_iff_forall_not_mem]
  intro issue hissue
  have hcatalog : issue ∈ checkCatalog rt document ctx := by
    rw [checkCatalog_of_framed h, List.mem_append, List.mem_flatMap]
    exact .inl ⟨_, List.mem_map.2 ⟨_, hindex, rfl⟩, hissue⟩
  apply quiet issue hcatalog
  cases hspec : specOf rt defaults (.map entry) with
  | some spec =>
      rw [checkEntry_of_spec hspec] at hissue
      rw [checkJob_jobId hissue, (id_of_specOf hspec hid).1]
  | none =>
      unfold checkEntry at hissue
      rw [Val.mapping?_map] at hissue
      dsimp only at hissue
      cases hread : readJobSpec rt (effective entry defaults) with
      | ok spec =>
          rw [specOf, Val.mapping?_map, Option.bind_some, hread] at hspec
          cases hspec
      | error faults =>
          rw [parseJob_of_error hread, reportedId_of_text hid hne] at hissue
          obtain ⟨fault, _, rfl⟩ := List.mem_map.1 hissue
          rfl

theorem rowsOf_split (rt : Runtime) (defaults : Mapping) (before after : List Val) {raw : Val}
    {spec : JobSpec} (h : specOf rt defaults raw = some spec) :
    rowsOf rt defaults (before ++ raw :: after) =
      rowsOf rt defaults before ++ (spec.id, spec) :: rowsOf rt defaults after := by
  simp [rowsOf, List.filterMap_append, rowOf, h]

theorem mem_rowsOf {rt : Runtime} {defaults : Mapping} {jobs : List Val} {row : Row} :
    row ∈ rowsOf rt defaults jobs ↔
      ∃ raw ∈ jobs, ∃ spec, specOf rt defaults raw = some spec ∧ row = (spec.id, spec) := by
  simp [rowsOf, rowOf, eq_comm]

/-- A rule that is quiet about the saved row, over jobs that agree: the catalog agrees exactly when
the saved row agrees with the rows behind it. -/
theorem rule_after_save {κ : Type} [DecidableEq κ] (r : Rule Row κ Issue) (coherent : r.Coherent)
    {before after : List Row} {row : Row} {jobId : String}
    (clean : (before ++ after).Pairwise r.Agree)
    (blames : ∀ first, (r.report first row).jobId = some jobId)
    (quiet : ∀ issue ∈ r.scan [] (before ++ row :: after), issue.jobId ≠ some jobId) :
    (before ++ row :: after).Pairwise r.Agree ↔ ∀ other ∈ after, r.Agree row other := by
  have hbefore : ∀ other ∈ before, r.Agree other row :=
    r.agree_of_not_reported coherent (List.pairwise_append.1 clean).1
      fun first hmem => quiet _ hmem (blames first)
  exact r.pairwise_insert_iff clean hbefore

theorem enabledRows_append (xs ys : List Row) :
    enabledRows (xs ++ ys) = enabledRows xs ++ enabledRows ys := by
  simp [enabledRows]

theorem enabledRows_cons (row : Row) (rows : List Row) :
    enabledRows (row :: rows) =
      if row.2.enabled = true then row :: enabledRows rows else enabledRows rows := by
  simp [enabledRows, List.filter_cons]

/-- The enabled rows agree after a save exactly when the saved row, where it is enabled, agrees
with the enabled rows behind it. -/
theorem enabled_after_save {κ : Type} [DecidableEq κ] (r : Rule Row κ Issue)
    (coherent : r.Coherent) {before after : List Row} {row : Row} {jobId : String}
    (clean : (enabledRows (before ++ after)).Pairwise r.Agree)
    (blames : ∀ first, (r.report first row).jobId = some jobId)
    (quiet : ∀ issue ∈ r.scan [] (enabledRows (before ++ row :: after)),
      issue.jobId ≠ some jobId) :
    (enabledRows (before ++ row :: after)).Pairwise r.Agree ↔
      (row.2.enabled = true → ∀ other ∈ enabledRows after, r.Agree row other) := by
  rw [enabledRows_append] at clean
  rw [enabledRows_append, enabledRows_cons] at quiet ⊢
  by_cases henabled : row.2.enabled = true
  · rw [if_pos henabled] at quiet ⊢
    rw [rule_after_save r coherent clean blames quiet]
    simp [henabled]
  · rw [if_neg henabled]
    simp [henabled, clean]

/-- Every enabled job of a clean catalog names a model. -/
theorem modelName_ne_empty {rt : Runtime} {jobId : String} {spec : JobSpec} {ctx : RuleContext}
    (h : checkJob rt jobId spec ctx = []) (henabled : spec.enabled = true) :
    spec.modelName ≠ "" := by
  unfold checkJob at h
  simp only [List.append_eq_nil_iff] at h
  have hmodel := h.1.2
  intro hempty
  rw [JobSpec.modelName] at hempty
  simp [henabled, hempty] at hmodel

/-- The entry the saved one replaces had its id, so no job behind it has. -/
theorem distinct_behind {rt : Runtime} {defaults : Mapping} {ctx : RuleContext} {jobs before : List Val}
    {jobId : String} (hentries : ∀ raw ∈ jobs, CleanEntry rt defaults ctx raw)
    (hids : (rowsOf rt defaults jobs).Pairwise idRule.Agree)
    (hwas : (∃ old, jobs = before ++ old :: entriesBehind jobs jobId ∧ hasId jobId old = true) ∨
      (jobs = before ∧ entriesBehind jobs jobId = [])) :
    ∀ other ∈ rowsOf rt defaults (entriesBehind jobs jobId), other.1 ≠ jobId := by
  intro other hother
  rcases hwas with ⟨old, hjobs, hold⟩ | ⟨_, hnil⟩
  · obtain ⟨job, rfl, hid⟩ := hasId_iff.1 hold
    obtain ⟨spec, hspec, _⟩ := hentries (.map job) (hjobs ▸ by simp)
    rw [hjobs, rowsOf_split rt defaults before _ hspec, (id_of_specOf hspec hid).1] at hids
    have hagree := (List.pairwise_cons.1 (List.pairwise_append.1 hids).2.1).1 other hother
    intro heq
    exact absurd (hagree jobId rfl (by rw [← heq]; rfl)) (by simp [idRule])
  · rw [hnil] at hother
    cases hother

theorem mem_enabledRows {rt : Runtime} {defaults : Mapping} {jobs : List Val} {row : Row} :
    row ∈ enabledRows (rowsOf rt defaults jobs) ↔
      ∃ raw ∈ jobs, ∃ spec, specOf rt defaults raw = some spec ∧ spec.enabled = true ∧
        row = (spec.id, spec) := by
  simp only [enabledRows, List.mem_filter, mem_rowsOf]
  constructor
  · rintro ⟨⟨raw, hraw, spec, hspec, rfl⟩, henabled⟩
    exact ⟨raw, hraw, spec, hspec, henabled, rfl⟩
  · rintro ⟨raw, hraw, spec, hspec, henabled, rfl⟩
    exact ⟨⟨raw, hraw, spec, hspec, rfl⟩, henabled⟩

theorem labelRule_agree {a b : Row} :
    labelRule.Agree a b ↔
      (b.2.target.collection = a.2.target.collection → b.2.source.label ≠ a.2.source.label) := by
  simp only [Rule.Agree, labelRule, Option.some.injEq]
  constructor
  · intro h hcollection hlabel
    exact absurd (h _ rfl (by rw [hcollection, hlabel])) (by simp)
  · rintro h _ rfl heq
    obtain ⟨hcollection, hlabel⟩ := Prod.mk.inj heq
    exact absurd hlabel (h hcollection)

theorem modelRule_agree {a b : Row} (ha : a.2.modelName ≠ "") (hb : b.2.modelName ≠ "") :
    modelRule.Agree a b ↔
      (b.2.target.collection = a.2.target.collection → b.2.modelName = a.2.modelName) := by
  simp only [Rule.Agree, modelRule, if_neg ha, if_neg hb, Option.some.injEq,
    bne_eq_false_iff_eq]
  constructor
  · exact fun h hcollection => (h _ rfl hcollection).symm
  · rintro h _ rfl hcollection
    exact (h hcollection).symm

theorem connectionRule_agree {a b : Row} :
    connectionRule.Agree a b ↔
      (b.2.target.collection = a.2.target.collection →
        b.2.target.connection = a.2.target.connection) := by
  simp only [Rule.Agree, connectionRule, Option.some.injEq, bne_eq_false_iff_eq]
  constructor
  · exact fun h hcollection => (h _ rfl hcollection).symm
  · rintro h _ rfl hcollection
    exact (h hcollection).symm

/-- No job behind clashes exactly where the three rules for what is served agree with every enabled
row behind. -/
theorem noLaterClash_iff {rt : Runtime} {defaults entry : Mapping} {jobs : List Val} {jobId : String}
    {spec : JobSpec} (hspec : specOf rt defaults (.map entry) = some spec)
    (hown : spec.enabled = true → spec.modelName ≠ "")
    (hbehind : ∀ raw ∈ entriesBehind jobs jobId, ∀ other, specOf rt defaults raw = some other →
      other.enabled = true → other.modelName ≠ "") :
    NoLaterClash rt defaults jobs jobId entry ↔
      (spec.enabled = true → ∀ row ∈ enabledRows (rowsOf rt defaults (entriesBehind jobs jobId)),
        labelRule.Agree (jobId, spec) row) ∧
      (spec.enabled = true → ∀ row ∈ enabledRows (rowsOf rt defaults (entriesBehind jobs jobId)),
        modelRule.Agree (jobId, spec) row) ∧
      (spec.enabled = true → ∀ row ∈ enabledRows (rowsOf rt defaults (entriesBehind jobs jobId)),
        connectionRule.Agree (jobId, spec) row) := by
  constructor
  · intro hclash
    refine ⟨?_, ?_, ?_⟩ <;> intro henabled row hrow <;>
      obtain ⟨raw, hraw, other, hother, hotherEnabled, rfl⟩ := mem_enabledRows.1 hrow
    · exact labelRule_agree.2 fun hcollection =>
        (hclash spec hspec henabled raw hraw other hother hotherEnabled hcollection).1
    · exact (modelRule_agree (hown henabled) (hbehind raw hraw other hother hotherEnabled)).2
        fun hcollection =>
          (hclash spec hspec henabled raw hraw other hother hotherEnabled hcollection).2.1
    · exact connectionRule_agree.2 fun hcollection =>
        (hclash spec hspec henabled raw hraw other hother hotherEnabled hcollection).2.2
  · rintro ⟨hlabel, hmodel, hconnection⟩ saved hsaved henabled raw hraw other hother hotherEnabled
      hcollection
    obtain rfl := Option.some.inj (hspec.symm.trans hsaved)
    have hrow := mem_enabledRows.2 ⟨raw, hraw, other, hother, hotherEnabled, rfl⟩
    have hmodel' := (modelRule_agree (hown henabled) (hbehind raw hraw other hother hotherEnabled)).1
      (hmodel henabled _ hrow)
    exact ⟨labelRule_agree.1 (hlabel henabled _ hrow) hcollection, hmodel' hcollection,
      connectionRule_agree.1 (hconnection henabled _ hrow) hcollection⟩

theorem jobId_of_systemIssue {ctx : RuleContext} {row : Row} {issue : Issue}
    (h : systemIssue ctx row = some issue) : issue.jobId = some row.1 := by
  unfold systemIssue at h
  split at h
  · rw [← Option.some.inj h]
  · cases h

/-- `save` keeps a write on the word of `check_one`.  For a clean catalog and a saved entry about
which `check_one` says nothing, the whole catalog is clean exactly when the entry has an id and no
enabled job behind its place clashes with it. -/
theorem save_keeps_catalog_clean_iff (rt : Runtime) (ctx : RuleContext)
    (document document' entry : Mapping) (jobId : String)
    (hid : entry.get? "id" = some (.str jobId) ∨ entry.get? "id" = none ∧ jobId = "")
    (healthy : checkCatalog rt document ctx = [])
    (hplace : candidateDocument document jobId entry = some document')
    (hone : checkOne rt document' jobId ctx = []) :
    checkCatalog rt document' ctx = [] ↔
      jobId ≠ "" ∧
        NoLaterClash rt ((defaultsOf document).getD []) ((jobsOf document).getD []) jobId
          entry := by
  obtain ⟨defaults, jobs, hframed⟩ := framed_of_clean healthy
  rw [hframed.defaults_eq, hframed.jobs_eq, Option.getD_some, Option.getD_some]
  have hframed' := framed_candidate hframed hplace
  have quiet : ∀ issue ∈ checkCatalog rt document' ctx, issue.jobId ≠ some jobId := by
    intro issue hissue hjob
    have hmem : issue ∈ checkOne rt document' jobId ctx :=
      List.mem_filter.2 ⟨hissue, by simp [hjob]⟩
    rw [hone] at hmem
    cases hmem
  obtain ⟨hentries, hcross⟩ := (checkCatalog_eq_nil_iff hframed ctx).1 healthy
  obtain ⟨before, hsplit, hwas⟩ := placeJob_split jobs jobId entry
  have hmem : Val.map entry ∈ placeJob jobs jobId entry := by simp [hsplit]
  have hsub : (before ++ entriesBehind jobs jobId).Sublist jobs := by
    rcases hwas with ⟨old, hjobs, _⟩ | ⟨hjobs, hnil⟩
    · conv_rhs => rw [hjobs]
      exact List.Sublist.append (List.Sublist.refl before) (List.sublist_cons_self _ _)
    · rw [hnil, List.append_nil, hjobs]
  by_cases hne : jobId = ""
  · -- without an id the entry does not parse, and what is wrong is reported under its index
    refine iff_of_false (fun hclean => ?_) (fun h => h.1 hne)
    obtain ⟨spec, hspec, _⟩ := ((checkCatalog_eq_nil_iff hframed' ctx).1 hclean).1 _ hmem
    rcases hid with hid | ⟨hid, _⟩
    · exact (id_of_specOf hspec hid).2 hne
    · have hread := readId_of_specOf hspec
      rw [field_eq_ok, hid] at hread
      cases hread
  replace hid := hid.resolve_right fun h => hne h.2
  obtain ⟨spec, hspec, hown⟩ := cleanEntry_of_quiet hframed' hmem hid hne quiet
  obtain ⟨hspecid, _⟩ := id_of_specOf hspec hid
  have hrows := rowsOf_split rt defaults before (entriesBehind jobs jobId) hspec
  rw [hspecid, ← hsplit] at hrows
  have hsubrows : (rowsOf rt defaults before ++
      rowsOf rt defaults (entriesBehind jobs jobId)).Sublist (rowsOf rt defaults jobs) := by
    have := hsub.filterMap (rowOf rt defaults)
    rwa [List.filterMap_append] at this
  have hsubenabled := hsubrows.filter (fun row : Row => row.2.enabled)
  obtain ⟨hids, hsystem, hlabels, hmodels, hconnections⟩ := (crossJob_eq_nil_iff _ ctx).1 hcross
  have quietCross : ∀ issue ∈ crossJob (rowsOf rt defaults (placeJob jobs jobId entry)) ctx,
      issue.jobId ≠ some jobId := fun issue hissue =>
    quiet issue (by
      rw [checkCatalog_of_framed hframed']
      exact List.mem_append_right _ hissue)
  rw [hrows] at quietCross
  simp only [crossJob, List.mem_append, mem_servingIssues] at quietCross
  have hown' : ∀ raw ∈ placeJob jobs jobId entry, CleanEntry rt defaults ctx raw := by
    rw [hsplit, List.forall_mem_append, List.forall_mem_cons]
    have hold := fun raw (hraw : raw ∈ before ++ entriesBehind jobs jobId) =>
      hentries raw (hsub.subset hraw)
    rw [List.forall_mem_append] at hold
    exact ⟨hold.1, ⟨spec, hspec, hown⟩, hold.2⟩
  have hids' : (rowsOf rt defaults before ++
      (jobId, spec) :: rowsOf rt defaults (entriesBehind jobs jobId)).Pairwise idRule.Agree := by
    rw [rule_after_save idRule idRule_coherent (hids.sublist hsubrows) (fun _ => rfl)
      fun issue h => quietCross issue (.inl (.inl (.inl h)))]
    intro other hother key hkey hkey'
    exact absurd ((Option.some.inj hkey').trans (Option.some.inj hkey).symm)
      (distinct_behind hentries hids hwas other hother)
  have hsystem' : ∀ row ∈ rowsOf rt defaults before ++
      (jobId, spec) :: rowsOf rt defaults (entriesBehind jobs jobId),
      systemIssue ctx row = none := by
    have hold := fun row hrow => hsystem row (hsubrows.subset hrow)
    rw [List.forall_mem_append] at hold
    rw [List.forall_mem_append, List.forall_mem_cons]
    refine ⟨hold.1, Option.eq_none_iff_forall_ne_some.2 fun issue hissue => ?_, hold.2⟩
    exact quietCross issue
      (.inl (.inl (.inr (List.mem_filterMap.2 ⟨(jobId, spec), by simp, hissue⟩))))
      (jobId_of_systemIssue hissue)
  rw [checkCatalog_eq_nil_iff hframed', crossJob_eq_nil_iff, hrows,
    enabled_after_save labelRule labelRule_coherent (hlabels.sublist hsubenabled)
      (fun _ => rfl) (fun issue h => quietCross issue (by tauto)),
    enabled_after_save modelRule modelRule_coherent (hmodels.sublist hsubenabled)
      (fun _ => rfl) (fun issue h => quietCross issue (by tauto)),
    enabled_after_save connectionRule connectionRule_coherent
      (hconnections.sublist hsubenabled) (fun _ => rfl) (fun issue h => quietCross issue (by tauto))]
  have hmodel : ∀ raw ∈ entriesBehind jobs jobId, ∀ other, specOf rt defaults raw = some other →
      other.enabled = true → other.modelName ≠ "" := by
    intro raw hraw other hother henabled
    obtain ⟨same, hsame, hclean⟩ := hentries raw
      (hsub.subset (List.mem_append_right before hraw))
    rw [hother] at hsame
    obtain rfl := Option.some.inj hsame
    exact modelName_ne_empty hclean henabled
  rw [noLaterClash_iff hspec (modelName_ne_empty hown) hmodel]
  constructor
  · rintro ⟨_, _, _, hagree⟩
    exact ⟨hne, hagree⟩
  · rintro ⟨_, hagree⟩
    exact ⟨hown', hids', hsystem', hagree⟩

/-! ### The neighbour behind the saved job -/

/-- A job that reads a local folder. -/
def folderJob (id label collection : String) : Mapping :=
  [(.str "id", .str id),
    (.str "source", .map [(.str "type", .str "local"), (.str "label", .str label),
      (.str "path", .str ("/data/local/" ++ id))]),
    (.str "target", .map [(.str "collection", .str collection), (.str "connection", .str "main")]),
    (.str "mode", .str "full"),
    (.str "embedding", .map [(.str "model", .str "bge-m3")])]

def folderCatalog (jobs : List Mapping) : Mapping :=
  [(.str "version", .int 1), (.str "jobs", .list (jobs.map .map))]

/-- Two jobs with one label on different collections are fine.  Moving the first to the collection
of the second is kept: the conflict is reported about the second. -/
theorem save_breaks_healthy_catalog :
    ¬ ∀ (rt : Runtime) (ctx : RuleContext) (document document' entry : Mapping) (jobId : String),
      entry.get? "id" = some (.str jobId) →
      checkCatalog rt document ctx = [] →
      candidateDocument document jobId entry = some document' →
      checkOne rt document' jobId ctx = [] →
      checkCatalog rt document' ctx = [] := by
  intro h
  have hclean := h plainRuntime {}
    (folderCatalog [folderJob "a" "docs" "one", folderJob "b" "docs" "two"])
    (folderCatalog [folderJob "a" "docs" "two", folderJob "b" "docs" "two"])
    (folderJob "a" "docs" "two") "a" rfl (by decide +kernel) rfl (by decide +kernel)
  revert hclean
  decide +kernel

/-- A new job is placed behind all others, where nothing can clash with it. -/
theorem save_keeps_new_job_clean :
    checkCatalog plainRuntime
      (folderCatalog [folderJob "a" "docs" "one", folderJob "b" "docs" "two"]) {} = [] :=
  (save_keeps_catalog_clean_iff plainRuntime {} (folderCatalog [folderJob "a" "docs" "one"])
    (folderCatalog [folderJob "a" "docs" "one", folderJob "b" "docs" "two"])
    (folderJob "b" "docs" "two") "b" (.inl rfl) (by decide +kernel) rfl (by decide +kernel)).2
    ⟨by decide, fun _ _ _ _ hraw => absurd hraw List.not_mem_nil⟩

end Papaia.Ingest
