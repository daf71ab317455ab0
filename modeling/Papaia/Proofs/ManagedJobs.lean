/-
Module: Papaia.Proofs.ManagedJobs
Purpose: The Embedding page's check of a job against the others of its collection, held against the
  rules of the schema.  The page reads texts where the schema also takes bytes, so a clash with a
  value of bytes is one it does not see.
Trusted boundary: none
Main exports: crossIssues, ServedClean, HiddenClash, PlainClash, page_as_strict_as_schema_iff
-/
import Papaia.Ingest.ManagedJobs
import Papaia.Proofs.CatalogSave
import Papaia.Proofs.Minimise

namespace Papaia.Ingest

open FirstSeen

/-! ### What is compared -/

/-- The fields the rules about what serves a collection report. -/
def servedFields : List String :=
  ["source.label", "embedding.model", "target.connection"]

/-- No issue is about a label, a model or a connection. -/
def ServedClean (issues : List Issue) : Prop :=
  ∀ issue ∈ issues, issue.field ∉ servedFields

instance (issues : List Issue) : Decidable (ServedClean issues) :=
  inferInstanceAs (Decidable (∀ issue ∈ issues, issue.field ∉ servedFields))

/-- The part of `check_catalog` that `_cross_job` reports. -/
def crossIssues (rt : Runtime) (document : Mapping) (ctx : RuleContext) : List Issue :=
  if isVersionOne document then
    match defaultsOf document, jobsOf document with
    | some defaults, some jobs => crossJob (rowsOf rt defaults jobs) ctx
    | _, _ => []
  else []

theorem checkCatalog_eq_append (rt : Runtime) (document : Mapping) (ctx : RuleContext) :
    ∃ own, checkCatalog rt document ctx = own ++ crossIssues rt document ctx := by
  unfold checkCatalog crossIssues
  cases isVersionOne document with
  | false => exact ⟨_, (List.append_nil _).symm⟩
  | true =>
      cases defaultsOf document with
      | none => exact ⟨_, (List.append_nil _).symm⟩
      | some defaults =>
          cases jobsOf document with
          | none => exact ⟨_, (List.append_nil _).symm⟩
          | some jobs =>
              simp only [rows_checkEntries, Bool.not_true, Bool.false_eq_true, if_false, if_true]
              exact ⟨_, rfl⟩

/-- The job `check_catalog` makes of an entry of a document. -/
def parsedIn (rt : Runtime) (document job : Mapping) : Option JobSpec :=
  if isVersionOne document then
    (defaultsOf document).bind fun defaults => specOf rt defaults (.map job)
  else none

/-- The entries of the document beside a job: the first one with its id is the job itself. -/
def othersOf (document : Mapping) (jobId : String) : List Mapping :=
  (mappingsOf document).eraseP (isNamed jobId)

/-- The schema reports a clash with an entry that is not written in plain texts: its collection,
its label or its model is something else. -/
def Hides (rt : Runtime) (document : Mapping) (job : ManagedJob) (other : Mapping) : Prop :=
  ∃ spec, parsedIn rt document other = some spec ∧ spec.enabled = true ∧
    spec.target.collection = job.collection ∧
    ((spec.source.label = job.kind.label ∧ (collectionOf other = none ∨ labelOf other = none)) ∨
      (spec.modelName ≠ "" ∧ spec.modelName ≠ job.model ∧
        (collectionOf other = none ∨ modelOf document other ≠ some spec.modelName)) ∨
      (spec.target.connection ≠ job.connection ∧ collectionOf other = none))

/-- The entry names the collection of the job in a text, and clashes with it in one. -/
def ClashesInText (document : Mapping) (job : ManagedJob) (other : Mapping) : Prop :=
  rawEnabled other = true ∧ collectionOf other = some job.collection ∧
    (labelOf other = some job.kind.label ∨
      (∃ model, modelOf document other = some model ∧ model ≠ job.model) ∨
      connectionOf other ≠ some job.connection)

/-- The job parses, and another one hides its clash with it. -/
def HiddenClash (rt : Runtime) (naming : Naming) (document : Mapping) (job : ManagedJob) : Prop :=
  (parsedIn rt document (buildJob naming job)).isSome ∧
    ∃ other ∈ othersOf document (job.id naming), Hides rt document job other

/-- The page has a reason to refuse the job: its connection is not known, or another job clashes
with it in plain texts. -/
def PlainReason (naming : Naming) (document : Mapping) (job : ManagedJob)
    (connections : Option (List String)) : Prop :=
  (∃ known, connections = some known ∧ job.connection ∉ known) ∨
    ∃ other ∈ othersOf document (job.id naming), ClashesInText document job other

/-! ### The entry of a run -/

theorem get?_cons (key : String) (value : Val) (rest : Mapping) (other : String) :
    Mapping.get? ((.str key, value) :: rest) other =
      if other = key then some value else rest.get? other := by
  by_cases h : other = key
  · simp [Mapping.get?, h]
  · have hne : (Scalar.str other == Scalar.str key) = false := by simpa using h
    simp [Mapping.get?, List.lookup_cons, hne, h]

section Entry

variable (naming : Naming) (job : ManagedJob)

theorem get?_buildJob_id : (buildJob naming job).get? "id" = some (.str (job.id naming)) := rfl

theorem get?_buildJob_source :
    (buildJob naming job).get? "source" = some (.map [(.str "type", .str "local"),
      (.str "label", .str job.kind.label), (.str "path", .str job.sourcePath)]) := rfl

theorem get?_filtersEntry_of_ne {key : String} (h : key ≠ "filters") :
    job.filtersEntry.get? key = none := by
  unfold ManagedJob.filtersEntry
  split
  · rfl
  · rw [get?_cons, if_neg h]
    rfl

/-- A key behind the filters. -/
theorem get?_buildJob_of_last {key : String} (hfilters : key ≠ "filters")
    (hfirst : key ∉ ["id", "description", "source"]) :
    (buildJob naming job).get? key =
      Mapping.get? [(.str "target", .map [(.str "collection", .str job.collection),
        (.str "connection", .str job.connection)]), (.str "mode", .str "append"),
        (.str "embedding", .map [(.str "model", .str job.model)])] key := by
  rw [buildJob, get?_append, get?_append, get?_filtersEntry_of_ne job hfilters, Option.or_none]
  simp only [List.mem_cons, List.not_mem_nil, or_false, not_or] at hfirst
  rw [get?_cons, if_neg hfirst.1, get?_cons, if_neg hfirst.2.1, get?_cons, if_neg hfirst.2.2]
  rfl

theorem get?_buildJob_target :
    (buildJob naming job).get? "target" = some (.map [(.str "collection", .str job.collection),
      (.str "connection", .str job.connection)]) := by
  rw [get?_buildJob_of_last naming job (by decide) (by decide)]
  rfl

theorem get?_buildJob_embedding :
    (buildJob naming job).get? "embedding" = some (.map [(.str "model", .str job.model)]) := by
  rw [get?_buildJob_of_last naming job (by decide) (by decide)]
  rfl

theorem get?_buildJob_enabled : (buildJob naming job).get? "enabled" = none := by
  rw [get?_buildJob_of_last naming job (by decide) (by decide)]
  rfl

theorem collectionOf_buildJob : collectionOf (buildJob naming job) = some job.collection := by
  simp [collectionOf, textIn, Mapping.getD, get?_buildJob_target]
  rfl

theorem connectionOf_buildJob : connectionOf (buildJob naming job) = some job.connection := by
  simp [connectionOf, textIn, Mapping.getD, get?_buildJob_target]
  rfl

theorem labelOf_buildJob : labelOf (buildJob naming job) = some job.kind.label := by
  simp [labelOf, textIn, Mapping.getD, get?_buildJob_source]
  rfl

theorem modelOf_buildJob (document : Mapping) (h : job.model ≠ "") :
    modelOf document (buildJob naming job) = some job.model := by
  have htext : textIn (buildJob naming job) "embedding" "model" = some job.model := by
    simp [textIn, Mapping.getD, get?_buildJob_embedding]
    rfl
  simp [modelOf, htext, filled, h]

end Entry

/-! ### What the schema reads of an entry -/

theorem readTarget_fields {rt : Runtime} {m : Mapping} {target : TargetSpec}
    (h : readTarget rt (.map m) = .ok target) :
    field m "collection" missing (readPattern isCollection) = .ok target.collection ∧
      field m "connection" missing (readPattern Text.isSlug) = .ok target.connection := by
  simp only [readTarget, readMapping, Checked.also_eq_ok, Checked.both_eq_ok,
    Checked.of_eq_ok] at h
  obtain ⟨⟨_, _, ⟨_, _, ⟨_, _, ⟨_, _, rfl, h1, rfl⟩, h2, rfl⟩, _, rfl⟩, _, rfl⟩, _⟩ := h
  exact ⟨h1, h2⟩

theorem readSource_label {rt : Runtime} {m : Mapping} {source : SourceSpec}
    (h : readSource rt (.map m) = .ok source) :
    field m "label" missing (readPattern Text.isSlug) = .ok source.label := by
  unfold readSource at h
  dsimp only at h
  split at h
  next => cases h
  next =>
    split at h
    next => cases h
    next =>
      rw [Checked.within_eq_ok, Checked.also_eq_ok] at h
      simp only [Checked.both_eq_ok, Checked.of_eq_ok] at h
      obtain ⟨⟨_, _, ⟨_, _, ⟨_, _, rfl, h1, rfl⟩, _, rfl⟩, _, rfl⟩, _⟩ := h
      exact h1

theorem read_of_specOf {rt : Runtime} {defaults entry : Mapping} {spec : JobSpec}
    (h : specOf rt defaults (.map entry) = some spec) :
    readJobSpec rt (effective entry defaults) = .ok spec := by
  rw [specOf, Val.mapping?_map, Option.bind_some] at h
  cases hread : readJobSpec rt (effective entry defaults) with
  | error faults => rw [hread] at h; cases h
  | ok other => rw [hread] at h; rw [Option.some.inj h]

/-- A text of a section that every job has is what its field is read as. -/
theorem eq_of_textIn {job m : Mapping} {name key text found : String} {accepts : String → Bool}
    (hsection : job.get? name = some (.map m)) (htext : textIn job name key = some text)
    (hread : field m key missing (readPattern accepts) = .ok found) : found = text := by
  rw [textIn, Mapping.getD, hsection, Option.getD_some, Val.mapping?_map, Option.bind_some,
    Val.str?_eq_some, Mapping.getD] at htext
  cases hkey : Mapping.get? m key with
  | none => rw [hkey] at htext; cases htext
  | some value =>
      rw [hkey, Option.getD_some] at htext
      rw [field_eq_ok, hkey, htext] at hread
      exact (Option.some.inj (readPattern_eq_ok.1 hread).1).symm

section Parsed

variable {rt : Runtime} {defaults job : Mapping} {spec : JobSpec}

/-- A section without a catalog default that a parsed job has. -/
theorem section_of_specOf {α : Type} {name : String} {read : Val → Checked α} {a : α}
    (hname : name ∉ defaultSections)
    (hfield : field (effective job defaults) name missing read = .ok a) :
    ∃ v, job.get? name = some v ∧ read v = .ok a := by
  rw [field_eq_ok, get?_effective_of_not_section _ _ hname] at hfield
  cases hkey : job.get? name with
  | none => rw [hkey] at hfield; cases hfield
  | some v => rw [hkey] at hfield; exact ⟨v, rfl, hfield⟩

theorem target_of_specOf (h : specOf rt defaults (.map job) = some spec) :
    ∃ m, job.get? "target" = some (.map m) ∧
      field m "collection" missing (readPattern isCollection) = .ok spec.target.collection ∧
      field m "connection" missing (readPattern Text.isSlug) = .ok spec.target.connection := by
  have hread := readJobSpec_eq_ok.1 (read_of_specOf h)
  obtain ⟨v, hkey, htarget⟩ := section_of_specOf (by decide) hread.2.2.2.2.2.1
  cases hv : readMapping v with
  | error faults => rw [readTarget, hv] at htarget; cases htarget
  | ok m =>
      obtain rfl := readMapping_eq_ok.1 hv
      exact ⟨m, hkey, readTarget_fields htarget⟩

theorem source_of_specOf (h : specOf rt defaults (.map job) = some spec) :
    ∃ m, job.get? "source" = some (.map m) ∧
      field m "label" missing (readPattern Text.isSlug) = .ok spec.source.label := by
  have hread := readJobSpec_eq_ok.1 (read_of_specOf h)
  obtain ⟨v, hkey, hsource⟩ := section_of_specOf (by decide) hread.2.2.2.1
  cases v with
  | map m => exact ⟨m, hkey, readSource_label hsource⟩
  | scalar | list | set => cases hsource

theorem collection_eq (h : specOf rt defaults (.map job) = some spec) {text : String}
    (htext : collectionOf job = some text) : spec.target.collection = text := by
  obtain ⟨m, hkey, hcollection, _⟩ := target_of_specOf h
  exact eq_of_textIn hkey htext hcollection

theorem connection_eq (h : specOf rt defaults (.map job) = some spec) {text : String}
    (htext : connectionOf job = some text) : spec.target.connection = text := by
  obtain ⟨m, hkey, _, hconnection⟩ := target_of_specOf h
  exact eq_of_textIn hkey htext hconnection

theorem label_eq (h : specOf rt defaults (.map job) = some spec) {text : String}
    (htext : labelOf job = some text) : spec.source.label = text := by
  obtain ⟨m, hkey, hlabel⟩ := source_of_specOf h
  exact eq_of_textIn hkey htext hlabel

theorem enabled_eq (h : specOf rt defaults (.map job) = some spec) :
    field job "enabled" (.ok true) readBool = .ok spec.enabled := by
  have hread := (readJobSpec_eq_ok.1 (read_of_specOf h)).2.1
  rwa [field_eq_ok, get?_effective_of_not_section _ _ (by decide), ← field_eq_ok] at hread

/-- Whatever spelling switches a job on, the page takes it for switched on. -/
theorem rawEnabled_of_enabled (h : specOf rt defaults (.map job) = some spec)
    (henabled : spec.enabled = true) : rawEnabled job = true := by
  have hread := enabled_eq h
  rw [field_eq_ok, henabled] at hread
  unfold rawEnabled
  split
  next hkey => rw [hkey] at hread; cases hread
  next => rfl

end Parsed

/-- A value the job names stays in the merge, where it is no mapping. -/
theorem merged_value (old : Option Val) {override : Mapping} {key : String} {v : Val}
    (hv : v.mapping? = none) (h : override.get? key = some v) :
    ∃ m : Mapping, mergeValue old (.map override) = .map m ∧ m.get? key = some v := by
  cases hold : old.bind Val.mapping? with
  | none =>
      cases old with
      | none => exact ⟨override, mergeValue_none _, h⟩
      | some v => exact ⟨override, mergeValue_of_old hold, h⟩
  | some base =>
      obtain ⟨found, rfl, hfound⟩ := Option.bind_eq_some_iff.1 hold
      obtain rfl := Val.mapping?_eq_some.1 hfound
      refine ⟨deepMerge base override, mergeValue_map_map base override, ?_⟩
      rw [Mapping.get?] at h
      rw [Mapping.get?, lookup_deepMerge, h]
      exact congrArg some (mergeValue_of_new hv)

section Entry

variable {rt : Runtime} {naming : Naming} {job : ManagedJob} {defaults : Mapping} {spec : JobSpec}

theorem enabled_buildJob (h : specOf rt defaults (.map (buildJob naming job)) = some spec) :
    spec.enabled = true := by
  have hread := enabled_eq h
  rw [field_eq_ok, get?_buildJob_enabled] at hread
  exact (Except.ok.inj hread).symm

/-- The model of a run wins over the one of the catalog defaults. -/
theorem model_buildJob (h : specOf rt defaults (.map (buildJob naming job)) = some spec) :
    spec.embedding.model = some job.model := by
  have hread := (readJobSpec_eq_ok.1 (read_of_specOf h)).2.2.2.2.2.2.2.2.2.2.2.1
  obtain ⟨m, hmerged, hmodel⟩ : ∃ m : Mapping,
      mergeValue (defaults.get? "embedding") (.map [(.str "model", .str job.model)]) = .map m ∧
        m.get? "model" = some (.str job.model) := merged_value _ rfl rfl
  rw [field_eq_ok, get?_effective_of_section _ _ (by decide), get?_buildJob_embedding] at hread
  dsimp only at hread
  rw [hmerged, readEmbedding_eq_ok, field_eq_ok, hmodel] at hread
  obtain ⟨_, text, htext, hspec⟩ := (readNullable_eq_ok.1 hread.1).resolve_left (by simp)
  rw [hspec]
  exact congrArg some (Except.ok.inj htext).symm

theorem modelName_buildJob (h : specOf rt defaults (.map (buildJob naming job)) = some spec) :
    spec.modelName = job.model := by
  rw [JobSpec.modelName, model_buildJob h, Option.getD_some]

/-- What the schema makes of the entry of a run is what the run asked for. -/
theorem spec_buildJob (h : specOf rt defaults (.map (buildJob naming job)) = some spec) :
    spec.enabled = true ∧ spec.target.collection = job.collection ∧
      spec.source.label = job.kind.label ∧ spec.modelName = job.model ∧
      spec.target.connection = job.connection :=
  ⟨enabled_buildJob h, collection_eq h (collectionOf_buildJob naming job),
    label_eq h (labelOf_buildJob naming job), modelName_buildJob h,
    connection_eq h (connectionOf_buildJob naming job)⟩

end Entry

/-! ### The entry in its place -/

theorem placeJob_cons (raw : Val) (jobs : List Val) (jobId : String) (entry : Mapping) :
    placeJob (raw :: jobs) jobId entry =
      if hasId jobId raw then .map entry :: jobs else raw :: placeJob jobs jobId entry := by
  unfold placeJob indexOf
  rw [List.findIdx?_cons]
  cases hasId jobId raw with
  | true => rfl
  | false =>
      cases List.findIdx? (hasId jobId) jobs <;> simp

section Place

variable {jobId : String} {entry : Mapping}

/-- Beside the saved entry stand the entries that were not replaced. -/
theorem eraseP_placeJob (jobs : List Val) (hid : hasId jobId (.map entry) = true) :
    (placeJob jobs jobId entry).eraseP (hasId jobId) = jobs.eraseP (hasId jobId) := by
  induction jobs with
  | nil => simp [placeJob, indexOf, hid]
  | cons raw rest ih =>
      rw [placeJob_cons]
      cases hraw : hasId jobId raw with
      | true => simp [hid, hraw]
      | false => simp [hraw, ih]

theorem find?_placeJob (jobs : List Val) (hid : hasId jobId (.map entry) = true) :
    (placeJob jobs jobId entry).find? (hasId jobId) = some (.map entry) := by
  induction jobs with
  | nil => simp [placeJob, indexOf, hid]
  | cons raw rest ih =>
      rw [placeJob_cons]
      cases hraw : hasId jobId raw with
      | true => simp [hid]
      | false => simp [hraw, ih]

theorem perm_placeJob (jobId : String) (entry : Mapping) (jobs : List Val) :
    (placeJob jobs jobId entry).Perm (.map entry :: jobs.eraseP (hasId jobId)) := by
  induction jobs with
  | nil => simp [placeJob, indexOf]
  | cons raw rest ih =>
      rw [placeJob_cons]
      cases hraw : hasId jobId raw with
      | true => simp [hraw]
      | false =>
          simp only [Bool.false_eq_true, if_false, List.eraseP_cons_of_neg, hraw,
            not_false_eq_true]
          exact (ih.cons raw).trans (List.Perm.swap _ _ _)

end Place

theorem hasId_eq_any (jobId : String) (raw : Val) :
    hasId jobId raw = raw.mapping?.any (isNamed jobId) := by
  cases raw <;> rfl

theorem filterMap_eraseP_hasId (jobs : List Val) (jobId : String) :
    (jobs.filterMap Val.mapping?).eraseP (isNamed jobId) =
      (jobs.eraseP (hasId jobId)).filterMap Val.mapping? := by
  induction jobs with
  | nil => rfl
  | cons raw rest ih =>
      cases hraw : raw.mapping? with
      | none => simp [hasId_eq_any, hraw, ih]
      | some job =>
          cases hnamed : isNamed jobId job <;> simp [hasId_eq_any, hraw, hnamed, ih]

theorem find?_filterMap_hasId (jobs : List Val) (jobId : String) :
    (jobs.filterMap Val.mapping?).find? (isNamed jobId) =
      (jobs.find? (hasId jobId)).bind Val.mapping? := by
  induction jobs with
  | nil => rfl
  | cons raw rest ih =>
      cases hraw : raw.mapping? with
      | none => simp [hasId_eq_any, hraw, ih]
      | some job =>
          cases hnamed : isNamed jobId job <;> simp [hasId_eq_any, hraw, hnamed, ih]

/-- What `upsert` leaves: the entry in its place, and everything else of the document. -/
structure Upserted (document document' entry : Mapping) (jobId : String) (jobs : List Val) :
    Prop where
  jobs_before : jobsOf document = some jobs
  jobs_after : jobsOf document' = some (placeJob jobs jobId entry)
  others : ∀ key, key ≠ "jobs" → document'.getD key = document.getD key

theorem jobsOf_list {document : Mapping} {jobs : List Val}
    (h : document.get? "jobs" = some (.list jobs)) : jobsOf document = some jobs := by
  rw [jobsOf, Mapping.getD, h]
  cases jobs <;> rfl

theorem upserted_of_upsert {document document' entry : Mapping} {jobId : String}
    (h : upsert document entry jobId = some document') :
    ∃ jobs, Upserted document document' entry jobId jobs := by
  unfold upsert at h
  split at h
  next jobs hjobs =>
    obtain rfl := Option.some.inj h
    refine ⟨jobs, jobsOf_list hjobs, jobsOf_list (Mapping.get?_put_self _ _ _), ?_⟩
    intro key hkey
    rw [Mapping.getD, Mapping.get?_put_of_ne _ _ hkey, Mapping.getD]
  next => cases h

section Upserted

variable {document document' entry : Mapping} {jobId : String} {jobs : List Val}

theorem Upserted.version (h : Upserted document document' entry jobId jobs) :
    isVersionOne document' = isVersionOne document := by
  rw [isVersionOne, h.others "version" (by decide), isVersionOne]

theorem Upserted.defaults (h : Upserted document document' entry jobId jobs) :
    defaultsOf document' = defaultsOf document := by
  rw [defaultsOf, h.others "defaults" (by decide), defaultsOf]

theorem Upserted.othersOf (h : Upserted document document' entry jobId jobs)
    (hid : hasId jobId (.map entry) = true) :
    othersOf document' jobId = (jobs.eraseP (hasId jobId)).filterMap Val.mapping? := by
  rw [Ingest.othersOf, mappingsOf, h.jobs_after, Option.getD_some, filterMap_eraseP_hasId,
    eraseP_placeJob jobs hid]

theorem Upserted.mine (h : Upserted document document' entry jobId jobs)
    (hid : hasId jobId (.map entry) = true) :
    (mappingsOf document').find? (isNamed jobId) = some entry := by
  rw [mappingsOf, h.jobs_after, Option.getD_some, find?_filterMap_hasId, find?_placeJob jobs hid]
  rfl

end Upserted

/-! ### What the page reports -/

theorem problemsWith_eq_nil_iff {rt : Runtime} {naming : Naming} {document other : Mapping}
    {job : ManagedJob} (hmodel : job.model ≠ "") :
    problemsWith rt document (buildJob naming job) other = [] ↔
      ¬ClashesInText document job other := by
  unfold problemsWith ClashesInText
  dsimp only
  rw [collectionOf_buildJob, connectionOf_buildJob, labelOf_buildJob,
    modelOf_buildJob naming job document hmodel]
  cases henabled : rawEnabled other with
  | false => simp
  | true =>
      by_cases hcollection : collectionOf other = some job.collection
      · cases hother : modelOf document other with
        | none => simp [hcollection, and_comm]
        | some found =>
            simp [hcollection]
            tauto
      · simp [hcollection]

theorem catalogProblems_eq_nil_iff {rt : Runtime} {naming : Naming} {document : Mapping}
    {job : ManagedJob} {connections : Option (List String)} (hmodel : job.model ≠ "")
    (hmine : (mappingsOf document).find? (isNamed (job.id naming)) =
      some (buildJob naming job)) :
    catalogProblems rt document (job.id naming) connections = [] ↔
      ¬PlainReason naming document job connections := by
  have hknown : unknownConnection rt connections (buildJob naming job) = [] ↔
      ¬∃ known, connections = some known ∧ job.connection ∉ known := by
    unfold unknownConnection
    rw [connectionOf_buildJob]
    cases connections <;> simp
  unfold catalogProblems PlainReason othersOf
  rw [hmine]
  dsimp only
  rw [List.append_eq_nil_iff, hknown, List.flatMap_eq_nil_iff, not_or]
  refine and_congr Iff.rfl ?_
  simp only [problemsWith_eq_nil_iff hmodel, not_exists, not_and]

/-! ### What the schema reports -/

/-- The schema's reasons against two jobs on one collection. -/
def Clashes (job : ManagedJob) (spec : JobSpec) : Prop :=
  spec.source.label = job.kind.label ∨ (spec.modelName ≠ "" ∧ spec.modelName ≠ job.model) ∨
    spec.target.connection ≠ job.connection

theorem servedClean_crossJob_iff (rows : List Row) (ctx : RuleContext) :
    ServedClean (crossJob rows ctx) ↔
      (enabledRows rows).Pairwise labelRule.Agree ∧
        (enabledRows rows).Pairwise modelRule.Agree ∧
        (enabledRows rows).Pairwise connectionRule.Agree := by
  rw [← labelRule.scan_eq_nil_iff labelRule_coherent, ← modelRule.scan_eq_nil_iff modelRule_coherent,
    ← connectionRule.scan_eq_nil_iff connectionRule_coherent]
  simp only [ServedClean, crossJob, List.mem_append, mem_servingIssues,
    List.eq_nil_iff_forall_not_mem]
  constructor
  · intro h
    refine ⟨fun issue hmem => h issue (.inl (.inr hmem)) ?_,
      fun issue hmem => h issue (.inr (.inl hmem)) ?_,
      fun issue hmem => h issue (.inr (.inr hmem)) ?_⟩
    · obtain ⟨_, _, rfl⟩ := labelRule.exists_report_of_mem_scan hmem
      simp [labelRule, servedFields]
    · obtain ⟨_, _, rfl⟩ := modelRule.exists_report_of_mem_scan hmem
      simp [modelRule, servedFields]
    · obtain ⟨_, _, rfl⟩ := connectionRule.exists_report_of_mem_scan hmem
      simp [connectionRule, servedFields]
  · rintro ⟨hlabel, hmodel, hconnection⟩ issue
      (((hmem | hmem) | hmem) | (hmem | hmem))
    · obtain ⟨_, _, rfl⟩ := idRule.exists_report_of_mem_scan hmem
      simp [idRule, servedFields]
    · obtain ⟨row, _, hrow⟩ := List.mem_filterMap.1 hmem
      unfold systemIssue at hrow
      split at hrow
      · obtain rfl := Option.some.inj hrow
        simp [servedFields]
      · cases hrow
    · exact absurd hmem (hlabel issue)
    · exact absurd hmem (hmodel issue)
    · exact absurd hmem (hconnection issue)

/-- A rule that treats two jobs alike: over jobs that agree, the saved entry spoils nothing exactly
when it agrees with every entry beside it, wherever it stands. -/
theorem rule_after_upsert {κ : Type} [DecidableEq κ] (r : Rule Row κ Issue)
    (symm : ∀ a b, r.clash a b = r.clash b a) {rt : Runtime} {defaults entry : Mapping}
    {jobs : List Val} {jobId : String}
    (clean : (enabledRows (rowsOf rt defaults jobs)).Pairwise r.Agree) :
    (enabledRows (rowsOf rt defaults (placeJob jobs jobId entry))).Pairwise r.Agree ↔
      ∀ spec, specOf rt defaults (.map entry) = some spec → spec.enabled = true →
        ∀ other ∈ enabledRows (rowsOf rt defaults (jobs.eraseP (hasId jobId))),
          r.Agree (spec.id, spec) other := by
  have hrows := ((perm_placeJob jobId entry jobs).filterMap
    (rowOf rt defaults)).filter fun row => row.2.enabled
  have hkept : (enabledRows (rowsOf rt defaults (jobs.eraseP (hasId jobId)))).Pairwise r.Agree :=
    clean.sublist ((List.eraseP_sublist.filterMap _).filter _)
  rw [enabledRows, rowsOf, hrows.pairwise_iff (r.agree_symm symm)]
  cases hspec : specOf rt defaults (.map entry) with
  | none =>
      rw [List.filterMap_cons_none (by rw [rowOf, hspec, Option.map_none])]
      exact iff_of_true hkept fun found hfound => by cases hfound
  | some spec =>
      rw [List.filterMap_cons_some (by rw [rowOf, hspec, Option.map_some]), List.filter_cons]
      by_cases henabled : spec.enabled = true
      · rw [if_pos henabled, List.pairwise_cons]
        constructor
        · rintro ⟨hagree, _⟩ found hfound _ other hother
          obtain rfl := Option.some.inj hfound
          exact hagree other hother
        · exact fun h => ⟨h spec rfl henabled, hkept⟩
      · rw [if_neg henabled]
        refine iff_of_true hkept ?_
        intro found hfound hon
        obtain rfl := Option.some.inj hfound
        exact absurd hon henabled

/-- The three rules together, for an entry of a run and another job. -/
theorem agree_iff {job : ManagedJob} {mine other : JobSpec}
    (hcollection : mine.target.collection = job.collection)
    (hlabel : mine.source.label = job.kind.label) (hmodel : mine.modelName = job.model)
    (hconnection : mine.target.connection = job.connection) (hfilled : job.model ≠ "") :
    (labelRule.Agree (mine.id, mine) (other.id, other) ∧
      modelRule.Agree (mine.id, mine) (other.id, other) ∧
      connectionRule.Agree (mine.id, mine) (other.id, other)) ↔
      (other.target.collection = job.collection → ¬Clashes job other) := by
  have hmodelAgree : modelRule.Agree (mine.id, mine) (other.id, other) ↔
      (other.target.collection = job.collection →
        ¬(other.modelName ≠ "" ∧ other.modelName ≠ job.model)) := by
    by_cases hnone : other.modelName = ""
    · simp [Rule.Agree, modelRule, hnone]
    · rw [modelRule_agree (hmodel ▸ hfilled) hnone, hcollection, hmodel]
      simp [hnone]
  rw [labelRule_agree, hmodelAgree, connectionRule_agree, hcollection, hlabel, hconnection, Clashes]
  tauto

/-- The jobs beside an entry, as the check of the whole catalog sees them. -/
theorem forall_enabledRows_iff {rt : Runtime} {defaults : Mapping} {jobs : List Val}
    {P : Row → Prop} :
    (∀ row ∈ enabledRows (rowsOf rt defaults jobs), P row) ↔
      ∀ other ∈ jobs.filterMap Val.mapping?, ∀ spec, specOf rt defaults (.map other) = some spec →
        spec.enabled = true → P (spec.id, spec) := by
  constructor
  · intro h other hother spec hspec henabled
    obtain ⟨raw, hraw, hmapping⟩ := List.mem_filterMap.1 hother
    obtain rfl := Val.mapping?_eq_some.1 hmapping
    exact h _ (mem_enabledRows.2 ⟨_, hraw, spec, hspec, henabled, rfl⟩)
  · intro h row hrow
    obtain ⟨raw, hraw, spec, hspec, henabled, rfl⟩ := mem_enabledRows.1 hrow
    obtain ⟨other, hother, _⟩ := Option.bind_eq_some_iff.1 hspec
    obtain rfl := Val.mapping?_eq_some.1 hother
    exact h other (List.mem_filterMap.2 ⟨_, hraw, rfl⟩) spec hspec henabled

/-- What the check of the whole catalog says about the catalog with the entry in. -/
theorem servedClean_upsert_iff {rt : Runtime} {naming : Naming} {ctx : RuleContext}
    {document document' : Mapping} {job : ManagedJob} {jobs : List Val} (hmodel : job.model ≠ "")
    (clean : ServedClean (crossIssues rt document ctx))
    (h : Upserted document document' (buildJob naming job) (job.id naming) jobs) :
    ServedClean (crossIssues rt document' ctx) ↔
      ((parsedIn rt document' (buildJob naming job)).isSome →
        ∀ other ∈ othersOf document' (job.id naming), ∀ spec,
          parsedIn rt document' other = some spec → spec.enabled = true →
            spec.target.collection = job.collection → ¬Clashes job spec) := by
  have hid : hasId (job.id naming) (.map (buildJob naming job)) = true :=
    hasId_iff.2 ⟨_, rfl, get?_buildJob_id naming job⟩
  rw [h.othersOf hid]
  unfold crossIssues at clean ⊢
  unfold parsedIn
  rw [h.version, h.defaults, h.jobs_after]
  rw [h.jobs_before] at clean
  cases hversion : isVersionOne document with
  | false => exact iff_of_true (fun _ hissue => by cases hissue) (fun hsome => by cases hsome)
  | true =>
      cases hdefaults : defaultsOf document with
      | none => exact iff_of_true (fun _ hissue => by cases hissue) (fun hsome => by cases hsome)
      | some defaults =>
          simp only [hversion, hdefaults, if_true] at clean
          simp only [if_true, Option.bind_some]
          rw [servedClean_crossJob_iff] at clean ⊢
          rw [rule_after_upsert labelRule (fun _ _ => rfl) clean.1,
            rule_after_upsert modelRule (fun _ _ => bne_comm) clean.2.1,
            rule_after_upsert connectionRule (fun _ _ => bne_comm) clean.2.2]
          constructor
          · rintro ⟨hlabel, hmodels, hconnection⟩ hsome
            obtain ⟨mine, hmine⟩ := Option.isSome_iff_exists.1 hsome
            obtain ⟨hon, h1, h2, h3, h4⟩ := spec_buildJob hmine
            intro other hother spec hspec henabled
            exact (agree_iff h1 h2 h3 h4 hmodel).1
              ⟨forall_enabledRows_iff.1 (hlabel mine hmine hon) other hother spec hspec henabled,
                forall_enabledRows_iff.1 (hmodels mine hmine hon) other hother spec hspec henabled,
                forall_enabledRows_iff.1 (hconnection mine hmine hon) other hother spec hspec
                  henabled⟩
          · intro hquiet
            have hagree : ∀ mine, specOf rt defaults (.map (buildJob naming job)) = some mine →
                ∀ row ∈ enabledRows (rowsOf rt defaults (jobs.eraseP (hasId (job.id naming)))),
                  labelRule.Agree (mine.id, mine) row ∧ modelRule.Agree (mine.id, mine) row ∧
                    connectionRule.Agree (mine.id, mine) row := by
              intro mine hmine
              obtain ⟨_, h1, h2, h3, h4⟩ := spec_buildJob hmine
              rw [forall_enabledRows_iff]
              intro other hother spec hspec henabled
              exact (agree_iff h1 h2 h3 h4 hmodel).2
                (hquiet (by rw [hmine]; rfl) other hother spec hspec henabled)
            exact ⟨fun mine hmine _ row hrow => (hagree mine hmine row hrow).1,
              fun mine hmine _ row hrow => (hagree mine hmine row hrow).2.1,
              fun mine hmine _ row hrow => (hagree mine hmine row hrow).2.2⟩

/-! ### The two checks -/

/-- A clash the schema reports is one the page sees, unless it is hidden. -/
theorem clashesInText_of_clashes {rt : Runtime} {document other : Mapping} {job : ManagedJob}
    {spec : JobSpec} (hspec : parsedIn rt document other = some spec)
    (henabled : spec.enabled = true) (hcollection : spec.target.collection = job.collection)
    (hclash : Clashes job spec) (hhides : ¬Hides rt document job other) :
    ClashesInText document job other := by
  have hparsed : ∃ defaults, specOf rt defaults (.map other) = some spec := by
    unfold parsedIn at hspec
    split at hspec
    · obtain ⟨defaults, _, hread⟩ := Option.bind_eq_some_iff.1 hspec
      exact ⟨defaults, hread⟩
    · cases hspec
  obtain ⟨defaults, hread⟩ := hparsed
  have htext : collectionOf other ≠ none := by
    intro hnone
    refine hhides ⟨spec, hspec, henabled, hcollection, ?_⟩
    rcases hclash with hlabel | ⟨hfilled, hmodel⟩ | hconnection
    · exact .inl ⟨hlabel, .inl hnone⟩
    · exact .inr (.inl ⟨hfilled, hmodel, .inl hnone⟩)
    · exact .inr (.inr ⟨hconnection, hnone⟩)
  obtain ⟨text, hcol⟩ := Option.ne_none_iff_exists'.1 htext
  have hsame : text = job.collection := by rw [← collection_eq hread hcol, hcollection]
  refine ⟨rawEnabled_of_enabled hread henabled, hsame ▸ hcol, ?_⟩
  rcases hclash with hlabel | ⟨hfilled, hmodel⟩ | hconnection
  · cases hown : labelOf other with
    | none =>
        exact absurd ⟨spec, hspec, henabled, hcollection, .inl ⟨hlabel, .inr hown⟩⟩ hhides
    | some found => exact .inl (by rw [← label_eq hread hown, hlabel])
  · by_cases hown : modelOf document other = some spec.modelName
    · exact .inr (.inl ⟨_, hown, hmodel⟩)
    · exact absurd ⟨spec, hspec, henabled, hcollection, .inr (.inl ⟨hfilled, hmodel, .inr hown⟩)⟩
        hhides
  · refine .inr (.inr fun hown => hconnection ?_)
    exact connection_eq hread hown

/-- `catalog_problems` against `check_catalog`.  For a catalog without a clash and the entry of a
run in it: whenever the page has nothing to say the schema has nothing to say about labels, models
and connections, exactly when the page has a reason in plain texts wherever a clash is hidden. -/
theorem page_as_strict_as_schema_iff (rt : Runtime) (naming : Naming) (ctx : RuleContext)
    (document document' : Mapping) (job : ManagedJob) (connections : Option (List String))
    (hmodel : job.model ≠ "") (clean : ServedClean (checkCatalog rt document ctx))
    (hplace : upsert document (buildJob naming job) (job.id naming) = some document') :
    (catalogProblems rt document' (job.id naming) connections = [] →
        ServedClean (crossIssues rt document' ctx)) ↔
      (HiddenClash rt naming document' job → PlainReason naming document' job connections) := by
  obtain ⟨jobs, hup⟩ := upserted_of_upsert hplace
  have hid : hasId (job.id naming) (.map (buildJob naming job)) = true :=
    hasId_iff.2 ⟨_, rfl, get?_buildJob_id naming job⟩
  have hcross : ServedClean (crossIssues rt document ctx) := by
    obtain ⟨own, happend⟩ := checkCatalog_eq_append rt document ctx
    intro issue hissue
    exact clean issue (by rw [happend]; exact List.mem_append_right _ hissue)
  rw [catalogProblems_eq_nil_iff hmodel (hup.mine hid), servedClean_upsert_iff hmodel hcross hup]
  constructor
  · rintro hstrict ⟨hparses, other, hother, spec, hspec, henabled, hcollection, hclash⟩
    by_contra hreason
    refine hstrict hreason hparses other hother spec hspec henabled hcollection ?_
    rcases hclash with ⟨hlabel, _⟩ | ⟨hfilled, hdiffers, _⟩ | ⟨hconnection, _⟩
    · exact .inl hlabel
    · exact .inr (.inl ⟨hfilled, hdiffers⟩)
    · exact .inr (.inr hconnection)
  · intro hcovered hreason hparses other hother spec hspec henabled hcollection hclash
    by_cases hhides : Hides rt document' job other
    · exact hreason (hcovered ⟨hparses, other, hother, hhides⟩)
    · exact hreason (.inr ⟨other, hother,
        clashesInText_of_clashes hspec henabled hcollection hclash hhides⟩)

/-! ### A label of bytes -/

/-- Ids without a hash. -/
def plainNaming : Naming where
  lower := Text.lower
  digest _ := "0123456789abcdef"

def uploadJob (model : String) : ManagedJob where
  kind := .upload
  connection := "main"
  collection := "docs"
  model := model
  sourcePath := "/data/local/upload"
  includes := none

/-- A job of an operator, whose label is authored as any value. -/
def labelledJob (label : Val) : Mapping :=
  [(.str "id", .str "notes"),
    (.str "source", .map [(.str "type", .str "local"), (.str "label", label),
      (.str "path", .str "/data/local/notes")]),
    (.str "target", .map [(.str "collection", .str "docs"), (.str "connection", .str "main")]),
    (.str "mode", .str "full"),
    (.str "embedding", .map [(.str "model", .str "bge-m3")])]

/-- `label: !!binary bWFuYWdlci11cGxvYWQ=` is the label of the uploads for the schema, and no label
for the page. -/
theorem label_of_bytes_is_not_seen :
    ¬ ∀ (rt : Runtime) (naming : Naming) (ctx : RuleContext) (document document' : Mapping)
      (job : ManagedJob) (connections : Option (List String)),
      job.model ≠ "" → ServedClean (checkCatalog rt document ctx) →
      upsert document (buildJob naming job) (job.id naming) = some document' →
      catalogProblems rt document' (job.id naming) connections = [] →
      ServedClean (crossIssues rt document' ctx) := by
  intro h
  have hclean := h plainRuntime plainNaming {}
    (folderCatalog [labelledJob (.bytes (asciiBytes "manager-upload"))])
    (folderCatalog [labelledJob (.bytes (asciiBytes "manager-upload")),
      buildJob plainNaming (uploadJob "bge-m3")])
    (uploadJob "bge-m3") none (by decide) (by decide +kernel) rfl (by decide +kernel)
  revert hclean
  decide +kernel

/-- A second job of the collection with a label of its own is fine with both checks. -/
theorem label_of_text_is_compared :
    ServedClean (crossIssues plainRuntime
      (folderCatalog [labelledJob (.str "notes"), buildJob plainNaming (uploadJob "bge-m3")])
      {}) :=
  (page_as_strict_as_schema_iff plainRuntime plainNaming {}
    (folderCatalog [labelledJob (.str "notes")])
    (folderCatalog [labelledJob (.str "notes"), buildJob plainNaming (uploadJob "bge-m3")])
    (uploadJob "bge-m3") none (by decide) (by decide +kernel) rfl).2 (by
      rintro ⟨_, other, hother, spec, hspec, _, _, hclash⟩
      obtain rfl : other = labelledJob (.str "notes") := List.mem_singleton.1 hother
      rcases hclash with ⟨_, hnone | hnone⟩ | ⟨_, hdiffers, _⟩ | ⟨_, hnone⟩
      · cases hnone
      · cases hnone
      · have hmodel : (parsedIn plainRuntime
            (folderCatalog [labelledJob (.str "notes"), buildJob plainNaming (uploadJob "bge-m3")])
            (labelledJob (.str "notes"))).map JobSpec.modelName = some "bge-m3" := by
          decide +kernel
        rw [hspec] at hmodel
        exact absurd (Option.some.inj hmodel) hdiffers
      · cases hnone) (by decide)

end Papaia.Ingest
