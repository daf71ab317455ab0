/-
Module: Papaia.Proofs.Reading
Purpose: The readings of the schema taken apart: a mapping reads as a section, a source or a job
  exactly when each of its fields does and it has no other key.
Trusted boundary: none
Main exports: field_eq_ok, readFilters_eq_ok, readSchedule_eq_ok, readChunking_eq_ok,
  readEmbedding_eq_ok, readSafety_eq_ok, readJobSpec_eq_ok
-/
import Papaia.Ingest.JobSpec

namespace Papaia.Ingest

/-- What a field holds: the reading of the value under its key, or of its absence. -/
theorem field_eq_ok {α : Type} {m : Mapping} {key : String} {absent : Checked α}
    {read : Val → Checked α} {a : α} :
    field m key absent read = .ok a ↔
      match m.get? key with
      | some v => read v = .ok a
      | none => absent = .ok a := by
  unfold field
  cases m.get? key <;> simp

theorem readPattern_eq_ok {accepts : String → Bool} {v : Val} {text : String} :
    readPattern accepts v = .ok text ↔ laxText v = some text ∧ accepts text = true := by
  unfold readPattern readStr
  cases laxText v with
  | none => simp
  | some found =>
      by_cases h : accepts found = true
      · simp only [h, if_true, Except.ok.injEq, Option.some.injEq]
        exact ⟨fun heq => ⟨heq, heq ▸ h⟩, fun heq => heq.1⟩
      · simp only [h, Bool.false_eq_true, if_false, Option.some.injEq]
        refine iff_of_false (by simp) ?_
        rintro ⟨rfl, haccepts⟩
        exact h haccepts

theorem readStrList_texts (texts : List String) :
    readStrList (.list (texts.map .str)) = .ok texts := by
  rw [readStrList, Checked.each_eq_ok]
  induction texts with
  | nil => exact .nil
  | cons text rest ih => exact .cons rfl ih

/-! ### Sections -/

theorem readMapping_eq_ok {v : Val} {m : Mapping} : readMapping v = .ok m ↔ v = .map m := by
  cases v <;> simp [readMapping]

theorem readFilters_eq_ok {rt : Runtime} {m : Mapping} {spec : FiltersSpec} :
    readFilters rt (.map m) = .ok spec ↔
      field m "include" (.ok []) readStrList = .ok spec.includes ∧
      field m "exclude" (.ok []) readStrList = .ok spec.exclude ∧
      field m "max_file_bytes" (.ok none) (readNullable (readBounded rt 1 none)) =
        .ok spec.maxFileBytes ∧
      noExtras rt ["include", "exclude", "max_file_bytes"] m = .ok () := by
  simp only [readFilters, readMapping, Checked.also_eq_ok, Checked.both_eq_ok, Checked.of_eq_ok]
  constructor
  · rintro ⟨⟨_, _, ⟨_, _, ⟨_, _, rfl, h1, rfl⟩, h2, rfl⟩, h3, rfl⟩, hextra⟩
    exact ⟨h1, h2, h3, hextra⟩
  · rintro ⟨h1, h2, h3, hextra⟩
    exact ⟨⟨_, _, ⟨_, _, ⟨_, _, rfl, h1, rfl⟩, h2, rfl⟩, h3, rfl⟩, hextra⟩

/-- The rule of a schedule: one of the two keys at most, and an interval that is one. -/
theorem ScheduleSpec.check_eq_ok {spec spec' : ScheduleSpec} :
    spec.check = .ok spec' ↔
      spec = spec' ∧ (spec.cron = none ∨ spec.every = none) ∧ spec.every.bind everyError = none := by
  unfold ScheduleSpec.check
  cases hcron : spec.cron with
  | none => cases hevery : spec.every.bind everyError <;> simp
  | some cron =>
      cases hev : spec.every with
      | none => simp
      | some every => simp

theorem readSchedule_eq_ok {rt : Runtime} {m : Mapping} {spec : ScheduleSpec} :
    readSchedule rt (.map m) = .ok spec ↔
      field m "cron" (.ok none) (readNullable readStr) = .ok spec.cron ∧
      field m "every" (.ok none) (readNullable readStr) = .ok spec.every ∧
      field m "timezone" (.ok none) (readNullable readStr) = .ok spec.timezone ∧
      field m "jitter_seconds" (.ok 30) (readBounded rt 0 none) = .ok spec.jitterSeconds ∧
      field m "misfire_grace_seconds" (.ok 300) (readBounded rt 0 none) =
        .ok spec.misfireGraceSeconds ∧
      field m "run_on_startup" (.ok .ifMissed) (readChoice RunOnStartup.table) =
        .ok spec.runOnStartup ∧
      noExtras rt ["cron", "every", "timezone", "jitter_seconds", "misfire_grace_seconds",
        "run_on_startup"] m = .ok () ∧
      (spec.cron = none ∨ spec.every = none) ∧ spec.every.bind everyError = none := by
  simp only [readSchedule, readMapping]
  constructor
  · intro h
    split at h
    next => cases h
    next found hfound =>
      rw [ScheduleSpec.check_eq_ok] at h
      obtain ⟨rfl, hone, hevery⟩ := h
      simp only [Checked.also_eq_ok, Checked.both_eq_ok, Checked.of_eq_ok] at hfound
      obtain ⟨⟨_, _, ⟨_, _, ⟨_, _, ⟨_, _, ⟨_, _, ⟨_, _, rfl, h1, rfl⟩, h2, rfl⟩, h3, rfl⟩, h4, rfl⟩,
        h5, rfl⟩, h6, rfl⟩, hextra⟩ := hfound
      exact ⟨h1, h2, h3, h4, h5, h6, hextra, hone, hevery⟩
  · rintro ⟨h1, h2, h3, h4, h5, h6, hextra, hone, hevery⟩
    rw [h1, h2, h3, h4, h5, h6, hextra]
    exact ScheduleSpec.check_eq_ok.mpr ⟨rfl, hone, hevery⟩

/-- The rule of the chunks: the overlap is the smaller number. -/
theorem ChunkingSpec.check_eq_ok {spec spec' : ChunkingSpec} :
    spec.check = .ok spec' ↔ spec = spec' ∧ spec.overlap < spec.words := by
  unfold ChunkingSpec.check
  by_cases h : spec.overlap ≥ spec.words
  · have hnot : ¬spec.overlap < spec.words := by omega
    simp [h, hnot]
  · have hlt : spec.overlap < spec.words := by omega
    simp [h, hlt]

theorem readChunking_eq_ok {rt : Runtime} {m : Mapping} {spec : ChunkingSpec} :
    readChunking rt (.map m) = .ok spec ↔
      field m "strategy" (.ok .auto) (readChoice ChunkStrategy.table) = .ok spec.strategy ∧
      field m "words" (.ok 400) (readBounded rt 1 none) = .ok spec.words ∧
      field m "overlap" (.ok 50) (readBounded rt 0 none) = .ok spec.overlap ∧
      noExtras rt ["strategy", "words", "overlap"] m = .ok () ∧ spec.overlap < spec.words := by
  simp only [readChunking, readMapping]
  constructor
  · intro h
    split at h
    next => cases h
    next found hfound =>
      rw [ChunkingSpec.check_eq_ok] at h
      obtain ⟨rfl, hbelow⟩ := h
      simp only [Checked.also_eq_ok, Checked.both_eq_ok, Checked.of_eq_ok] at hfound
      obtain ⟨⟨_, _, ⟨_, _, ⟨_, _, rfl, h1, rfl⟩, h2, rfl⟩, h3, rfl⟩, hextra⟩ := hfound
      exact ⟨h1, h2, h3, hextra, hbelow⟩
  · rintro ⟨h1, h2, h3, hextra, hbelow⟩
    rw [h1, h2, h3, hextra]
    exact ChunkingSpec.check_eq_ok.mpr ⟨rfl, hbelow⟩

theorem readEmbedding_eq_ok {rt : Runtime} {m : Mapping} {spec : EmbeddingSpec} :
    readEmbedding rt (.map m) = .ok spec ↔
      field m "model" (.ok none) (readNullable readStr) = .ok spec.model ∧
      field m "batch_size" (.ok none) (readNullable (readBounded rt 1 none)) =
        .ok spec.batchSize ∧
      noExtras rt ["model", "batch_size"] m = .ok () := by
  simp only [readEmbedding, readMapping, Checked.also_eq_ok, Checked.both_eq_ok, Checked.of_eq_ok]
  constructor
  · rintro ⟨⟨_, _, ⟨_, _, rfl, h1, rfl⟩, h2, rfl⟩, hextra⟩
    exact ⟨h1, h2, hextra⟩
  · rintro ⟨h1, h2, hextra⟩
    exact ⟨⟨_, _, ⟨_, _, rfl, h1, rfl⟩, h2, rfl⟩, hextra⟩

theorem readSafety_eq_ok {rt : Runtime} {m : Mapping} {spec : SafetySpec} :
    readSafety rt (.map m) = .ok spec ↔
      field m "max_delete_ratio" (.ok (.finite (1 / 4))) (readRatio rt) =
        .ok spec.maxDeleteRatio ∧
      field m "empty_source_guard" (.ok true) readBool = .ok spec.emptySourceGuard ∧
      noExtras rt ["max_delete_ratio", "empty_source_guard"] m = .ok () := by
  simp only [readSafety, readMapping, Checked.also_eq_ok, Checked.both_eq_ok, Checked.of_eq_ok]
  constructor
  · rintro ⟨⟨_, _, ⟨_, _, rfl, h1, rfl⟩, h2, rfl⟩, hextra⟩
    exact ⟨h1, h2, hextra⟩
  · rintro ⟨h1, h2, hextra⟩
    exact ⟨⟨_, _, ⟨_, _, rfl, h1, rfl⟩, h2, rfl⟩, hextra⟩

/-! ### Jobs -/

/-- A job reads exactly when its fields do. -/
theorem readJobSpec_eq_ok {rt : Runtime} {m : Mapping} {spec : JobSpec} :
    readJobSpec rt m = .ok spec ↔
      field m "id" missing (readPattern Text.isSlug) = .ok spec.id ∧
      field m "enabled" (.ok true) readBool = .ok spec.enabled ∧
      field m "description" (.ok "") readStr = .ok spec.description ∧
      field m "source" missing (readSource rt) = .ok spec.source ∧
      field m "filters" (.ok {}) (readFilters rt) = .ok spec.filters ∧
      field m "target" missing (readTarget rt) = .ok spec.target ∧
      field m "mode" missing (readChoice Mode.table) = .ok spec.mode ∧
      field m "full_scope" (.ok .job) (readChoice FullScope.table) = .ok spec.fullScope ∧
      field m "append_probe" (.ok .auto) (readChoice AppendProbe.table) = .ok spec.appendProbe ∧
      field m "schedule" (.ok {}) (readSchedule rt) = .ok spec.schedule ∧
      field m "chunking" (.ok {}) (readChunking rt) = .ok spec.chunking ∧
      field m "embedding" (.ok {}) (readEmbedding rt) = .ok spec.embedding ∧
      field m "safety" (.ok {}) (readSafety rt) = .ok spec.safety ∧
      field m "mcp_allow_full" (.ok false) readBool = .ok spec.mcpAllowFull ∧
      field m "expand_embedded" (.ok false) readBool = .ok spec.expandEmbedded ∧
      field m "source_template" (.ok defaultTemplate) readTemplate = .ok spec.sourceTemplate ∧
      noExtras rt jobKeys m = .ok () := by
  unfold readJobSpec
  simp only [Checked.also_eq_ok, Checked.both_eq_ok, Checked.of_eq_ok]
  constructor
  · rintro ⟨⟨_, _, ⟨_, _, ⟨_, _, ⟨_, _, ⟨_, _, ⟨_, _, ⟨_, _, ⟨_, _, ⟨_, _, ⟨_, _, ⟨_, _, ⟨_, _,
      ⟨_, _, ⟨_, _, ⟨_, _, ⟨_, _, rfl, h1, rfl⟩, h2, rfl⟩, h3, rfl⟩, h4, rfl⟩, h5, rfl⟩, h6, rfl⟩,
      h7, rfl⟩, h8, rfl⟩, h9, rfl⟩, h10, rfl⟩, h11, rfl⟩, h12, rfl⟩, h13, rfl⟩, h14, rfl⟩, h15,
      rfl⟩, h16, rfl⟩, hextra⟩
    exact ⟨h1, h2, h3, h4, h5, h6, h7, h8, h9, h10, h11, h12, h13, h14, h15, h16, hextra⟩
  · rintro ⟨h1, h2, h3, h4, h5, h6, h7, h8, h9, h10, h11, h12, h13, h14, h15, h16, hextra⟩
    exact ⟨⟨_, _, ⟨_, _, ⟨_, _, ⟨_, _, ⟨_, _, ⟨_, _, ⟨_, _, ⟨_, _, ⟨_, _, ⟨_, _, ⟨_, _, ⟨_, _,
      ⟨_, _, ⟨_, _, ⟨_, _, ⟨_, _, rfl, h1, rfl⟩, h2, rfl⟩, h3, rfl⟩, h4, rfl⟩, h5, rfl⟩, h6, rfl⟩,
      h7, rfl⟩, h8, rfl⟩, h9, rfl⟩, h10, rfl⟩, h11, rfl⟩, h12, rfl⟩, h13, rfl⟩, h14, rfl⟩, h15,
      rfl⟩, h16, rfl⟩, hextra⟩

end Papaia.Ingest
