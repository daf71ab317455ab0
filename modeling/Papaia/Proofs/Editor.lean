/-
Module: Papaia.Proofs.Editor
Purpose: What the editor shows against what the saved job does: for which states the job that is
  read back has every value of the state, whatever the catalog has as its defaults.
Trusted boundary: Runtime.Plain (the texts of Python's values, pydantic's reading of an empty text)
Main exports: Shown, LeavesNothingOpen, shown_iff_nothing_open
-/
import Papaia.Lib.Paired
import Papaia.Ingest.JobForms
import Papaia.Proofs.Minimise
import Papaia.Proofs.Schedules

namespace Papaia.Ingest

open Text

/-! ### The conversion, part by part -/

/-- The parts of an entry that was made without a problem. -/
structure Converted (rt : FormRuntime) (state defaults entry : Mapping) where
  source : Mapping
  extra : Mapping
  filters : Mapping
  schedule : Mapping
  chunking : Mapping
  embedding : Mapping
  source_eq : sourceFrom rt.toRuntime state = some source
  extra_eq : payloadFrom rt (state.getD "id").str?
    ((mappingAt state "target").getD "extra_payload") = some (extra, [])
  filters_eq : filtersFrom rt.toRuntime state = some filters
  schedule_eq : scheduleFrom rt (state.getD "id").str? state = (schedule, [])
  chunking_eq : chunkingFrom rt.toRuntime state = some chunking
  embedding_eq : embeddingFrom rt.toRuntime state = some embedding
  written : Minimised rt.toRuntime
    (flatJob rt state source extra filters schedule chunking embedding) defaults entry

theorem converted_of_authored {rt : FormRuntime} {state defaults entry : Mapping}
    (h : authored rt state defaults = some (entry, [])) :
    Nonempty (Converted rt state defaults entry) := by
  simp only [authored, Option.bind_eq_bind, Option.bind_eq_some_iff, Option.pure_def,
    Option.some.injEq, Prod.mk.injEq, List.append_eq_nil_iff] at h
  obtain ⟨source, hsource, ⟨extra, payloadIssues⟩, hextra, filters, hfilters, chunking, hchunking,
    embedding, hembedding, _, hentry, rfl, rfl, hschedule⟩ := h
  exact ⟨{
    source := source
    extra := extra
    filters := filters
    schedule := (scheduleFrom rt (state.getD "id").str? state).1
    chunking := chunking
    embedding := embedding
    source_eq := hsource
    extra_eq := hextra
    filters_eq := hfilters
    schedule_eq := Prod.ext rfl hschedule
    chunking_eq := hchunking
    embedding_eq := hembedding
    written := minimised_of_minimise hentry }⟩

/-! ### What the editor shows, and what the job does -/

/-- The model the editor shows; a blank one is none. -/
def modelText (rt : Runtime) (state : Mapping) : String :=
  strip (rt.textOr "" ((mappingAt state "embedding").getD "model"))

/-- A control nobody filled in. -/
def isBlankValue : Val → Bool
  | .null => true
  | .str text => isBlank text
  | _ => false

/-- The job has what the state says: the trigger its plan compiles to, and under every other key
what the schema makes of the value that stands there. -/
structure Shown (rt : FormRuntime) (state : Mapping) (spec : JobSpec) : Prop where
  trigger : ∃ raw plan compiled, state.get? "schedule" = some (.map raw) ∧
    planFrom rt raw = .ok plan ∧ compilePlan rt.toRuntime plan = .ok compiled ∧
    spec.schedule.cron = compiled.cron ∧ spec.schedule.every = compiled.every
  includes : spec.filters.includes =
    linesOf rt.toRuntime ((mappingAt state "filters").getD "include")
  exclude : spec.filters.exclude =
    linesOf rt.toRuntime ((mappingAt state "filters").getD "exclude")
  maxFileBytes : ∃ v,
    intOrNone rt.toRuntime ((mappingAt state "filters").getD "max_file_bytes") = some v ∧
    readNullable (readBounded rt.toRuntime 1 none) v = .ok spec.filters.maxFileBytes
  strategy : readChoice ChunkStrategy.table ((mappingAt state "chunking").getD "strategy") =
    .ok spec.chunking.strategy
  words : ∃ v, intOrNone rt.toRuntime ((mappingAt state "chunking").getD "words") = some v ∧
    readBounded rt.toRuntime 1 none v = .ok spec.chunking.words
  overlap : ∃ v, intOrNone rt.toRuntime ((mappingAt state "chunking").getD "overlap") = some v ∧
    readBounded rt.toRuntime 0 none v = .ok spec.chunking.overlap
  maxDeleteRatio :
    readRatio rt.toRuntime (numberOrNone rt ((mappingAt state "safety").getD "max_delete_ratio")) =
      .ok spec.safety.maxDeleteRatio
  emptySourceGuard : readBool ((mappingAt state "safety").getD "empty_source_guard") =
    .ok spec.safety.emptySourceGuard
  model : spec.embedding.model.getD "" = modelText rt.toRuntime state
  mode : readChoice Mode.table (state.getD "mode") = .ok spec.mode
  fullScope : readChoice FullScope.table (state.getD "full_scope") = .ok spec.fullScope
  appendProbe : readChoice AppendProbe.table (state.getD "append_probe") = .ok spec.appendProbe
  enabled : field state "enabled" (.ok true) readBool = .ok spec.enabled
  mcpAllowFull : field state "mcp_allow_full" (.ok false) readBool = .ok spec.mcpAllowFull
  expandEmbedded : field state "expand_embedded" (.ok false) readBool = .ok spec.expandEmbedded

/-- The state leaves nothing to the catalog.  Its plan runs, or the catalog has no trigger; it names
a model, or the catalog has none; no control is blank that the schema has no empty value for; and
the flags are as true as the schema reads them. -/
structure LeavesNothingOpen (rt : Runtime) (state defaults : Mapping) : Prop where
  schedule : ∃ raw : Mapping, state.get? "schedule" = some (.map raw) ∧
    (rt.textOr "manual" (raw.getD "mode") = "manual" →
      (mappingAt defaults "schedule").getD "cron" = .null ∧
      (mappingAt defaults "schedule").getD "every" = .null)
  strategy : (mappingAt state "chunking").getD "strategy" ≠ .null
  words : isBlankValue ((mappingAt state "chunking").getD "words") = false
  overlap : isBlankValue ((mappingAt state "chunking").getD "overlap") = false
  maxDeleteRatio : isBlankValue ((mappingAt state "safety").getD "max_delete_ratio") = false
  emptySourceGuard : (mappingAt state "safety").getD "empty_source_guard" ≠ .null
  model : modelText rt state = "" →
    (laxText ((mappingAt defaults "embedding").getD "model")).getD "" = ""
  fullScope : state.getD "full_scope" ≠ .null
  appendProbe : state.getD "append_probe" ≠ .null
  enabled : field state "enabled" (.ok true) readBool = .ok (enabledOf state)
  mcpAllowFull : field state "mcp_allow_full" (.ok false) readBool =
    .ok (switchOf state "mcp_allow_full")
  expandEmbedded : field state "expand_embedded" (.ok false) readBool =
    .ok (switchOf state "expand_embedded")

/-- How the packages treat texts that are empty: `str` of a value that is no text is never empty,
and pydantic reads no number from an empty text. -/
structure Runtime.Plain (rt : Runtime) : Prop where
  str_filled : ∀ v : Val, v.str? = none → rt.str v ≠ ""
  intOfText_empty : rt.intOfText "" = none

/-! ### The trigger -/

theorem lookup_eq_manual_iff {word : String} :
    PlanMode.table.lookup word = some .manual ↔ word = "manual" := by
  by_cases h : word = "manual"
  · simp [h, PlanMode.table]
  · have hne : (word == "manual") = false := by simpa using h
    simp only [PlanMode.table, List.lookup_cons, hne, h, iff_false]
    repeat' split
    all_goals simp

/-- The plan of the builder carries no key of its own, and its mode is the word of the state. -/
theorem planFrom_eq_ok {rt : FormRuntime} {raw : Mapping} {plan : Plan}
    (h : planFrom rt raw = .ok plan) :
    plan.extra = [] ∧
      PlanMode.table.lookup (rt.textOr "manual" (raw.getD "mode")) = some plan.mode := by
  unfold planFrom at h
  cases hmode : PlanMode.table.lookup (rt.textOr "manual" (raw.getD "mode")) with
  | none => simp [hmode] at h
  | some mode =>
      simp only [hmode, Paired.bind_eq_ok, Except.ok.injEq] at h
      obtain ⟨everyN, -, minute, -, weekdays, -, day, -, jitter, -, misfire, -, rfl⟩ := h
      exact ⟨rfl, rfl⟩

/-! ### The converted values -/

/-- The text of a control that is filled in is not empty. -/
theorem Runtime.Plain.text_filled {rt : Runtime} (hrt : rt.Plain) {v : Val}
    (h : isBlankValue v = false) : rt.text v ≠ "" := by
  cases hstr : v.str? with
  | none => simpa [Runtime.text, hstr] using hrt.str_filled v hstr
  | some text =>
      obtain rfl := Val.str?_eq_some.mp hstr
      rintro heq
      simp_all [isBlankValue, isBlank]

/-- A whole number of the editor is null for a blank control, and nothing empty otherwise. -/
theorem intOrNone_eq_some {rt : Runtime} (hrt : rt.Plain) {v w : Val}
    (h : intOrNone rt v = some w) :
    if isBlankValue v then w = .null else isEmptyValue w = false := by
  unfold intOrNone at h
  split at h
  case h_1 => simpa [isBlankValue, eq_comm] using h
  case h_2 i =>
    obtain rfl := Option.some.inj h
    simp [isBlankValue, isEmptyValue]
  case h_3 q =>
    split at h <;> obtain rfl := Option.some.inj h
    · simp [isBlankValue, isEmptyValue]
    · simpa [isBlankValue, isEmptyValue] using hrt.str_filled (.float (.finite q)) rfl
  case h_4 text =>
    by_cases hblank : isBlank text = true
    · simpa [hblank, isBlankValue, eq_comm] using h
    · simp only [hblank, Bool.false_eq_true, if_false] at h
      by_cases hwhole : looksWhole text = true
      · simp only [hwhole, if_true, Option.map_eq_some_iff] at h
        obtain ⟨i, -, rfl⟩ := h
        simp [isBlankValue, hblank, isEmptyValue]
      · simp only [hwhole, Bool.false_eq_true, if_false, Option.some.injEq] at h
        obtain rfl := h
        have hfilled : isBlankValue (.str text) = false := by simpa [isBlankValue] using hblank
        simpa [hfilled, isEmptyValue] using hrt.text_filled hfilled
  case h_5 hnull hint hfloat hstr =>
    obtain rfl := Option.some.inj h
    have hblank : isBlankValue v = false := by
      unfold isBlankValue
      split
      next => exact absurd rfl hnull
      next text => exact absurd rfl (hstr text)
      next => rfl
    have hnone : v.str? = none := by
      unfold Val.str?
      split
      next text => exact absurd rfl (hstr text)
      next => rfl
    simpa [hblank, isEmptyValue] using hrt.str_filled v hnone

/-- The same for a number that may have a fraction. -/
theorem numberOrNone_empty {rt : FormRuntime} (hrt : rt.Plain) (v : Val) :
    if isBlankValue v then numberOrNone rt v = .null
    else isEmptyValue (numberOrNone rt v) = false := by
  generalize hnumber : numberOrNone rt v = w
  unfold numberOrNone at hnumber
  split at hnumber <;> obtain rfl := hnumber
  case h_1 => simp [isBlankValue]
  case h_2 b => simpa [isBlankValue, isEmptyValue] using hrt.str_filled (.bool b) rfl
  case h_3 | h_4 => simp [isBlankValue, isEmptyValue]
  case h_5 hnull _ _ _ =>
    have hblank : isBlankValue v = (isBlank (rt.text v) && v.str?.isSome) := by
      cases hstr : v.str? with
      | some text =>
          obtain rfl := Val.str?_eq_some.mp hstr
          simp [isBlankValue]
      | none =>
          unfold isBlankValue
          split
          next => exact absurd rfl hnull
          next text => simp at hstr
          next => simp
    simp only [← hblank]
    cases hcase : isBlankValue v with
    | true => simp
    | false =>
        simp only [Bool.false_eq_true, if_false]
        split
        next => rfl
        next => simpa [isEmptyValue] using hrt.text_filled hcase

theorem get?_withoutNulls {entries : Mapping} {key : String} {v : Val}
    (hnodup : (entries.map Prod.fst).Nodup) (h : entries.get? key = some v) :
    (withoutNulls entries).get? key = if isNull v then none else some v := by
  rw [withoutNulls, Mapping.get?, lookup_filter_of_nodup _ hnodup h]
  cases isNull v <;> simp

theorem nodup_withoutNulls {entries : Mapping} (h : (entries.map Prod.fst).Nodup) :
    ((withoutNulls entries).map Prod.fst).Nodup :=
  h.sublist (List.filter_sublist.map _)

/-! ### The sections, read back -/

variable {rt : FormRuntime} {state defaults entry : Mapping} {spec : JobSpec}

theorem Converted.filters_read (c : Converted rt state defaults entry)
    (h : readJobSpec rt.toRuntime (effective entry defaults) = .ok spec) :
    readFilters rt.toRuntime
      (.map (writtenOver "filters" (mappingAt defaults "filters") c.filters)) =
        .ok spec.filters := by
  obtain ⟨-, -, -, -, hfilters, -⟩ := readJobSpec_eq_ok.mp h
  refine section_reads "filters" c.written (by simp [defaultSections]) ?_ rfl hfilters
  intro v b hv
  cases hm : readMapping v with
  | error => simp [readFilters, hm] at hv
  | ok m => exact ⟨m, readMapping_eq_ok.mp hm⟩

theorem Converted.schedule_read (c : Converted rt state defaults entry)
    (h : readJobSpec rt.toRuntime (effective entry defaults) = .ok spec) :
    readSchedule rt.toRuntime
      (.map (writtenOver "schedule" (mappingAt defaults "schedule") c.schedule)) =
        .ok spec.schedule := by
  obtain ⟨-, -, -, -, -, -, -, -, -, hschedule, -⟩ := readJobSpec_eq_ok.mp h
  refine section_reads "schedule" c.written (by simp [defaultSections]) ?_ rfl hschedule
  intro v b hv
  cases hm : readMapping v with
  | error => simp [readSchedule, hm] at hv
  | ok m => exact ⟨m, readMapping_eq_ok.mp hm⟩

theorem Converted.chunking_read (c : Converted rt state defaults entry)
    (h : readJobSpec rt.toRuntime (effective entry defaults) = .ok spec) :
    readChunking rt.toRuntime
      (.map (writtenOver "chunking" (mappingAt defaults "chunking") c.chunking)) =
        .ok spec.chunking := by
  obtain ⟨-, -, -, -, -, -, -, -, -, -, hchunking, -⟩ := readJobSpec_eq_ok.mp h
  refine section_reads "chunking" c.written (by simp [defaultSections]) ?_ rfl hchunking
  intro v b hv
  cases hm : readMapping v with
  | error => simp [readChunking, hm] at hv
  | ok m => exact ⟨m, readMapping_eq_ok.mp hm⟩

theorem Converted.embedding_read (c : Converted rt state defaults entry)
    (h : readJobSpec rt.toRuntime (effective entry defaults) = .ok spec) :
    readEmbedding rt.toRuntime
      (.map (writtenOver "embedding" (mappingAt defaults "embedding") c.embedding)) =
        .ok spec.embedding := by
  obtain ⟨-, -, -, -, -, -, -, -, -, -, -, hembedding, -⟩ := readJobSpec_eq_ok.mp h
  refine section_reads "embedding" c.written (by simp [defaultSections]) ?_ rfl
    hembedding
  intro v b hv
  cases hm : readMapping v with
  | error => simp [readEmbedding, hm] at hv
  | ok m => exact ⟨m, readMapping_eq_ok.mp hm⟩

theorem Converted.safety_read (c : Converted rt state defaults entry)
    (h : readJobSpec rt.toRuntime (effective entry defaults) = .ok spec) :
    readSafety rt.toRuntime
      (.map (writtenOver "safety" (mappingAt defaults "safety") (safetyFrom rt state))) =
        .ok spec.safety := by
  obtain ⟨-, -, -, -, -, -, -, -, -, -, -, -, hsafety, -⟩ := readJobSpec_eq_ok.mp h
  refine section_reads "safety" c.written (by simp [defaultSections]) ?_ rfl hsafety
  intro v b hv
  cases hm : readMapping v with
  | error => simp [readSafety, hm] at hv
  | ok m => exact ⟨m, readMapping_eq_ok.mp hm⟩

/-! ### Filters -/

theorem readStrList_map_ne_ok (m : Mapping) (texts : List String) :
    readStrList (.map m) ≠ .ok texts := by
  simp [readStrList]

/-- An empty value that reads as a list is the empty list. -/
theorem readStrList_empty {w : Val} {texts : List String} (hempty : isEmptyValue w = true)
    (h : readStrList w = .ok texts) : texts = [] := by
  cases w with
  | list items =>
      obtain rfl : items = [] := by simpa [isEmptyValue] using hempty
      simpa [readStrList, Checked.each, eq_comm] using h
  | scalar | map => simp [readStrList] at h
  | set => simp [isEmptyValue] at hempty

/-- The lines of a filter read as they are, whatever the catalog filters. -/
theorem lines_read {name key : String} {given catalog : Mapping} {texts found : List String}
    (hgiven : given.get? key = some (.list (texts.map .str)))
    (hnodup : (given.map Prod.fst).Nodup) (hname : name = "filters")
    (hdefault : (sectionDefaults name).get? key = some (.list []))
    (h : field (writtenOver name catalog given) key (.ok []) readStrList = .ok found) :
    found = texts := by
  have hread : readStrList (.list (texts.map .str)) = .ok found := by
    refine given_reads _ _ hgiven hnodup (by simp [hname]) hdefault rfl rfl readStrList_map_ne_ok ?_ ?_ h
    · intro w hv hw hread
      obtain rfl := readStrList_empty hw hread
      obtain rfl : texts = [] := by simpa [isEmptyValue] using hv
      rfl
    · intro w heqv hread
      rwa [← eqv_texts heqv]
  simpa [readStrList_texts, eq_comm] using hread

/-- An empty value that reads as an optional number is no number. -/
theorem readLimit_empty {rt : Runtime} (hrt : rt.Plain) {w : Val} {found : Option Int}
    (hempty : isEmptyValue w = true)
    (h : readNullable (readBounded rt 1 none) w = .ok found) : found = none := by
  rcases readNullable_eq_ok.mp h with ⟨-, hfound⟩ | ⟨hw, i, hi, -⟩
  · exact hfound
  · obtain ⟨hint, -⟩ := readBounded_eq_ok.mp hi
    cases w with
    | scalar s =>
        cases s with
        | null => exact absurd rfl hw
        | str text =>
            obtain rfl : text = "" := by simpa [isEmptyValue] using hempty
            simp [readInt, laxText, hrt.intOfText_empty] at hint
        | bool | int | float | bytes | stamp => simp [isEmptyValue] at hempty
    | list | map => simp [readInt, laxText] at hint
    | set => simp [isEmptyValue] at hempty

theorem Converted.includes_shown (c : Converted rt state defaults entry)
    (h : readJobSpec rt.toRuntime (effective entry defaults) = .ok spec) :
    spec.filters.includes = linesOf rt.toRuntime ((mappingAt state "filters").getD "include") ∧
      spec.filters.exclude = linesOf rt.toRuntime ((mappingAt state "filters").getD "exclude") := by
  obtain ⟨hincludes, hexclude, -⟩ := readFilters_eq_ok.mp (c.filters_read h)
  obtain ⟨maxFileBytes, -, hfilters⟩ := Option.map_eq_some_iff.mp c.filters_eq
  rw [← hfilters] at hincludes hexclude
  exact ⟨lines_read rfl (by simp) rfl rfl hincludes, lines_read rfl (by simp) rfl rfl hexclude⟩

theorem Converted.maxFileBytes_shown (c : Converted rt state defaults entry) (hrt : rt.Plain)
    (h : readJobSpec rt.toRuntime (effective entry defaults) = .ok spec) :
    ∃ v, intOrNone rt.toRuntime ((mappingAt state "filters").getD "max_file_bytes") = some v ∧
      readNullable (readBounded rt.toRuntime 1 none) v = .ok spec.filters.maxFileBytes := by
  obtain ⟨-, -, hmax, -⟩ := readFilters_eq_ok.mp (c.filters_read h)
  obtain ⟨v, hv, hfilters⟩ := Option.map_eq_some_iff.mp c.filters_eq
  rw [← hfilters] at hmax
  refine ⟨v, hv, given_reads _ _ rfl (by simp) (by simp) rfl rfl rfl ?_ ?_ ?_ hmax⟩
  · intro m found hm
    simp [readNullable_eq_ok, readBounded_eq_ok, readInt, laxText] at hm
  · intro w hempty hw hread
    have hkind := intOrNone_eq_some hrt hv
    split at hkind
    next =>
      -- a blank control: an empty value of the catalog reads as no limit, or does not read
      rw [hkind, readLimit_empty hrt hw hread]
      rfl
    next => simp [hkind] at hempty
  · exact fun w heqv hw =>
      respects_readNullable (respects_readBounded rt.toRuntime 1 none) v w _ heqv hw

/-! ### Chunking, safety and model -/

theorem readChoice_empty {α : Type} {table : List (String × α)} {w : Val} {a : α}
    (htable : table.lookup "" = none) (hempty : isEmptyValue w = true) :
    readChoice table w ≠ .ok a := by
  cases hw : w.str? with
  | none => simp [readChoice, hw]
  | some text =>
      obtain rfl := Val.str?_eq_some.mp hw
      obtain rfl : text = "" := by simpa [isEmptyValue] using hempty
      simp [readChoice, htable]

theorem readBool_empty {w : Val} {b : Bool} (hempty : isEmptyValue w = true) :
    readBool w ≠ .ok b := by
  cases w with
  | scalar s =>
      cases s with
      | str text =>
          obtain rfl : text = "" := by simpa [isEmptyValue] using hempty
          simp [readBool, laxText, boolWord, lower]
      | null => simp [readBool]
      | bool | int | float | bytes | stamp => simp [isEmptyValue] at hempty
  | list | map => simp [readBool]
  | set => simp [isEmptyValue] at hempty

theorem isNull_of_filled {v : Val} (h : isEmptyValue v = false) : isNull v = false := by
  cases hnull : isNull v with
  | false => rfl
  | true => simp [isNull_iff.mp hnull, isEmptyValue] at h

theorem Converted.strategy_shown_iff (c : Converted rt state defaults entry)
    (h : readJobSpec rt.toRuntime (effective entry defaults) = .ok spec) :
    readChoice ChunkStrategy.table ((mappingAt state "chunking").getD "strategy") =
        .ok spec.chunking.strategy ↔
      (mappingAt state "chunking").getD "strategy" ≠ .null := by
  obtain ⟨hstrategy, -⟩ := readChunking_eq_ok.mp (c.chunking_read h)
  have hchunking := c.chunking_eq
  simp only [chunkingFrom, Option.bind_eq_some_iff, Option.map_eq_some_iff] at hchunking
  obtain ⟨words, -, overlap, -, hgiven⟩ := hchunking
  rw [← hgiven] at hstrategy
  constructor
  · intro hread hnull
    simp [hnull, readChoice, Val.str?] at hread
  · intro hnull
    have hnot : isNull ((mappingAt state "chunking").getD "strategy") = false := by
      simpa [← Bool.not_eq_true] using hnull
    refine given_reads "chunking" (.str "auto") ?_ (nodup_withoutNulls (by simp)) (by simp)
      rfl rfl rfl ?_ ?_ ?_ hstrategy
    · rw [get?_withoutNulls (by simp) rfl, hnot]
      rfl
    · intro m b
      simp [readChoice, Val.str?]
    · intro w _ hw hread
      exact absurd hread (readChoice_empty rfl hw)
    · exact fun w heqv hw => respects_readChoice _ _ w _ heqv hw

/-- A number of the editor reads as it is given exactly where it is given at all. -/
theorem number_shown_iff {rt : Runtime} {name key : String} {given catalog : Mapping}
    {control number : Val} {low absent found : Int} (default : Val) (hrt : rt.Plain)
    (hnumber : intOrNone rt control = some number)
    (hgiven : given.get? key = if isNull number then none else some number)
    (hnodup : (given.map Prod.fst).Nodup) (hname : name ≠ "embedding")
    (hdefault : (sectionDefaults name).get? key = some default) (hscalar : default.mapping? = none)
    (hread : readBounded rt low none default = .ok absent)
    (h : field (writtenOver name catalog given) key (.ok absent) (readBounded rt low none) =
      .ok found) :
    (∃ v, intOrNone rt control = some v ∧ readBounded rt low none v = .ok found) ↔
      isBlankValue control = false := by
  have hkind := intOrNone_eq_some hrt hnumber
  constructor
  · rintro ⟨v, hv, hv'⟩
    cases hblank : isBlankValue control with
    | false => rfl
    | true =>
        obtain rfl : number = v := by simpa [hnumber] using hv
        obtain rfl : number = .null := by simpa [hblank] using hkind
        simp [readBounded_eq_ok, readInt, laxText] at hv'
  · intro hblank
    have hfilled : isEmptyValue number = false := by simpa [hblank] using hkind
    rw [isNull_of_filled hfilled] at hgiven
    refine ⟨number, hnumber, given_reads _ _ hgiven hnodup (fun hkey => hname hkey.1) hdefault hscalar
      hread ?_ ?_ ?_ h⟩
    · intro m i hm
      simp [readBounded_eq_ok, readInt, laxText] at hm
    · intro w hempty
      simp [hfilled] at hempty
    · exact fun w heqv hw => respects_readBounded rt low none number w found heqv hw

theorem Converted.words_shown_iff (c : Converted rt state defaults entry) (hrt : rt.Plain)
    (h : readJobSpec rt.toRuntime (effective entry defaults) = .ok spec) :
    (∃ v, intOrNone rt.toRuntime ((mappingAt state "chunking").getD "words") = some v ∧
        readBounded rt.toRuntime 1 none v = .ok spec.chunking.words) ↔
      isBlankValue ((mappingAt state "chunking").getD "words") = false := by
  obtain ⟨-, hwords, -⟩ := readChunking_eq_ok.mp (c.chunking_read h)
  have hchunking := c.chunking_eq
  simp only [chunkingFrom, Option.bind_eq_some_iff, Option.map_eq_some_iff] at hchunking
  obtain ⟨words, hword, overlap, -, hgiven⟩ := hchunking
  rw [← hgiven] at hwords
  exact number_shown_iff (.int 400) hrt hword (get?_withoutNulls (by simp) rfl)
    (nodup_withoutNulls (by simp)) (by simp) rfl rfl rfl hwords

theorem Converted.overlap_shown_iff (c : Converted rt state defaults entry) (hrt : rt.Plain)
    (h : readJobSpec rt.toRuntime (effective entry defaults) = .ok spec) :
    (∃ v, intOrNone rt.toRuntime ((mappingAt state "chunking").getD "overlap") = some v ∧
        readBounded rt.toRuntime 0 none v = .ok spec.chunking.overlap) ↔
      isBlankValue ((mappingAt state "chunking").getD "overlap") = false := by
  obtain ⟨-, -, hoverlap, -⟩ := readChunking_eq_ok.mp (c.chunking_read h)
  have hchunking := c.chunking_eq
  simp only [chunkingFrom, Option.bind_eq_some_iff, Option.map_eq_some_iff] at hchunking
  obtain ⟨words, -, overlap, hover, hgiven⟩ := hchunking
  rw [← hgiven] at hoverlap
  exact number_shown_iff (.int 50) hrt hover (get?_withoutNulls (by simp) rfl) (nodup_withoutNulls (by simp))
    (by simp) rfl rfl rfl hoverlap

theorem Converted.maxDeleteRatio_shown_iff (c : Converted rt state defaults entry)
    (hrt : rt.Plain) (h : readJobSpec rt.toRuntime (effective entry defaults) = .ok spec) :
    readRatio rt.toRuntime
        (numberOrNone rt ((mappingAt state "safety").getD "max_delete_ratio")) =
          .ok spec.safety.maxDeleteRatio ↔
      isBlankValue ((mappingAt state "safety").getD "max_delete_ratio") = false := by
  obtain ⟨hratio, -⟩ := readSafety_eq_ok.mp (c.safety_read h)
  have hkind := numberOrNone_empty hrt ((mappingAt state "safety").getD "max_delete_ratio")
  constructor
  · intro hread
    cases hblank : isBlankValue ((mappingAt state "safety").getD "max_delete_ratio") with
    | false => rfl
    | true =>
        simp only [hblank, if_true] at hkind
        simp [hkind, readRatio, readFloat, laxText] at hread
  · intro hblank
    simp only [hblank, Bool.false_eq_true, if_false] at hkind
    refine given_reads "safety" _ ?_ (nodup_withoutNulls (by simp)) (by simp) rfl rfl ?_
      ?_ ?_ ?_ hratio
    · rw [get?_withoutNulls (by simp) rfl, isNull_of_filled hkind]
      rfl
    · have hlow : ¬(1 / 4 : Rat) < 0 := by decide +kernel
      have hhigh : ¬(1 : Rat) < 1 / 4 := by decide +kernel
      simp only [readRatio, readFloat, if_neg hlow, if_neg hhigh]
    · intro m b hm
      simp [readRatio, readFloat, laxText] at hm
    · intro w hempty
      simp [hkind] at hempty
    · exact fun w heqv hw => respects_readRatio rt.toRuntime _ w _ heqv hw

theorem Converted.emptySourceGuard_shown_iff (c : Converted rt state defaults entry)
    (h : readJobSpec rt.toRuntime (effective entry defaults) = .ok spec) :
    readBool ((mappingAt state "safety").getD "empty_source_guard") =
        .ok spec.safety.emptySourceGuard ↔
      (mappingAt state "safety").getD "empty_source_guard" ≠ .null := by
  obtain ⟨-, hguard, -⟩ := readSafety_eq_ok.mp (c.safety_read h)
  constructor
  · intro hread hnull
    simp [hnull, readBool] at hread
  · intro hnull
    have hnot : isNull ((mappingAt state "safety").getD "empty_source_guard") = false := by
      simpa [← Bool.not_eq_true] using hnull
    refine given_reads "safety" _ ?_ (nodup_withoutNulls (by simp)) (by simp) rfl rfl rfl
      ?_ ?_ ?_ hguard
    · rw [get?_withoutNulls (by simp) rfl, hnot]
      rfl
    · intro m b
      simp [readBool]
    · intro w _ hw hread
      exact absurd hread (readBool_empty hw)
    · exact fun w heqv hw => respects_readBool _ w _ heqv hw

theorem readModel_text {catalog : Mapping} {model : Option String}
    (h : field catalog "model" (.ok none) (readNullable readStr) = .ok model) :
    model.getD "" = (laxText (catalog.getD "model")).getD "" := by
  rw [field_eq_ok] at h
  cases hcatalog : catalog.get? "model" with
  | none =>
      obtain rfl : none = model := by simpa [hcatalog] using h
      simp [Mapping.getD, hcatalog, laxText]
  | some v =>
      rw [Mapping.getD, hcatalog, Option.getD_some]
      simp only [hcatalog, readNullable_eq_ok] at h
      rcases h with ⟨rfl, rfl⟩ | ⟨-, text, htext, rfl⟩
      · rfl
      · cases hlax : laxText v with
        | none => simp [readStr, hlax] at htext
        | some found => simpa [readStr, hlax, eq_comm] using htext

/-- The model of the job is the one of the state, or the one of the catalog where the state names
none. -/
theorem Converted.model_shown_iff (c : Converted rt state defaults entry)
    (h : readJobSpec rt.toRuntime (effective entry defaults) = .ok spec) :
    spec.embedding.model.getD "" = modelText rt.toRuntime state ↔
      (modelText rt.toRuntime state = "" →
        (laxText ((mappingAt defaults "embedding").getD "model")).getD "" = "") := by
  obtain ⟨hmodel, -⟩ := readEmbedding_eq_ok.mp (c.embedding_read h)
  obtain ⟨batchSize, -, hgiven⟩ := Option.map_eq_some_iff.mp c.embedding_eq
  have hget : c.embedding.get? "model" =
      if modelText rt.toRuntime state = "" then none
      else some (.str (modelText rt.toRuntime state)) := by
    rw [← hgiven, get?_withoutNulls (by simp) rfl]
    by_cases hblank : modelText rt.toRuntime state = ""
    · have hblank' := hblank
      unfold modelText at hblank'
      simp [hblank, hblank', isNull]
    · have hblank' := hblank
      unfold modelText at hblank'
      simp [modelText, hblank', isNull]
  by_cases hblank : modelText rt.toRuntime state = ""
  · rw [if_pos hblank] at hget
    rw [absent_reads hget] at hmodel
    rw [readModel_text hmodel]
    simp [hblank]
  · rw [if_neg hblank] at hget
    have hnodup : (c.embedding.map Prod.fst).Nodup := hgiven ▸ nodup_withoutNulls (by simp)
    have hkeeps : keeps "embedding" (deepMerge (sectionDefaults "embedding")
        (mappingAt defaults "embedding")) (.str "model")
          (.str (modelText rt.toRuntime state)) = true := by
      simpa [keeps, isEmptyValue] using hblank
    rw [kept_reads hget hnodup rfl hkeeps, Checked.within_eq_ok] at hmodel
    rcases readNullable_eq_ok.mp hmodel with ⟨hnull, -⟩ | ⟨-, text, htext, hfound⟩
    · simp at hnull
    · obtain rfl : modelText rt.toRuntime state = text := by simpa [readStr, laxText] using htext
      simp [hfound, hblank]

/-! ### The trigger of the job -/

/-- A schedule without a problem: the plan of the builder, what it compiles to and its block. -/
theorem scheduleFrom_eq_ok {jobId : Option String} {raw block : Mapping}
    (hraw : state.get? "schedule" = some (.map raw))
    (h : scheduleFrom rt jobId state = (block, [])) :
    ∃ plan compiled, planFrom rt raw = .ok plan ∧ compilePlan rt.toRuntime plan = .ok compiled ∧
      Block plan compiled block := by
  unfold scheduleFrom at h
  simp only [hraw] at h
  cases hplan : planFrom rt raw with
  | error message => simp [hplan, Except.bind] at h
  | ok plan =>
      cases hblock : scheduleBlock rt.toRuntime plan with
      | error message => simp [hplan, hblock, Except.bind] at h
      | ok found =>
          obtain rfl : found = block := by simpa [hplan, hblock, Except.bind] using h
          obtain ⟨compiled, hcompiled, hkeys⟩ :=
            scheduleBlock_eq_ok (planFrom_eq_ok hplan).1 hblock
          exact ⟨plan, compiled, rfl, hcompiled, hkeys⟩

/-- A text the block gives is what the key reads as. -/
theorem text_read {key text : String} {catalog block : Mapping} {found : Option String}
    (hgiven : block.get? key = some (.str text)) (hnodup : (block.map Prod.fst).Nodup)
    (hdefault : (sectionDefaults "schedule").get? key = some .null) (htext : text ≠ "")
    (h : field (writtenOver "schedule" catalog block) key (.ok none) (readNullable readStr) =
      .ok found) :
    found = some text := by
  have hread : readNullable readStr (.str text) = .ok found := by
    refine given_reads _ _ hgiven hnodup (by simp) hdefault rfl rfl ?_ ?_ ?_ h
    · intro m b hm
      simp [readNullable_eq_ok, readStr, laxText] at hm
    · intro w hempty
      simp [isEmptyValue, htext] at hempty
    · intro w heqv hw
      rwa [← str_eqv.mp heqv]
  rcases readNullable_eq_ok.mp hread with ⟨hnull, -⟩ | ⟨-, other, hother, hfound⟩
  · simp at hnull
  · obtain rfl : text = other := by simpa [readStr, laxText] using hother
    exact hfound

/-- A key that is not given has no text exactly where the catalog has none. -/
theorem absent_text_iff {key : String} {catalog : Mapping} {found : Option String}
    (h : field catalog key (.ok none) (readNullable readStr) = .ok found) :
    found = none ↔ catalog.getD key = .null := by
  rw [field_eq_ok] at h
  cases hcatalog : catalog.get? key with
  | none =>
      obtain rfl : none = found := by simpa [hcatalog] using h
      simp [Mapping.getD, hcatalog]
  | some v =>
      simp only [hcatalog, readNullable_eq_ok] at h
      rcases h with ⟨rfl, rfl⟩ | ⟨hv, text, -, rfl⟩
      · simp [Mapping.getD, hcatalog]
      · simp [Mapping.getD, hcatalog, hv]

theorem Converted.trigger_shown_iff (c : Converted rt state defaults entry)
    (h : readJobSpec rt.toRuntime (effective entry defaults) = .ok spec) :
    (∃ raw plan compiled, state.get? "schedule" = some (.map raw) ∧ planFrom rt raw = .ok plan ∧
        compilePlan rt.toRuntime plan = .ok compiled ∧ spec.schedule.cron = compiled.cron ∧
        spec.schedule.every = compiled.every) ↔
      ∃ raw : Mapping, state.get? "schedule" = some (.map raw) ∧
        (rt.textOr "manual" (raw.getD "mode") = "manual" →
          (mappingAt defaults "schedule").getD "cron" = .null ∧
          (mappingAt defaults "schedule").getD "every" = .null) := by
  obtain ⟨hcron, hevery, -, -, -, -, -, hone, -⟩ := readSchedule_eq_ok.mp (c.schedule_read h)
  by_cases hraw : ∃ raw, state.get? "schedule" = some (.map raw)
  · obtain ⟨raw, hraw⟩ := hraw
    obtain ⟨plan, compiled, hplan, hcompiled, hblock⟩ := scheduleFrom_eq_ok hraw c.schedule_eq
    have hmode := (planFrom_eq_ok hplan).2
    have hleft : (∃ raw plan compiled, state.get? "schedule" = some (.map raw) ∧
        planFrom rt raw = .ok plan ∧ compilePlan rt.toRuntime plan = .ok compiled ∧
        spec.schedule.cron = compiled.cron ∧ spec.schedule.every = compiled.every) ↔
          spec.schedule.cron = compiled.cron ∧ spec.schedule.every = compiled.every := by
      simp [hraw, hplan, hcompiled]
    rw [hleft]
    rcases compilePlan_eq_ok hcompiled with ⟨hmanual, rfl⟩ | ⟨hmanual, text, htext, hkey⟩
    · -- nothing is written, so the keys of the catalog show through
      have hword : rt.textOr "manual" (Mapping.getD raw "mode") = "manual" :=
        lookup_eq_manual_iff.mp (hmanual ▸ hmode)
      rw [absent_reads hblock.cron] at hcron
      rw [absent_reads hblock.every] at hevery
      simp [hraw, hword, absent_text_iff hcron, absent_text_iff hevery]
    · have hword : rt.textOr "manual" (Mapping.getD raw "mode") ≠ "manual" := by
        intro heq
        rw [lookup_eq_manual_iff.mpr heq] at hmode
        exact hmanual (Option.some.inj hmode).symm
      have hright : spec.schedule.cron = compiled.cron ∧ spec.schedule.every = compiled.every := by
        rcases hkey with rfl | rfl
        · have hfound := text_read hblock.cron hblock.nodup rfl htext hcron
          exact ⟨hfound, by simpa [hfound] using hone⟩
        · have hfound := text_read hblock.every hblock.nodup rfl htext hevery
          exact ⟨by simpa [hfound] using hone, hfound⟩
      simp [hright, hraw, hword]
  · constructor
    · rintro ⟨raw, plan, compiled, hstate, -⟩
      exact absurd ⟨raw, hstate⟩ hraw
    · rintro ⟨raw, hstate, -⟩
      exact absurd ⟨raw, hstate⟩ hraw

/-! ### The keys of the job itself -/

theorem Converted.mode_shown (c : Converted rt state defaults entry)
    (h : readJobSpec rt.toRuntime (effective entry defaults) = .ok spec) :
    readChoice Mode.table (state.getD "mode") = .ok spec.mode := by
  obtain ⟨-, -, -, -, -, -, hmode, -⟩ := readJobSpec_eq_ok.mp h
  rw [field_eq_ok, get?_effective_of_not_section _ _ (by simp [defaultSections]),
    c.written.mode] at hmode
  exact hmode

theorem keptTop_of_filled {job : Mapping} {key : String} {default : Val}
    (h : job.getD key ≠ .null) :
    keptTop job key default =
      if (job.getD key).eqv default then none else some (job.getD key) := by
  unfold keptTop
  split
  next heq => exact absurd heq h
  next => rfl

/-- A choice that is given reads as it is, also where it is the default and therefore left out. -/
theorem choice_shown_iff {α : Type} {table : List (String × α)} {key default : String}
    {job out : Mapping} {control : Val} {absent found : α} (hjob : job.getD key = control)
    (hout : out.get? key = keptTop job key (.str default)) (hkey : key ∉ defaultSections)
    (habsent : table.lookup default = some absent)
    (h : field (effective out defaults) key (.ok absent) (readChoice table) = .ok found) :
    readChoice table control = .ok found ↔ control ≠ .null := by
  rw [field_eq_ok, get?_effective_of_not_section _ _ hkey, hout] at h
  by_cases hnull : control = .null
  · simp [hnull, readChoice, Val.str?]
  · rw [keptTop_of_filled (hjob ▸ hnull), hjob] at h
    by_cases heqv : control.eqv (.str default) = true
    · obtain rfl := eqv_str.mp heqv
      simp only [heqv, if_true, Except.ok.injEq] at h
      simp [readChoice, habsent, h]
    · simp only [heqv, Bool.false_eq_true, if_false] at h
      simp [h, hnull]

theorem Converted.fullScope_shown_iff (c : Converted rt state defaults entry)
    (h : readJobSpec rt.toRuntime (effective entry defaults) = .ok spec) :
    readChoice FullScope.table (state.getD "full_scope") = .ok spec.fullScope ↔
      state.getD "full_scope" ≠ .null := by
  obtain ⟨-, -, -, -, -, -, -, hscope, -⟩ := readJobSpec_eq_ok.mp h
  exact choice_shown_iff rfl
    (c.written.top "full_scope" (.str "job") (by simp [topDefaults]) (by simp) (by simp))
    (by simp [defaultSections]) rfl hscope

theorem Converted.appendProbe_shown_iff (c : Converted rt state defaults entry)
    (h : readJobSpec rt.toRuntime (effective entry defaults) = .ok spec) :
    readChoice AppendProbe.table (state.getD "append_probe") = .ok spec.appendProbe ↔
      state.getD "append_probe" ≠ .null := by
  obtain ⟨-, -, -, -, -, -, -, -, hprobe, -⟩ := readJobSpec_eq_ok.mp h
  exact choice_shown_iff rfl
    (c.written.top "append_probe" (.str "auto") (by simp [topDefaults]) (by simp) (by simp))
    (by simp [defaultSections]) rfl hprobe

theorem Converted.enabled_eq (c : Converted rt state defaults entry)
    (h : readJobSpec rt.toRuntime (effective entry defaults) = .ok spec) :
    spec.enabled = enabledOf state := by
  obtain ⟨-, henabled, -⟩ := readJobSpec_eq_ok.mp h
  have hflat : keptEnabled (flatJob rt state c.source c.extra c.filters c.schedule c.chunking
      c.embedding) = if enabledOf state then none else some (.bool false) := by
    have hget : Mapping.getD (flatJob rt state c.source c.extra c.filters c.schedule c.chunking
      c.embedding) "enabled" = .bool (enabledOf state) := rfl
    rw [keptEnabled, hget]
    cases enabledOf state <;> rfl
  rw [field_eq_ok, get?_effective_of_not_section _ _ (by simp [defaultSections]),
    c.written.enabled, hflat] at henabled
  cases hstate : enabledOf state with
  | true =>
      simp only [hstate, if_true, Except.ok.injEq] at henabled
      exact henabled.symm
  | false =>
      simp only [hstate, Bool.false_eq_true, if_false, readBool, Except.ok.injEq] at henabled
      exact henabled.symm

/-- A switch is in the job what the truth of its value is. -/
theorem switch_eq {key : String} {job out : Mapping} {b found : Bool}
    (hjob : job.getD key = .bool b) (hout : out.get? key = keptTop job key (.bool false))
    (hkey : key ∉ defaultSections)
    (h : field (effective out defaults) key (.ok false) readBool = .ok found) : found = b := by
  rw [field_eq_ok, get?_effective_of_not_section _ _ hkey, hout,
    keptTop_of_filled (by simp [hjob]), hjob] at h
  cases b with
  | false =>
      have hsame : (Val.bool false).eqv (.bool false) = true := rfl
      simp only [hsame, if_true, Except.ok.injEq] at h
      exact h.symm
  | true =>
      have hother : (Val.bool true).eqv (.bool false) = false := by decide
      simp only [hother, Bool.false_eq_true, if_false, readBool, Except.ok.injEq] at h
      exact h.symm

theorem Converted.mcpAllowFull_eq (c : Converted rt state defaults entry)
    (h : readJobSpec rt.toRuntime (effective entry defaults) = .ok spec) :
    spec.mcpAllowFull = switchOf state "mcp_allow_full" := by
  obtain ⟨-, -, -, -, -, -, -, -, -, -, -, -, -, hmcp, -⟩ := readJobSpec_eq_ok.mp h
  exact switch_eq rfl
    (c.written.top "mcp_allow_full" (.bool false) (by simp [topDefaults]) (by simp) (by simp))
    (by simp [defaultSections]) hmcp

theorem Converted.expandEmbedded_eq (c : Converted rt state defaults entry)
    (h : readJobSpec rt.toRuntime (effective entry defaults) = .ok spec) :
    spec.expandEmbedded = switchOf state "expand_embedded" := by
  obtain ⟨-, -, -, -, -, -, -, -, -, -, -, -, -, -, hexpand, -⟩ := readJobSpec_eq_ok.mp h
  exact switch_eq rfl
    (c.written.top "expand_embedded" (.bool false) (by simp [topDefaults]) (by simp) (by simp))
    (by simp [defaultSections]) hexpand

/-! ### What the editor shows is what the saved job does -/

/-- A job that was saved without a problem does what the editor showed exactly when the state left
nothing to the catalog. -/
theorem shown_iff_nothing_open {rt : FormRuntime} {state defaults entry : Mapping} {spec : JobSpec}
    {label : Option String} (hrt : rt.Plain)
    (hsaved : authored rt state defaults = some (entry, []))
    (hparsed : parseJob rt.toRuntime entry defaults label = (some spec, [])) :
    Shown rt state spec ↔ LeavesNothingOpen rt.toRuntime state defaults := by
  obtain ⟨c⟩ := converted_of_authored hsaved
  have h : readJobSpec rt.toRuntime (effective entry defaults) = .ok spec := by
    unfold parseJob at hparsed
    split at hparsed
    next found hfound =>
      rw [hfound]
      simpa using hparsed
    next => simp at hparsed
  have henabled := c.enabled_eq h
  have hmcp := c.mcpAllowFull_eq h
  have hexpand := c.expandEmbedded_eq h
  constructor
  · intro shown
    exact {
      schedule := (c.trigger_shown_iff h).mp shown.trigger
      strategy := (c.strategy_shown_iff h).mp shown.strategy
      words := (c.words_shown_iff hrt h).mp shown.words
      overlap := (c.overlap_shown_iff hrt h).mp shown.overlap
      maxDeleteRatio := (c.maxDeleteRatio_shown_iff hrt h).mp shown.maxDeleteRatio
      emptySourceGuard := (c.emptySourceGuard_shown_iff h).mp shown.emptySourceGuard
      model := (c.model_shown_iff h).mp shown.model
      fullScope := (c.fullScope_shown_iff h).mp shown.fullScope
      appendProbe := (c.appendProbe_shown_iff h).mp shown.appendProbe
      enabled := henabled ▸ shown.enabled
      mcpAllowFull := hmcp ▸ shown.mcpAllowFull
      expandEmbedded := hexpand ▸ shown.expandEmbedded }
  · intro nothing
    exact {
      trigger := (c.trigger_shown_iff h).mpr nothing.schedule
      includes := (c.includes_shown h).1
      exclude := (c.includes_shown h).2
      maxFileBytes := c.maxFileBytes_shown hrt h
      strategy := (c.strategy_shown_iff h).mpr nothing.strategy
      words := (c.words_shown_iff hrt h).mpr nothing.words
      overlap := (c.overlap_shown_iff hrt h).mpr nothing.overlap
      maxDeleteRatio := (c.maxDeleteRatio_shown_iff hrt h).mpr nothing.maxDeleteRatio
      emptySourceGuard := (c.emptySourceGuard_shown_iff h).mpr nothing.emptySourceGuard
      model := (c.model_shown_iff h).mpr nothing.model
      mode := c.mode_shown h
      fullScope := (c.fullScope_shown_iff h).mpr nothing.fullScope
      appendProbe := (c.appendProbe_shown_iff h).mpr nothing.appendProbe
      enabled := henabled ▸ nothing.enabled
      mcpAllowFull := hmcp ▸ nothing.mcpAllowFull
      expandEmbedded := hexpand ▸ nothing.expandEmbedded }

/-! ### A manual job under a catalog with a schedule -/

/-- The packages for plain documents, with payloads that are not read. -/
def plainFormRuntime : FormRuntime :=
  { plainRuntime with
    floatOf := fun text => (readDecimal (strip text).toList).map fun n => .finite n
    loads := fun _ => .invalid "Expecting value"
    dumps := fun _ => none
    notIterable := fun _ => "'int' object is not iterable" }

theorem plainFormRuntime_plain : plainFormRuntime.Plain where
  str_filled v hv := by
    cases v with
    | scalar s =>
        cases s with
        | str text => simp at hv
        | int i => exact renderInt_ne_empty i
        | bool b => cases b <;> simp [plainFormRuntime, plainRuntime]
        | null | float | bytes | stamp => simp [plainFormRuntime, plainRuntime]
    | list | set | map => simp [plainFormRuntime, plainRuntime]
  intOfText_empty := rfl

/-- The editor's state for a folder, with a mode for its schedule and a model. -/
def folderState (scheduleMode model : String) : Mapping :=
  [(.str "id", .str "docs"), (.str "enabled", .bool true), (.str "description", .str ""),
    (.str "source", .map [(.str "type", .str "local"), (.str "label", .str "docs"),
      (.str "rclone_flags", .list []), (.str "path", .str "/data/local/docs")]),
    (.str "target", .map [(.str "collection", .str "docs"), (.str "connection", .str "default"),
      (.str "acl_tags", .list []), (.str "extra_payload", .str "")]),
    (.str "mode", .str "upsert"), (.str "full_scope", .str "job"),
    (.str "append_probe", .str "auto"),
    (.str "filters", .map [(.str "include", .list []), (.str "exclude", .list []),
      (.str "max_file_bytes", .null)]),
    (.str "schedule", .map [(.str "mode", .str scheduleMode), (.str "time", .str "05:30")]),
    (.str "chunking", .map [(.str "strategy", .str "auto"), (.str "words", .int 400),
      (.str "overlap", .int 50)]),
    (.str "embedding", .map [(.str "model", .str model), (.str "batch_size", .null)]),
    (.str "safety", .map [(.str "max_delete_ratio", .float (.finite (1 / 4))),
      (.str "empty_source_guard", .bool true)]),
    (.str "mcp_allow_full", .bool false), (.str "expand_embedded", .bool false),
    (.str "source_template", .str defaultTemplate)]

/-- A catalog that runs every job at three in the night. -/
def nightlyDefaults : Mapping :=
  [(.str "schedule", .map [(.str "cron", .str "0 3 * * *")])]

/-- The job the editor saves for a state, as it is read back. -/
def savedJob (rt : FormRuntime) (state defaults : Mapping) : Option JobSpec :=
  (authored rt state defaults).bind fun (entry, issues) =>
    if issues.isEmpty then (parseJob rt.toRuntime entry defaults none).1 else none

theorem savedJob_eq_some {rt : FormRuntime} {state defaults : Mapping} {spec : JobSpec}
    (h : savedJob rt state defaults = some spec) :
    ∃ entry, authored rt state defaults = some (entry, []) ∧
      parseJob rt.toRuntime entry defaults none = (some spec, []) := by
  simp only [savedJob, Option.bind_eq_some_iff] at h
  obtain ⟨⟨entry, issues⟩, hsaved, hspec⟩ := h
  cases issues with
  | cons => simp at hspec
  | nil =>
      refine ⟨entry, hsaved, ?_⟩
      simp only [List.isEmpty_nil, if_true] at hspec
      unfold parseJob at hspec ⊢
      cases hread : readJobSpec rt.toRuntime (effective entry defaults) with
      | ok found =>
          rw [hread] at hspec
          rw [Option.some.inj hspec]
      | error faults =>
          rw [hread] at hspec
          cases hspec

/-- A job that is to be started by hand only is saved without its trigger, and runs every night. -/
theorem manual_job_runs_nightly :
    ¬∀ (rt : FormRuntime) (state defaults entry : Mapping) (spec : JobSpec)
      (label : Option String), rt.Plain →
      authored rt state defaults = some (entry, []) →
      parseJob rt.toRuntime entry defaults label = (some spec, []) → Shown rt state spec := by
  intro h
  have hcron : (savedJob plainFormRuntime (folderState "manual" "bge-m3") nightlyDefaults).map
      (fun spec => spec.schedule.cron) = some (some "0 3 * * *") := by decide +kernel
  obtain ⟨spec, hspec, hcron⟩ := Option.map_eq_some_iff.mp hcron
  obtain ⟨entry, hsaved, hparsed⟩ := savedJob_eq_some hspec
  obtain ⟨raw, plan, compiled, hraw, hplan, hcompiled, hshown, -⟩ :=
    (h plainFormRuntime _ _ entry spec none plainFormRuntime_plain hsaved hparsed).trigger
  have hmap : some (Val.map [(.str "mode", .str "manual"), (.str "time", .str "05:30")]) =
      some (.map raw) := hraw
  obtain rfl := Val.map.inj (Option.some.inj hmap)
  have hmode : plan.mode = .manual :=
    (Option.some.inj ((planFrom_eq_ok hplan).2.symm.trans (lookup_eq_manual_iff.mpr rfl)))
  rcases compilePlan_eq_ok hcompiled with ⟨-, rfl⟩ | ⟨hother, -⟩
  · rw [hcron] at hshown
    cases hshown
  · exact hother hmode

/-- The same state with a time of its own is saved as it is shown. -/
theorem daily_job_runs_as_shown :
    ∃ spec, savedJob plainFormRuntime (folderState "daily" "bge-m3") nightlyDefaults = some spec ∧
      Shown plainFormRuntime (folderState "daily" "bge-m3") spec := by
  have hcron : (savedJob plainFormRuntime (folderState "daily" "bge-m3") nightlyDefaults).map
      (fun spec => spec.schedule.cron) = some (some "30 5 * * *") := by decide +kernel
  obtain ⟨spec, hspec, -⟩ := Option.map_eq_some_iff.mp hcron
  obtain ⟨entry, hsaved, hparsed⟩ := savedJob_eq_some hspec
  refine ⟨spec, hspec, (shown_iff_nothing_open plainFormRuntime_plain hsaved hparsed).mpr ?_⟩
  exact {
    schedule := ⟨_, rfl, fun hmanual => absurd hmanual (by decide)⟩
    strategy := fun h => by cases (show Val.str "auto" = .null from h)
    words := rfl
    overlap := rfl
    maxDeleteRatio := rfl
    emptySourceGuard := fun h => by cases (show Val.bool true = .null from h)
    model := by decide
    fullScope := fun h => by cases (show Val.str "job" = .null from h)
    appendProbe := fun h => by cases (show Val.str "auto" = .null from h)
    enabled := rfl
    mcpAllowFull := rfl
    expandEmbedded := rfl }

end Papaia.Ingest
