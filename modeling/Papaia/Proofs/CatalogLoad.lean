/-
Module: Papaia.Proofs.CatalogLoad
Purpose: What "applied" says about the job the ingester serves.  The comparison looks only at the
  keys an entry names and at the values as they are written: it takes an older definition for the
  new one where the two differ elsewhere, and it does not know a value the schema converted.
Trusted boundary: none
Main exports: Shows, JobShown, loadedAsWritten_iff, applied_means_served_iff
-/
import Papaia.Ingest.CatalogLoad
import Papaia.Proofs.ManagedJobs

namespace Papaia.Ingest

/-! ### The comparison, key by key -/

theorem heldAt_str (m : Mapping) (key : String) : heldAt m (.str key) = m.get? key := by
  unfold heldAt
  rw [Mapping.get?]
  induction m with
  | nil => rfl
  | cons entry rest ih =>
      obtain ⟨k, v⟩ := entry
      rw [List.find?_cons, List.lookup_cons]
      by_cases hk : k = .str key
      · have heqv : k.eqv (.str key) = true := Scalar.eqv_str.2 hk
        have hbeq : (Scalar.str key == k) = true := by simpa using hk.symm
        rw [heqv, hbeq]
        rfl
      · have heqv : k.eqv (.str key) = false := by
          rw [Bool.eq_false_iff]
          exact fun h => hk (Scalar.eqv_str.1 h)
        have hbeq : (Scalar.str key == k) = false := by simpa using Ne.symm hk
        rw [heqv, hbeq]
        exact ih

theorem subsetEntries_eq_true_iff {wanted served : Mapping} :
    subsetEntries wanted served = true ↔
      ∀ entry ∈ wanted, ∃ w, heldAt served entry.1 = some w ∧ subsetMatches entry.2 w = true := by
  induction wanted with
  | nil => simp [subsetEntries]
  | cons entry rest ih =>
      obtain ⟨key, value⟩ := entry
      rw [subsetEntries, Bool.and_eq_true, ih, List.forall_mem_cons]
      refine and_congr ?_ Iff.rfl
      cases heldAt served key <;> simp

/-- Only a mapping is compared key by key. -/
theorem subsetMatches_of_not_map {v w : Val} (h : v.mapping? = none) :
    subsetMatches v w = v.eqv w := by
  cases v with
  | map m => cases h
  | scalar | list | set => simp [subsetMatches]

@[simp] theorem subsetMatches_map (wanted served : Mapping) :
    subsetMatches (.map wanted) (.map served) = subsetEntries wanted served := by
  simp [subsetMatches]

theorem noExtras_eq_ok {rt : Runtime} {known : List String} {m : Mapping} :
    noExtras rt known m = .ok () ↔ ∀ entry ∈ m, ∃ key ∈ known, entry.1 = .str key := by
  induction m with
  | nil => simp [noExtras]
  | cons entry rest ih =>
      obtain ⟨key, value⟩ := entry
      rw [List.forall_mem_cons]
      cases key with
      | str text =>
          rw [noExtras, Checked.also_eq_ok, ih]
          refine and_congr ?_ Iff.rfl
          by_cases hknown : text ∈ known <;> simp [hknown]
      | null | bool | int | float | bytes | stamp => simp [noExtras]

theorem get?_of_mem {m : Mapping} (hnodup : (m.map Prod.fst).Nodup) {key : String} {v : Val}
    (h : (Scalar.str key, v) ∈ m) : m.get? key = some v := by
  induction m with
  | nil => cases h
  | cons entry rest ih =>
      obtain ⟨k, w⟩ := entry
      rw [List.map_cons, List.nodup_cons] at hnodup
      rcases List.mem_cons.1 h with heq | hrest
      · obtain ⟨rfl, rfl⟩ := Prod.mk.inj heq
        simp [Mapping.get?]
      · have hne : (Scalar.str key == k) = false := by
          rw [beq_eq_false_iff_ne]
          rintro rfl
          exact hnodup.1 (List.mem_map.2 ⟨_, hrest, rfl⟩)
        rw [Mapping.get?, List.lookup_cons, hne]
        exact ih hnodup.2 hrest

theorem mem_of_lookup {α β : Type*} [DecidableEq α] {entries : List (α × β)} {key : α} {v : β}
    (h : entries.lookup key = some v) : (key, v) ∈ entries := by
  obtain ⟨before, behind, rfl, _⟩ := List.lookup_eq_some_iff.1 h
  simp

/-- The comparison at one key. -/
def FoundAt (wanted served : Mapping) (key : String) : Prop :=
  ∀ v, wanted.get? key = some v → ∃ w, served.get? key = some w ∧ subsetMatches v w = true

/-- A mapping with known keys only is compared one known key after the other. -/
theorem subsetEntries_iff_of_known {wanted served : Mapping} {known : List String}
    (hnodup : (wanted.map Prod.fst).Nodup)
    (hknown : ∀ entry ∈ wanted, ∃ key ∈ known, entry.1 = .str key) :
    subsetEntries wanted served = true ↔ ∀ key ∈ known, FoundAt wanted served key := by
  rw [subsetEntries_eq_true_iff]
  constructor
  · intro h key _ v hv
    have := h _ (mem_of_lookup hv)
    rwa [heldAt_str] at this
  · intro h entry hentry
    obtain ⟨key, hkey, heq⟩ := hknown entry hentry
    rw [heq, heldAt_str]
    exact h key hkey entry.2 (get?_of_mem hnodup (by rw [← heq]; exact hentry))

/-! ### What a value has to be written as -/

def IsText (v : Val) : Prop :=
  ∃ text, v = .str text

/-- A number or a truth value, not a text of one. -/
def IsNumber (v : Val) : Prop :=
  ∃ s q, v = .scalar s ∧ s.number? = some q

def IsTextList (v : Val) : Prop :=
  ∃ texts : List String, v = .list (texts.map .str)

def OrNull (plain : Val → Prop) (v : Val) : Prop :=
  v = .null ∨ plain v

/-- Against the reported value of any job, a value the schema reads is found exactly when it is
written plainly and reads as what that job has. -/
def Shows {α : Type} (read : Val → Checked α) (dump : α → Val) (plain : Val → Prop) : Prop :=
  ∀ v a, read v = .ok a → ∀ b, subsetMatches v (dump b) = true ↔ plain v ∧ a = b

theorem readStr_eq_ok {v : Val} {text : String} : readStr v = .ok text ↔ laxText v = some text := by
  unfold readStr
  cases laxText v <;> simp

theorem shows_of_text {read : Val → Checked String}
    (hread : ∀ v text, read v = .ok text → laxText v = some text) :
    Shows read Val.str IsText := by
  intro v a h b
  have hlax := hread v a h
  cases hv : v.str? with
  | some text =>
      obtain rfl := Val.str?_eq_some.1 hv
      obtain rfl := Option.some.inj hlax
      rw [subsetMatches_of_not_map rfl, eqv_str]
      simp [IsText]
  | none =>
      have hnot : ∀ text, v ≠ .str text := by
        rintro text rfl
        cases hv
      have hmap : v.mapping? = none := by
        cases v with
        | map m => cases hlax
        | scalar | list | set => rfl
      rw [subsetMatches_of_not_map hmap, eqv_str]
      refine iff_of_false (hnot b) ?_
      rintro ⟨⟨text, htext⟩, _⟩
      exact hnot text htext

theorem shows_readStr : Shows readStr Val.str IsText :=
  shows_of_text fun _ _ h => readStr_eq_ok.1 h

theorem shows_readPattern (accepts : String → Bool) : Shows (readPattern accepts) Val.str IsText :=
  shows_of_text fun _ _ h => (readPattern_eq_ok.1 h).1

theorem laxText_of_readFilledStr {v : Val} {text : String} (h : readFilledStr v = .ok text) :
    laxText v = some text := by
  rw [← readStr_eq_ok]
  unfold readFilledStr at h
  split at h
  next => cases h
  next => exact h

theorem shows_readFilledStr : Shows readFilledStr Val.str IsText :=
  shows_of_text fun _ _ h => laxText_of_readFilledStr h

theorem shows_readTemplate : Shows readTemplate Val.str IsText := by
  apply shows_of_text
  intro v text h
  unfold readTemplate at h
  split at h
  next found hfound =>
    split at h
    · rw [← readStr_eq_ok, hfound, Except.ok.inj h]
    · cases h
  next hother => exact absurd h (hother text)

theorem eqv_of_number {s t : Scalar} {q : Rat} (hs : s.number? = none) (ht : t.number? = some q) :
    s.eqv t = false := by
  simp [Scalar.eqv, hs, ht]

/-- A reading of scalars that takes numbers by what they count, and a report that says the count. -/
theorem shows_of_number {α : Type} {read : Val → Checked α} (dump : α → Scalar)
    (hscalar : ∀ v a, read v = .ok a → ∃ s, v = .scalar s)
    (hnumber : ∀ s q a, s.number? = some q → read (.scalar s) = .ok a →
      (dump a).number? = some q)
    (hdump : ∀ s a, s.number? = none → read (.scalar s) = .ok a →
      ∀ b, s.eqv (dump b) = false)
    (hinj : ∀ a b q, (dump a).number? = some q → (dump b).number? = some q → a = b) :
    Shows read (fun a => .scalar (dump a)) IsNumber := by
  intro v a h b
  obtain ⟨s, rfl⟩ := hscalar v a h
  rw [subsetMatches_of_not_map rfl, Val.eqv]
  cases hs : s.number? with
  | none =>
      rw [hdump s a hs h b]
      refine iff_of_false (by simp) ?_
      rintro ⟨⟨t, q, heq, ht⟩, _⟩
      obtain rfl := Val.scalar.inj heq
      rw [hs] at ht
      cases ht
  | some q =>
      have ha := hnumber s q a hs h
      constructor
      · intro heqv
        refine ⟨⟨s, q, rfl, hs⟩, ?_⟩
        rcases Scalar.eqv_cases heqv with heq | ⟨p, hp, hb⟩
        · exact hinj a b q ha (heq ▸ hs)
        · rw [hs] at hp
          exact hinj a b q ha (by rw [hb, hp])
      · rintro ⟨_, rfl⟩
        unfold Scalar.eqv
        rw [hs, ha]
        simp

theorem shows_readInt (rt : Runtime) : Shows (readInt rt) Val.int IsNumber := by
  apply shows_of_number Scalar.int
  · exact fun _ _ h => readInt_scalar h
  · intro s q i hs h
    rw [(readInt_number rt hs).1 h]
    rfl
  · exact fun s i hs _ b => eqv_of_number hs rfl
  · intro a b q ha hb
    simp only [Scalar.number?, Option.some.injEq] at ha hb
    exact_mod_cast ha.trans hb.symm

theorem shows_readBounded (rt : Runtime) (low : Int) (high : Option Int) :
    Shows (readBounded rt low high) Val.int IsNumber := by
  intro v i h
  exact shows_readInt rt v i (readBounded_eq_ok.1 h).1

theorem shows_readBool : Shows readBool Val.bool IsNumber := by
  apply shows_of_number Scalar.bool
  · exact fun _ _ h => readBool_scalar h
  · intro s q b hs h
    rw [(readBool_number hs).1 h]
    rfl
  · exact fun s a hs _ b => eqv_of_number hs rfl
  · intro a b q ha hb
    have heq : (if a then (1 : Rat) else 0) = if b then 1 else 0 :=
      (Option.some.inj ha).trans (Option.some.inj hb).symm
    cases a <;> cases b <;> simp_all

/-- No text is a number, so the report of a ratio that was one is not found. -/
theorem shows_readRatio (rt : Runtime) : Shows (readRatio rt) Val.float IsNumber := by
  apply shows_of_number Scalar.float
  · exact fun _ _ h => readRatio_scalar h
  · intro s q f hs h
    rw [((readRatio_number rt hs).1 h).1]
    rfl
  · intro s f hs h b
    cases s with
    | bool | int => simp [Scalar.number?] at hs
    | float g =>
        cases g with
        | finite p => simp [Scalar.number?] at hs
        | infinite negative => cases negative <;> cases h
        | nan => cases h
    | null | str | bytes | stamp => cases b <;> simp [Scalar.eqv, Scalar.number?]
  · intro a b q ha hb
    cases a <;> cases b <;> simp_all [Scalar.number?]

/-- A table that spells every choice in one way. -/
structure Spells {α : Type} [DecidableEq α] (table : List (String × α)) : Prop where
  lookup_word : ∀ a, table.lookup (wordOf table a) = some a
  word_lookup : ∀ word a, table.lookup word = some a → wordOf table a = word

theorem shows_readChoice {α : Type} [DecidableEq α] {table : List (String × α)}
    (spells : Spells table) :
    Shows (readChoice table) (fun a => .str (wordOf table a)) IsText := by
  intro v a h b
  unfold readChoice at h
  split at h
  next found hfound =>
    obtain ⟨word, hword, hlookup⟩ := Option.bind_eq_some_iff.1 hfound
    obtain rfl := Val.str?_eq_some.1 hword
    obtain rfl := Except.ok.inj h
    rw [subsetMatches_of_not_map rfl, eqv_str]
    constructor
    · intro heq
      refine ⟨⟨word, rfl⟩, ?_⟩
      rw [Scalar.str.inj (Val.scalar.inj heq), spells.lookup_word] at hlookup
      exact (Option.some.inj hlookup).symm
    · rintro ⟨_, rfl⟩
      rw [spells.word_lookup word _ hlookup]
  next => cases h

theorem spells_of_table {α : Type} [DecidableEq α] {table : List (String × α)}
    (hall : ∀ a, table.lookup (wordOf table a) = some a)
    (hwords : ∀ entry ∈ table, wordOf table entry.2 = entry.1) : Spells table where
  lookup_word := hall
  word_lookup word a h := by
    have hmem : (word, a) ∈ table := mem_of_lookup h
    exact hwords _ hmem

theorem spells_mode : Spells Mode.table :=
  spells_of_table (fun a => by cases a <;> rfl) (by decide)

theorem spells_fullScope : Spells FullScope.table :=
  spells_of_table (fun a => by cases a <;> rfl) (by decide)

theorem spells_appendProbe : Spells AppendProbe.table :=
  spells_of_table (fun a => by cases a <;> rfl) (by decide)

theorem spells_runOnStartup : Spells RunOnStartup.table :=
  spells_of_table (fun a => by cases a <;> rfl) (by decide)

theorem spells_chunkStrategy : Spells ChunkStrategy.table :=
  spells_of_table (fun a => by cases a <;> rfl) (by decide)

theorem eqvList_texts {items : List Val} {texts : List String} :
    Val.eqvList items (texts.map .str) = true ↔ items = texts.map .str := by
  induction items generalizing texts with
  | nil => cases texts <;> simp [Val.eqvList]
  | cons item rest ih =>
      cases texts with
      | nil => simp [Val.eqvList]
      | cons text others => simp [Val.eqvList, eqv_str, ih]

theorem shows_readStrList : Shows readStrList dumpTexts IsTextList := by
  intro v texts h b
  cases v with
  | scalar | map => cases h
  | set items =>
      rw [subsetMatches_of_not_map rfl, dumpTexts]
      refine iff_of_false (by simp [Val.eqv]) ?_
      rintro ⟨⟨_, heq⟩, _⟩
      cases heq
  | list items =>
      rw [subsetMatches_of_not_map rfl, dumpTexts, Val.eqv, eqvList_texts]
      constructor
      · rintro rfl
        refine ⟨⟨b, rfl⟩, ?_⟩
        rw [readStrList_texts] at h
        exact (Except.ok.inj h).symm
      · rintro ⟨⟨found, heq⟩, rfl⟩
        obtain rfl := Val.list.inj heq
        rw [readStrList_texts] at h
        rw [Except.ok.inj h]

theorem shows_readNullable {α : Type} {read : Val → Checked α} {dump : α → Val}
    {plain : Val → Prop} (h : Shows read dump plain) (hnull : ∀ a, dump a ≠ .null) :
    Shows (readNullable read) (dumpOption dump) (OrNull plain) := by
  have eqv_null : ∀ w, (Val.null).eqv w = true → w = .null := fun w heqv =>
    (eqv_null_iff heqv).1 rfl
  intro v found hread b
  rcases readNullable_eq_ok.1 hread with ⟨rfl, rfl⟩ | ⟨hv, a, ha, rfl⟩
  · cases b with
    | none => exact iff_of_true rfl ⟨.inl rfl, rfl⟩
    | some b =>
        rw [subsetMatches_of_not_map rfl, dumpOption]
        exact iff_of_false (fun heqv => hnull b (eqv_null _ heqv)) (fun hsame => by cases hsame.2)
  · cases b with
    | none =>
        refine iff_of_false ?_ (fun hsame => by cases hsame.2)
        intro heqv
        cases hmap : v.mapping? with
        | none =>
            rw [subsetMatches_of_not_map hmap] at heqv
            exact hv ((eqv_null_iff heqv).2 rfl)
        | some m =>
            obtain rfl := Val.mapping?_eq_some.1 hmap
            simp [subsetMatches, dumpOption] at heqv
    | some b =>
        rw [dumpOption, h v a ha b, Option.some.injEq]
        refine and_congr ?_ Iff.rfl
        exact ⟨.inr, fun hplain => hplain.resolve_left hv⟩

/-! ### One key of a mapping -/

/-- Where a key is named, its value is written plainly and the two jobs have the same there. -/
def Named (m : Mapping) (key : String) (plain : Val → Prop) (same : Prop) : Prop :=
  ∀ v, m.get? key = some v → plain v ∧ same

theorem foundAt_iff {α : Type} {read : Val → Checked α} {dump : α → Val} {plain : Val → Prop}
    {m served : Mapping} {key : String} {absent : Checked α} {a b : α}
    (hshows : Shows read dump plain) (hfield : field m key absent read = .ok a)
    (hserved : served.get? key = some (dump b)) :
    FoundAt m served key ↔ Named m key plain (a = b) := by
  unfold FoundAt Named
  refine forall_congr' fun v => ?_
  refine imp_congr_right fun hv => ?_
  rw [field_eq_ok, hv] at hfield
  rw [← hshows v a hfield b, hserved]
  simp

/-! ### The sections -/

section Sections

variable {rt : Runtime} {m : Mapping}

def FiltersShown (m : Mapping) (a b : FiltersSpec) : Prop :=
  Named m "include" IsTextList (a.includes = b.includes) ∧
    Named m "exclude" IsTextList (a.exclude = b.exclude) ∧
    Named m "max_file_bytes" (OrNull IsNumber) (a.maxFileBytes = b.maxFileBytes)

theorem filters_found {a b : FiltersSpec} (hnodup : (m.map Prod.fst).Nodup)
    (h : readFilters rt (.map m) = .ok a) :
    subsetEntries m b.dump = true ↔ FiltersShown m a b := by
  obtain ⟨h1, h2, h3, hextra⟩ := readFilters_eq_ok.1 h
  rw [subsetEntries_iff_of_known hnodup (noExtras_eq_ok.1 hextra)]
  simp only [List.forall_mem_cons, List.not_mem_nil, false_imp_iff, implies_true, and_true]
  exact and_congr (foundAt_iff shows_readStrList h1 rfl)
    (and_congr (foundAt_iff shows_readStrList h2 rfl)
      (foundAt_iff (shows_readNullable (shows_readBounded rt 1 none) (by simp)) h3 rfl))

def ScheduleShown (m : Mapping) (a b : ScheduleSpec) : Prop :=
  Named m "cron" (OrNull IsText) (a.cron = b.cron) ∧
    Named m "every" (OrNull IsText) (a.every = b.every) ∧
    Named m "timezone" (OrNull IsText) (a.timezone = b.timezone) ∧
    Named m "jitter_seconds" IsNumber (a.jitterSeconds = b.jitterSeconds) ∧
    Named m "misfire_grace_seconds" IsNumber (a.misfireGraceSeconds = b.misfireGraceSeconds) ∧
    Named m "run_on_startup" IsText (a.runOnStartup = b.runOnStartup)

theorem schedule_found {a b : ScheduleSpec} (hnodup : (m.map Prod.fst).Nodup)
    (h : readSchedule rt (.map m) = .ok a) :
    subsetEntries m b.dump = true ↔ ScheduleShown m a b := by
  obtain ⟨h1, h2, h3, h4, h5, h6, hextra, _⟩ := readSchedule_eq_ok.1 h
  have htext := shows_readNullable shows_readStr (by simp)
  have hnumber := shows_readBounded rt 0 none
  rw [subsetEntries_iff_of_known hnodup (noExtras_eq_ok.1 hextra)]
  simp only [List.forall_mem_cons, List.not_mem_nil, false_imp_iff, implies_true, and_true]
  exact and_congr (foundAt_iff htext h1 rfl) (and_congr (foundAt_iff htext h2 rfl)
    (and_congr (foundAt_iff htext h3 rfl) (and_congr (foundAt_iff hnumber h4 rfl)
      (and_congr (foundAt_iff hnumber h5 rfl)
        (foundAt_iff (shows_readChoice spells_runOnStartup) h6 rfl)))))

def ChunkingShown (m : Mapping) (a b : ChunkingSpec) : Prop :=
  Named m "strategy" IsText (a.strategy = b.strategy) ∧
    Named m "words" IsNumber (a.words = b.words) ∧
    Named m "overlap" IsNumber (a.overlap = b.overlap)

theorem chunking_found {a b : ChunkingSpec} (hnodup : (m.map Prod.fst).Nodup)
    (h : readChunking rt (.map m) = .ok a) :
    subsetEntries m b.dump = true ↔ ChunkingShown m a b := by
  obtain ⟨h1, h2, h3, hextra, _⟩ := readChunking_eq_ok.1 h
  rw [subsetEntries_iff_of_known hnodup (noExtras_eq_ok.1 hextra)]
  simp only [List.forall_mem_cons, List.not_mem_nil, false_imp_iff, implies_true, and_true]
  exact and_congr (foundAt_iff (shows_readChoice spells_chunkStrategy) h1 rfl)
    (and_congr (foundAt_iff (shows_readBounded rt 1 none) h2 rfl)
      (foundAt_iff (shows_readBounded rt 0 none) h3 rfl))

def EmbeddingShown (m : Mapping) (a b : EmbeddingSpec) : Prop :=
  Named m "model" (OrNull IsText) (a.model = b.model) ∧
    Named m "batch_size" (OrNull IsNumber) (a.batchSize = b.batchSize)

theorem embedding_found {a b : EmbeddingSpec} (hnodup : (m.map Prod.fst).Nodup)
    (h : readEmbedding rt (.map m) = .ok a) :
    subsetEntries m b.dump = true ↔ EmbeddingShown m a b := by
  obtain ⟨h1, h2, hextra⟩ := readEmbedding_eq_ok.1 h
  rw [subsetEntries_iff_of_known hnodup (noExtras_eq_ok.1 hextra)]
  simp only [List.forall_mem_cons, List.not_mem_nil, false_imp_iff, implies_true, and_true]
  exact and_congr (foundAt_iff (shows_readNullable shows_readStr (by simp)) h1 rfl)
    (foundAt_iff (shows_readNullable (shows_readBounded rt 1 none) (by simp)) h2 rfl)

def SafetyShown (m : Mapping) (a b : SafetySpec) : Prop :=
  Named m "max_delete_ratio" IsNumber (a.maxDeleteRatio = b.maxDeleteRatio) ∧
    Named m "empty_source_guard" IsNumber (a.emptySourceGuard = b.emptySourceGuard)

theorem safety_found {a b : SafetySpec} (hnodup : (m.map Prod.fst).Nodup)
    (h : readSafety rt (.map m) = .ok a) :
    subsetEntries m b.dump = true ↔ SafetyShown m a b := by
  obtain ⟨h1, h2, hextra⟩ := readSafety_eq_ok.1 h
  rw [subsetEntries_iff_of_known hnodup (noExtras_eq_ok.1 hextra)]
  simp only [List.forall_mem_cons, List.not_mem_nil, false_imp_iff, implies_true, and_true]
  exact and_congr (foundAt_iff (shows_readRatio rt) h1 rfl) (foundAt_iff shows_readBool h2 rfl)

/-- Every key of a payload is a text, and its value comes back from the report of that key. -/
def PayloadShown (r : Reporting) (entries : Mapping) (reported : List (String × Val)) : Prop :=
  ∀ entry ∈ entries, ∃ key v, entry.1 = .str key ∧ reported.lookup key = some v ∧
    subsetMatches entry.2 (r.json v) = true

def TargetShown (r : Reporting) (m : Mapping) (a b : TargetSpec) : Prop :=
  Named m "collection" IsText (a.collection = b.collection) ∧
    Named m "connection" IsText (a.connection = b.connection) ∧
    Named m "acl_tags" IsTextList (a.aclTags = b.aclTags) ∧
    ∀ entries, m.get? "extra_payload" = some (.map entries) →
      PayloadShown r entries b.extraPayload

theorem get?_map_str {α : Type} (f : α → Val) (entries : List (String × α)) (key : String) :
    Mapping.get? (entries.map fun entry => (.str entry.1, f entry.2)) key =
      (entries.lookup key).map f := by
  induction entries with
  | nil => rfl
  | cons entry rest ih =>
      obtain ⟨k, v⟩ := entry
      rw [List.map_cons, get?_cons, List.lookup_cons, ih]
      by_cases hk : key = k
      · simp [hk]
      · have hne : (key == k) = false := by simpa using hk
        simp [hk, hne]

theorem eqv_of_str {text : String} {s : Scalar} (h : (Scalar.str text).eqv s = true) :
    s = .str text := by
  rcases Scalar.eqv_cases h with rfl | ⟨q, hq, _⟩
  · rfl
  · cases hq

theorem heldAt_payload {r : Reporting} {payload : List (String × Val)} {key : Scalar} {w : Val} :
    heldAt (payload.map fun entry => (Scalar.str entry.1, r.json entry.2)) key = some w ↔
      ∃ text v, key = .str text ∧ payload.lookup text = some v ∧ r.json v = w := by
  cases key with
  | str text =>
      rw [heldAt_str, get?_map_str, Option.map_eq_some_iff]
      simp
  | null | bool | int | float | bytes | stamp =>
      refine iff_of_false ?_ (by simp)
      unfold heldAt
      rw [Option.map_eq_some_iff]
      rintro ⟨found, hfound, _⟩
      obtain ⟨entry, _, rfl⟩ := List.mem_map.1 (List.mem_of_find?_eq_some hfound)
      have heqv := List.find?_some hfound
      cases eqv_of_str heqv

theorem payload_found {r : Reporting} {entries : Mapping} {payload : List (String × Val)} :
    subsetEntries entries (payload.map fun entry => (.str entry.1, r.json entry.2)) = true ↔
      PayloadShown r entries payload := by
  rw [subsetEntries_eq_true_iff]
  refine forall₂_congr fun entry _ => ?_
  simp only [heldAt_payload]
  constructor
  · rintro ⟨_, ⟨key, v, hkey, hv, rfl⟩, hmatch⟩
    exact ⟨key, v, hkey, hv, hmatch⟩
  · rintro ⟨key, v, hkey, hv, hmatch⟩
    exact ⟨_, ⟨key, v, hkey, hv, rfl⟩, hmatch⟩

theorem readTarget_eq_ok {spec : TargetSpec} :
    readTarget rt (.map m) = .ok spec ↔
      field m "collection" missing (readPattern isCollection) = .ok spec.collection ∧
      field m "connection" missing (readPattern Text.isSlug) = .ok spec.connection ∧
      field m "acl_tags" (.ok []) readStrList = .ok spec.aclTags ∧
      field m "extra_payload" (.ok []) (readPayload rt) = .ok spec.extraPayload ∧
      noExtras rt ["collection", "connection", "acl_tags", "extra_payload"] m = .ok () := by
  simp only [readTarget, readMapping, Checked.also_eq_ok, Checked.both_eq_ok, Checked.of_eq_ok]
  constructor
  · rintro ⟨⟨_, _, ⟨_, _, ⟨_, _, ⟨_, _, rfl, h1, rfl⟩, h2, rfl⟩, h3, rfl⟩, h4, rfl⟩, hextra⟩
    exact ⟨h1, h2, h3, h4, hextra⟩
  · rintro ⟨h1, h2, h3, h4, hextra⟩
    exact ⟨⟨_, _, ⟨_, _, ⟨_, _, ⟨_, _, rfl, h1, rfl⟩, h2, rfl⟩, h3, rfl⟩, h4, rfl⟩, hextra⟩

theorem target_found {r : Reporting} {a b : TargetSpec} (hnodup : (m.map Prod.fst).Nodup)
    (h : readTarget rt (.map m) = .ok a) :
    subsetEntries m (b.dump r) = true ↔ TargetShown r m a b := by
  obtain ⟨h1, h2, h3, h4, hextra⟩ := readTarget_eq_ok.1 h
  rw [subsetEntries_iff_of_known hnodup (noExtras_eq_ok.1 hextra)]
  simp only [List.forall_mem_cons, List.not_mem_nil, false_imp_iff, implies_true, and_true]
  refine and_congr (foundAt_iff (shows_readPattern _) h1 rfl)
    (and_congr (foundAt_iff (shows_readPattern _) h2 rfl)
      (and_congr (foundAt_iff shows_readStrList h3 rfl) ?_))
  constructor
  · intro hfound entries hentries
    obtain ⟨w, hw, hmatch⟩ := hfound _ hentries
    obtain rfl := Option.some.inj hw
    rw [subsetMatches_map] at hmatch
    exact payload_found.1 hmatch
  · intro hshown v hv
    rw [field_eq_ok, hv] at h4
    cases v with
    | scalar | list | set => cases h4
    | map entries =>
        refine ⟨_, rfl, ?_⟩
        rw [subsetMatches_map]
        exact payload_found.2 (hshown entries hv)

end Sections

/-! ### The source -/

def SourceShape.Plain : SourceShape → Val → Prop
  | .required | .text _ => IsText
  | .secret => fun _ => True
  | .port _ | .flag _ => IsNumber

/-- Where a key of a source is named: a credential has to be set in the reported job, any other
value has to be written plainly and be the same. -/
def ValueShown (m : Mapping) (key : String) (shape : SourceShape) (a b : SourceSpec) : Prop :=
  if shape = .secret then
    ∀ v, m.get? key = some v → ∃ reference, b.values.lookup key = some (.secret (some reference))
  else Named m key shape.Plain (a.values.lookup key = b.values.lookup key)

def SourceShown (m : Mapping) (a b : SourceSpec) : Prop :=
  a.type = b.type ∧ Named m "label" IsText (a.label = b.label) ∧
    Named m "rclone_flags" IsTextList (a.rcloneFlags = b.rcloneFlags) ∧
    ∀ entry ∈ sourceModel a.type, ValueShown m entry.1 entry.2 a b

/-- What a key of a shape can hold. -/
def SourceShape.Holds : SourceShape → SourceValue → Prop
  | .required, value | .text _, value => ∃ text, value = .text text
  | .secret, value => ∃ reference, value = .secret reference
  | .port _, value => ∃ number, value = .port number
  | .flag _, value => ∃ b, value = .flag b

/-- The values of a source have the keys and the shapes of its model. -/
def SourceSpec.Shaped (source : SourceSpec) : Prop :=
  ∀ entry ∈ sourceModel source.type, ∃ value, source.values.lookup entry.1 = some value ∧
    entry.2.Holds value

theorem readValues_lookup {rt : Runtime} {m : Mapping} {model : List (String × SourceShape)}
    {values : List (String × SourceValue)} (hnodup : (model.map Prod.fst).Nodup)
    (h : readValues rt m model = .ok values) :
    ∀ entry ∈ model, ∃ value, values.lookup entry.1 = some value ∧
      field m entry.1 entry.2.absent (entry.2.read rt) = .ok value := by
  induction model generalizing values with
  | nil => simp
  | cons head rest ih =>
      obtain ⟨key, shape⟩ := head
      rw [readValues] at h
      simp only [Checked.both_eq_ok, Checked.of_eq_ok] at h
      obtain ⟨_, others, ⟨_, value, rfl, hvalue, rfl⟩, hothers, rfl⟩ := h
      rw [List.map_cons, List.nodup_cons] at hnodup
      intro entry hentry
      rcases List.mem_cons.1 hentry with rfl | hrest
      · exact ⟨value, by simp, hvalue⟩
      · obtain ⟨found, hlookup, hfield⟩ := ih hnodup.2 hothers entry hrest
        have hne : (entry.1 == key) = false := by
          rw [beq_eq_false_iff_ne]
          intro heq
          exact hnodup.1 (List.mem_map.2 ⟨entry, hrest, heq⟩)
        exact ⟨found, by rw [List.lookup_cons, hne]; exact hlookup, hfield⟩

theorem sourceModel_nodup (type : SourceType) : ((sourceModel type).map Prod.fst).Nodup := by
  cases type <;> decide

theorem readSource_eq_ok {rt : Runtime} {m : Mapping} {source : SourceSpec}
    (h : readSource rt (.map m) = .ok source) :
    m.get? "type" = some (.str source.type.word) ∧
      field m "label" missing (readPattern Text.isSlug) = .ok source.label ∧
      field m "rclone_flags" (.ok []) readStrList = .ok source.rcloneFlags ∧
      readValues rt m (sourceModel source.type) = .ok source.values ∧
      noExtras rt ("type" :: "label" :: "rclone_flags" :: (sourceModel source.type).map (·.1)) m =
        .ok () := by
  unfold readSource at h
  dsimp only at h
  split at h
  next => cases h
  next tag htag =>
    split at h
    next => cases h
    next type htype =>
      rw [Checked.within_eq_ok, Checked.also_eq_ok] at h
      simp only [Checked.both_eq_ok, Checked.of_eq_ok] at h
      obtain ⟨⟨_, _, ⟨_, _, ⟨_, _, rfl, h1, rfl⟩, h2, rfl⟩, h3, rfl⟩, hextra⟩ := h
      obtain ⟨word, hword, hlookup⟩ := Option.bind_eq_some_iff.1 htype
      obtain rfl := Val.str?_eq_some.1 hword
      have hsame : word = type.word := by
        have hmem := mem_of_lookup hlookup
        revert hmem
        cases type <;> simp [SourceType.table, SourceType.word]
      exact ⟨hsame ▸ htag, h1, h2, h3, hextra⟩

theorem holds_of_field {rt : Runtime} {m : Mapping} {key : String} {shape : SourceShape}
    {value : SourceValue} (h : field m key shape.absent (shape.read rt) = .ok value) :
    shape.Holds value := by
  rw [field_eq_ok] at h
  cases shape <;> split at h <;>
    simp only [SourceShape.read, SourceShape.absent, Checked.both_eq_ok, Checked.of_eq_ok,
      missing, Checked.fault_ne_ok, Except.ok.injEq] at h
  all_goals first
    | obtain ⟨_, found, rfl, _, rfl⟩ := h
      exact ⟨found, rfl⟩
    | exact ⟨_, h.symm⟩

theorem shaped_of_readSource {rt : Runtime} {m : Mapping} {source : SourceSpec}
    (h : readSource rt (.map m) = .ok source) : source.Shaped := by
  obtain ⟨_, _, _, hvalues, _⟩ := readSource_eq_ok h
  intro entry hentry
  obtain ⟨value, hlookup, hfield⟩ :=
    readValues_lookup (sourceModel_nodup source.type) hvalues entry hentry
  exact ⟨value, hlookup, holds_of_field hfield⟩

theorem of_both_eq_ok {α β : Type} {f : α → β} {x : Checked α} {b : β} :
    (Checked.of f).both x = .ok b ↔ ∃ a, x = .ok a ∧ f a = b := by
  simp

/-- A value of a source against the report of another one of its shape. -/
theorem value_matches_iff {rt : Runtime} {r : Reporting} {shape : SourceShape} {v : Val}
    {a b : SourceValue} (hsecret : shape ≠ .secret) (hread : shape.read rt v = .ok a)
    (hholds : shape.Holds b) :
    subsetMatches v (b.dump r) = true ↔ shape.Plain v ∧ a = b := by
  cases shape with
  | required =>
      obtain ⟨text, htext, rfl⟩ := of_both_eq_ok.1 hread
      obtain ⟨other, rfl⟩ := hholds
      rw [SourceValue.dump, shows_readFilledStr v text htext other, SourceValue.text.injEq]
      rfl
  | text default =>
      obtain ⟨text, htext, rfl⟩ := of_both_eq_ok.1 hread
      obtain ⟨other, rfl⟩ := hholds
      rw [SourceValue.dump, shows_readStr v text htext other, SourceValue.text.injEq]
      rfl
  | secret => exact absurd rfl hsecret
  | port default =>
      obtain ⟨i, hi, rfl⟩ := of_both_eq_ok.1 hread
      obtain ⟨other, rfl⟩ := hholds
      rw [SourceValue.dump, shows_readBounded rt 1 (some 65535) v i hi other,
        SourceValue.port.injEq]
      rfl
  | flag default =>
      obtain ⟨i, hi, rfl⟩ := of_both_eq_ok.1 hread
      obtain ⟨other, rfl⟩ := hholds
      rw [SourceValue.dump, shows_readBool v i hi other, SourceValue.flag.injEq]
      rfl

theorem isSecretKey_iff (type : SourceType) :
    ∀ entry ∈ sourceModel type, isSecretKey (.str entry.1) = decide (entry.2 = .secret) := by
  cases type <;> decide

theorem sourceModel_keys (type : SourceType) :
    ∀ entry ∈ sourceModel type, entry.1 ∉ ["type", "label", "rclone_flags"] := by
  cases type <;> decide

theorem get?_without_secrets (m : Mapping) (key : String) :
    Mapping.get? (withoutSecrets m) key =
      if isSecretKey (.str key) then none else m.get? key := by
  cases hsecret : isSecretKey (.str key) with
  | false =>
      exact lookup_filter_of (fun k => !isSecretKey k) m (by simp [hsecret])
  | true =>
      rw [if_pos rfl, Mapping.get?, List.lookup_eq_none_iff]
      intro entry hentry
      have hkeep := (List.mem_filter.1 hentry).2
      rw [bne_iff_ne]
      intro heq
      rw [← heq, hsecret] at hkeep
      cases hkeep

theorem get?_sourceDump {r : Reporting} {source : SourceSpec} {entry : String × SourceShape}
    (hentry : entry ∈ sourceModel source.type) :
    (source.dump r).get? entry.1 = (source.values.lookup entry.1).map (SourceValue.dump r) := by
  have hkeys := sourceModel_keys source.type entry hentry
  simp only [List.mem_cons, List.not_mem_nil, or_false, not_or] at hkeys
  rw [SourceSpec.dump, get?_cons, if_neg hkeys.1, get?_cons, if_neg hkeys.2.1, get?_cons,
    if_neg hkeys.2.2, get?_map_str]

theorem word_injective {a b : SourceType} (h : a.word = b.word) : a = b := by
  have := SourceType.lookup_word a
  rw [h, SourceType.lookup_word] at this
  exact (Option.some.inj this).symm

/-- The credentials an entry names, against the masks of a report. -/
theorem secrets_found_iff {rt : Runtime} {r : Reporting} {m : Mapping} {a b : SourceSpec}
    (hnodup : (m.map Prod.fst).Nodup) (ha : readSource rt (.map m) = .ok a) (hb : b.Shaped)
    (htype : a.type = b.type) :
    ((maskedEntries m).all fun entry => (heldAt (b.dump r) entry.1).any Val.truthy) = true ↔
      ∀ entry ∈ sourceModel a.type, entry.2 = .secret → ValueShown m entry.1 entry.2 a b := by
  -- a credential is reported by its mask, which says whether it is set
  have hmask : ∀ entry ∈ sourceModel a.type, entry.2 = .secret →
      ((heldAt (b.dump r) (.str entry.1)).any Val.truthy = true ↔
        ∃ reference, b.values.lookup entry.1 = some (.secret (some reference))) := by
    intro entry hentry hsecret
    obtain ⟨value, hlookup, hholds⟩ := hb entry (htype ▸ hentry)
    rw [hsecret] at hholds
    obtain ⟨found, rfl⟩ := hholds
    rw [heldAt_str, get?_sourceDump (htype ▸ hentry), hlookup, Option.map_some, Option.any_some]
    cases found with
    | none => simp [SourceValue.dump, r.unset_falsy]
    | some reference => simp [SourceValue.dump, r.mask_truthy]
  rw [List.all_eq_true]
  constructor
  · intro h entry hentry hsecret
    rw [ValueShown, if_pos hsecret]
    intro v hv
    have hkey : isSecretKey (.str entry.1) = true := by
      rw [isSecretKey_iff a.type entry hentry, hsecret]
      rfl
    exact (hmask entry hentry hsecret).1
      (h _ (List.mem_filter.2 ⟨mem_of_lookup hv, hkey⟩))
  · intro h named hnamed
    obtain ⟨hmem, hkey⟩ := List.mem_filter.1 hnamed
    obtain ⟨_, _, _, _, hextra⟩ := readSource_eq_ok ha
    obtain ⟨key, hknown, heq⟩ := noExtras_eq_ok.1 hextra named hmem
    rw [heq] at hkey ⊢
    simp only [List.mem_cons] at hknown
    rcases hknown with rfl | rfl | rfl | hknown
    · cases hkey
    · cases hkey
    · cases hkey
    · obtain ⟨entry, hentry, rfl⟩ := List.mem_map.1 hknown
      have hsecret : entry.2 = .secret := by
        rw [isSecretKey_iff a.type entry hentry] at hkey
        simpa using hkey
      have hshown := h entry hentry hsecret
      rw [ValueShown, if_pos hsecret] at hshown
      exact (hmask entry hentry hsecret).2
        (hshown named.2 (get?_of_mem hnodup (by rw [← heq]; exact hmem)))

/-- A key of a source that is no credential. -/
theorem plainValue_found_iff {rt : Runtime} {r : Reporting} {m : Mapping} {a b : SourceSpec}
    (ha : readSource rt (.map m) = .ok a) (hb : b.Shaped) (htype : a.type = b.type)
    {entry : String × SourceShape} (hentry : entry ∈ sourceModel a.type)
    (hsecret : entry.2 ≠ .secret) :
    FoundAt (withoutSecrets m) (b.dump r) entry.1 ↔
      ValueShown m entry.1 entry.2 a b := by
  obtain ⟨_, _, _, hvalues, _⟩ := readSource_eq_ok ha
  obtain ⟨value, hlookup, hfield⟩ :=
    readValues_lookup (sourceModel_nodup a.type) hvalues entry hentry
  obtain ⟨other, hother, hholds⟩ := hb entry (htype ▸ hentry)
  rw [ValueShown, if_neg hsecret, FoundAt, Named]
  refine forall_congr' fun v => ?_
  rw [get?_without_secrets, isSecretKey_iff a.type entry hentry, decide_eq_false hsecret,
    if_neg Bool.false_ne_true, get?_sourceDump (htype ▸ hentry), hlookup, hother]
  refine imp_congr_right fun hv => ?_
  rw [field_eq_ok, hv] at hfield
  have hmatch := value_matches_iff (r := r) hsecret hfield hholds
  rw [Option.some.injEq, ← hmatch]
  simp

theorem source_found {rt : Runtime} {r : Reporting} {m : Mapping} {a b : SourceSpec}
    (hnodup : (m.map Prod.fst).Nodup) (ha : readSource rt (.map m) = .ok a) (hb : b.Shaped) :
    ((maskedEntries m).all fun entry => (heldAt (b.dump r) entry.1).any Val.truthy) = true ∧
      subsetEntries (withoutSecrets m) (b.dump r) = true ↔
      SourceShown m a b := by
  obtain ⟨htag, hlabel, hflags, _, hextra⟩ := readSource_eq_ok ha
  have hkept : ((withoutSecrets m).map Prod.fst).Nodup :=
    hnodup.sublist (List.filter_sublist.map Prod.fst)
  have hsub : ∀ entry ∈ withoutSecrets m, entry ∈ m := fun entry => List.mem_of_mem_filter
  rw [subsetEntries_iff_of_known hkept fun entry hentry =>
    noExtras_eq_ok.1 hextra entry (hsub entry hentry)]
  have htype : FoundAt (withoutSecrets m) (b.dump r) "type" ↔
      a.type = b.type := by
    unfold FoundAt
    rw [get?_without_secrets, if_neg (by decide), htag]
    constructor
    · intro h
      obtain ⟨w, hw, hmatch⟩ := h _ rfl
      obtain rfl := Option.some.inj hw
      rw [subsetMatches_of_not_map rfl, eqv_str] at hmatch
      exact word_injective (Scalar.str.inj (Val.scalar.inj hmatch))
    · intro heq v hv
      obtain rfl := Option.some.inj hv
      refine ⟨_, rfl, ?_⟩
      rw [subsetMatches_of_not_map rfl, eqv_str, heq]
  have hlabelFound : FoundAt (withoutSecrets m) (b.dump r) "label" ↔
      Named m "label" IsText (a.label = b.label) := by
    have hserved : (b.dump r).get? "label" = some (.str b.label) := rfl
    rw [← foundAt_iff (shows_readPattern _) hlabel hserved]
    simp only [FoundAt, get?_without_secrets]
    rfl
  have hflagsFound :
      FoundAt (withoutSecrets m) (b.dump r) "rclone_flags" ↔
        Named m "rclone_flags" IsTextList (a.rcloneFlags = b.rcloneFlags) := by
    have hserved : (b.dump r).get? "rclone_flags" = some (dumpTexts b.rcloneFlags) := rfl
    rw [← foundAt_iff shows_readStrList hflags hserved]
    simp only [FoundAt, get?_without_secrets]
    rfl
  simp only [List.forall_mem_cons, htype, hlabelFound, hflagsFound, SourceShown]
  by_cases hsame : a.type = b.type
  · rw [secrets_found_iff hnodup ha hb hsame]
    constructor
    · rintro ⟨hsecrets, _, hlabel, hflags, hvalues⟩
      refine ⟨hsame, hlabel, hflags, fun entry hentry => ?_⟩
      by_cases hsecret : entry.2 = .secret
      · exact hsecrets entry hentry hsecret
      · exact (plainValue_found_iff ha hb hsame hentry hsecret).1
          (hvalues entry.1 (List.mem_map.2 ⟨entry, hentry, rfl⟩))
    · rintro ⟨_, hlabel, hflags, hvalues⟩
      refine ⟨fun entry hentry _ => hvalues entry hentry, hsame, hlabel, hflags, ?_⟩
      intro key hkey
      obtain ⟨entry, hentry, rfl⟩ := List.mem_map.1 hkey
      by_cases hsecret : entry.2 = .secret
      · intro v hv
        rw [get?_without_secrets, isSecretKey_iff a.type entry hentry, decide_eq_true hsecret] at hv
        cases hv
      · exact (plainValue_found_iff ha hb hsame hentry hsecret).2 (hvalues entry hentry)
  · simp [hsame]

/-! ### The job -/

/-- What holds of the section under a key, where it is named. -/
def SectionShown (m : Mapping) (key : String) (shown : Mapping → Prop) : Prop :=
  ∀ named, m.get? key = some (.map named) → shown named

/-- An effective mapping of the job `a` against the report of the job `b`: every value it names is
written plainly and is the same in both, and every credential it names is set in `b`. -/
def JobShown (r : Reporting) (job : Mapping) (a b : JobSpec) : Prop :=
  Named job "id" IsText (a.id = b.id) ∧
    Named job "enabled" IsNumber (a.enabled = b.enabled) ∧
    Named job "description" IsText (a.description = b.description) ∧
    SectionShown job "source" (SourceShown · a.source b.source) ∧
    SectionShown job "filters" (FiltersShown · a.filters b.filters) ∧
    SectionShown job "target" (TargetShown r · a.target b.target) ∧
    Named job "mode" IsText (a.mode = b.mode) ∧
    Named job "full_scope" IsText (a.fullScope = b.fullScope) ∧
    Named job "append_probe" IsText (a.appendProbe = b.appendProbe) ∧
    SectionShown job "schedule" (ScheduleShown · a.schedule b.schedule) ∧
    SectionShown job "chunking" (ChunkingShown · a.chunking b.chunking) ∧
    SectionShown job "embedding" (EmbeddingShown · a.embedding b.embedding) ∧
    SectionShown job "safety" (SafetyShown · a.safety b.safety) ∧
    Named job "mcp_allow_full" IsNumber (a.mcpAllowFull = b.mcpAllowFull) ∧
    Named job "expand_embedded" IsNumber (a.expandEmbedded = b.expandEmbedded) ∧
    Named job "source_template" IsText (a.sourceTemplate = b.sourceTemplate)

/-- The comparison of a section: it reads, so it is a mapping. -/
theorem section_foundAt {α : Type} {read : Val → Checked α} {job config reported : Mapping}
    {key : String} {absent : Checked α} {a : α} {shown : Mapping → Prop}
    (hfield : field job key absent read = .ok a)
    (hmap : ∀ v, read v = .ok a → ∃ named, v = .map named)
    (hserved : config.get? key = some (.map reported))
    (hfound : ∀ named, job.get? key = some (.map named) → read (.map named) = .ok a →
      (subsetEntries named reported = true ↔ shown named)) :
    FoundAt job config key ↔ SectionShown job key shown := by
  constructor
  · intro h named hnamed
    obtain ⟨w, hw, hmatch⟩ := h _ hnamed
    rw [hserved] at hw
    obtain rfl := Option.some.inj hw
    rw [subsetMatches_map] at hmatch
    rw [field_eq_ok, hnamed] at hfield
    exact (hfound named hnamed hfield).1 hmatch
  · intro h v hv
    rw [field_eq_ok, hv] at hfield
    obtain ⟨named, rfl⟩ := hmap v hfield
    refine ⟨_, hserved, ?_⟩
    rw [subsetMatches_map]
    exact (hfound named hv hfield).2 (h named hv)

theorem map_of_readMapping {α : Type} {read : Val → Checked α} {v : Val} {a : α}
    (hread : ∀ faults, readMapping v = .error faults → read v = .error faults)
    (h : read v = .ok a) : ∃ m, v = .map m := by
  cases hv : readMapping v with
  | error faults => rw [hread faults hv] at h; cases h
  | ok m => exact ⟨m, readMapping_eq_ok.1 hv⟩

theorem foundAt_put_of_ne {m served : Mapping} {key other : String} {v : Val}
    (h : other ≠ key) : FoundAt (m.put (.str key) v) served other ↔ FoundAt m served other := by
  simp only [FoundAt, Mapping.get?_put_of_ne m v h]

/-- `loaded_as_written` against the report of any job. -/
theorem loadedAsWritten_iff {rt : Runtime} {r : Reporting} {job : Mapping} {a b : JobSpec}
    (hnodup : (job.map Prod.fst).Nodup)
    (hsections : ∀ key m, job.get? key = some (.map m) → (m.map Prod.fst).Nodup)
    (hread : readJobSpec rt job = .ok a) (hb : b.source.Shaped) :
    loadedAsWritten [(.str "config", .map (b.dump r))] job = true ↔ JobShown r job a b := by
  obtain ⟨h1, h2, h3, h4, h5, h6, h7, h8, h9, h10, h11, h12, h13, h14, h15, h16, hextra⟩ :=
    readJobSpec_eq_ok.1 hread
  have hsource : ∃ m, job.get? "source" = some (.map m) ∧ readSource rt (.map m) = .ok a.source := by
    have h := h4
    rw [field_eq_ok] at h
    cases hkey : job.get? "source" with
    | none => rw [hkey] at h; cases h
    | some v =>
        rw [hkey] at h
        cases v with
        | map m => exact ⟨m, rfl, h⟩
        | scalar | list | set => cases h
  obtain ⟨m, hm, hreadSource⟩ := hsource
  have hfound := source_found (r := r) (hsections "source" m hm) hreadSource hb
  have hwanted : mappingOr (job.getD "source") = m := by
    rw [mappingOr, Mapping.getD, hm]
    rfl
  have hconfig : loadedAsWritten [(.str "config", .map (b.dump r))] job =
      ((maskedEntries m).all (fun entry => (heldAt (b.source.dump r) entry.1).any Val.truthy) &&
        subsetEntries (job.put (.str "source") (.map (withoutSecrets m))) (b.dump r)) := by
    rw [← hwanted]
    rfl
  have hknown : ∀ entry ∈ job.put (.str "source") (.map (withoutSecrets m)),
      ∃ key ∈ jobKeys, entry.1 = .str key := by
    intro entry hentry
    have hkeys : entry.1 ∈ (job.put (.str "source") (.map (withoutSecrets m))).map Prod.fst :=
      List.mem_map.2 ⟨entry, hentry, rfl⟩
    have hin : Scalar.str "source" ∈ job.map Prod.fst :=
      List.mem_map.2 ⟨_, mem_of_lookup hm, rfl⟩
    rw [Mapping.keys_put, if_pos hin] at hkeys
    obtain ⟨other, hother, heq⟩ := List.mem_map.1 hkeys
    rw [← heq]
    exact noExtras_eq_ok.1 hextra other hother
  have hplaced : FoundAt (job.put (.str "source") (.map (withoutSecrets m))) (b.dump r) "source" ↔
      subsetEntries (withoutSecrets m) (b.source.dump r) = true := by
    unfold FoundAt
    rw [Mapping.get?_put_self]
    constructor
    · intro h
      obtain ⟨w, hw, hmatch⟩ := h _ rfl
      obtain rfl := Option.some.inj hw
      rwa [subsetMatches_map] at hmatch
    · intro h v hv
      obtain rfl := Option.some.inj hv
      exact ⟨_, rfl, by rwa [subsetMatches_map]⟩
  have hshownSource : SectionShown job "source" (SourceShown · a.source b.source) ↔
      SourceShown m a.source b.source := by
    unfold SectionShown
    rw [hm]
    constructor
    · exact fun h => h m rfl
    · intro h named hnamed
      obtain rfl := Val.map.inj (Option.some.inj hnamed)
      exact h
  have hlift : ∀ {A p q t S R : Prop}, A ∧ p ∧ q ∧ t ∧ S ∧ R ↔ p ∧ q ∧ t ∧ (A ∧ S) ∧ R := by
    tauto
  rw [hconfig, Bool.and_eq_true, subsetEntries_iff_of_known (Mapping.nodup_put hnodup) hknown]
  simp only [jobKeys, List.forall_mem_cons, List.not_mem_nil, false_imp_iff, implies_true, and_true]
  rw [hplaced, hlift, hfound, JobShown, hshownSource]
  refine and_congr ?_ (and_congr ?_ (and_congr ?_ (and_congr Iff.rfl (and_congr ?_ (and_congr ?_
    (and_congr ?_ (and_congr ?_ (and_congr ?_ (and_congr ?_ (and_congr ?_ (and_congr ?_
      (and_congr ?_ (and_congr ?_ (and_congr ?_ ?_)))))))))))))) <;>
    rw [foundAt_put_of_ne (by decide)]
  · exact foundAt_iff (shows_readPattern _) h1 rfl
  · exact foundAt_iff shows_readBool h2 rfl
  · exact foundAt_iff shows_readStr h3 rfl
  · exact section_foundAt h5 (fun _ h => map_of_readMapping (fun _ hv => by rw [readFilters, hv]) h)
      rfl fun named hnamed h => filters_found (hsections _ named hnamed) h
  · exact section_foundAt h6 (fun _ h => map_of_readMapping (fun _ hv => by rw [readTarget, hv]) h)
      rfl fun named hnamed h => target_found (hsections _ named hnamed) h
  · exact foundAt_iff (shows_readChoice spells_mode) h7 rfl
  · exact foundAt_iff (shows_readChoice spells_fullScope) h8 rfl
  · exact foundAt_iff (shows_readChoice spells_appendProbe) h9 rfl
  · exact section_foundAt h10
      (fun _ h => map_of_readMapping (fun _ hv => by rw [readSchedule, hv]) h)
      rfl fun named hnamed h => schedule_found (hsections _ named hnamed) h
  · exact section_foundAt h11
      (fun _ h => map_of_readMapping (fun _ hv => by rw [readChunking, hv]) h)
      rfl fun named hnamed h => chunking_found (hsections _ named hnamed) h
  · exact section_foundAt h12
      (fun _ h => map_of_readMapping (fun _ hv => by rw [readEmbedding, hv]) h)
      rfl fun named hnamed h => embedding_found (hsections _ named hnamed) h
  · exact section_foundAt h13
      (fun _ h => map_of_readMapping (fun _ hv => by rw [readSafety, hv]) h)
      rfl fun named hnamed h => safety_found (hsections _ named hnamed) h
  · exact foundAt_iff shows_readBool h14 rfl
  · exact foundAt_iff shows_readBool h15 rfl
  · exact foundAt_iff shows_readTemplate h16 rfl

/-! ### The job of a run -/

theorem get?_textsEntry (key other : String) (texts : Option (List String)) :
    (textsEntry key texts).get? other =
      if other = key ∧ texts.getD [] ≠ [] then some (.list ((texts.getD []).map .str))
      else none := by
  unfold textsEntry
  cases texts.getD [] with
  | nil => simp [Mapping.get?]
  | cons text rest =>
      rw [get?_cons]
      by_cases h : other = key <;> simp [h, Mapping.get?]

section Run

variable {rt : Runtime} {naming : Naming} {job : ManagedJob} {defaults : Mapping} {spec : JobSpec}

theorem get?_buildJob_filters :
    (buildJob naming job).get? "filters" = job.filtersEntry.get? "filters" := by
  rw [buildJob, get?_append, get?_append]
  exact Option.or_none

/-- A list of texts that the run names is the list of the job. -/
theorem texts_of_filters (key : String) {texts : Option (List String)} {found : List String}
    {named : Mapping} (h : specOf rt defaults (.map (buildJob naming job)) = some spec)
    (hnamed : (buildJob naming job).get? "filters" = some (.map named))
    (hkey : named.get? key = some (.list ((texts.getD []).map .str)))
    (hread : ∀ m : Mapping, readFilters rt (.map m) = .ok spec.filters →
      field m key (.ok []) readStrList = .ok found) : found = texts.getD [] := by
  have hfilters := (readJobSpec_eq_ok.1 (read_of_specOf h)).2.2.2.2.1
  obtain ⟨m, hmerged, hmkey⟩ := merged_value (Mapping.get? defaults "filters") rfl hkey
  rw [field_eq_ok, get?_effective_of_section _ _ (by decide), hnamed] at hfilters
  dsimp only at hfilters
  rw [hmerged] at hfilters
  have hfound := hread m hfilters
  rw [field_eq_ok, hmkey] at hfound
  dsimp only at hfound
  rw [readStrList_texts] at hfound
  exact (Except.ok.inj hfound).symm

theorem get?_filtersEntry (hne : job.includes.getD [] ≠ [] ∨ job.exclude.getD [] ≠ []) :
    (buildJob naming job).get? "filters" =
      some (.map (textsEntry "include" job.includes ++ textsEntry "exclude" job.exclude)) := by
  rw [get?_buildJob_filters, ManagedJob.filtersEntry]
  split
  next hnil =>
    exfalso
    obtain ⟨hincludes, hexclude⟩ := List.append_eq_nil_iff.1 hnil
    rcases hne with hne | hne
    · have hget := get?_textsEntry "include" "include" job.includes
      rw [hincludes, if_pos ⟨rfl, hne⟩] at hget
      cases hget
    · have hget := get?_textsEntry "exclude" "exclude" job.exclude
      rw [hexclude, if_pos ⟨rfl, hne⟩] at hget
      cases hget
  next => rfl

theorem includes_buildJob (h : specOf rt defaults (.map (buildJob naming job)) = some spec)
    (hne : job.includes.getD [] ≠ []) : spec.filters.includes = job.includes.getD [] := by
  refine texts_of_filters "include" h (get?_filtersEntry (.inl hne)) ?_
    fun m hm => (readFilters_eq_ok.1 hm).1
  rw [get?_append, get?_textsEntry, if_pos ⟨rfl, hne⟩, Option.some_or]

theorem exclude_buildJob (h : specOf rt defaults (.map (buildJob naming job)) = some spec)
    (hne : job.exclude.getD [] ≠ []) : spec.filters.exclude = job.exclude.getD [] := by
  refine texts_of_filters "exclude" h (get?_filtersEntry (.inr hne)) ?_
    fun m hm => (readFilters_eq_ok.1 hm).2.1
  rw [get?_append, get?_textsEntry, if_neg (by simp), Option.none_or, get?_textsEntry,
    if_pos ⟨rfl, hne⟩]

/-- The folder of the run is the path of the source. -/
theorem path_buildJob (h : specOf rt defaults (.map (buildJob naming job)) = some spec) :
    spec.source.type = .localFolder ∧
      spec.source.values.lookup "path" = some (.text job.sourcePath) := by
  have hsource := (readJobSpec_eq_ok.1 (read_of_specOf h)).2.2.2.1
  rw [field_eq_ok, get?_effective_of_not_section _ _ (by decide), get?_buildJob_source] at hsource
  obtain ⟨htype, _, _, hvalues, _⟩ := readSource_eq_ok hsource
  have hlocal : spec.source.type = .localFolder := by
    apply word_injective
    exact (Scalar.str.inj (Val.scalar.inj (Option.some.inj htype))).symm
  refine ⟨hlocal, ?_⟩
  obtain ⟨value, hlookup, hfield⟩ := readValues_lookup (sourceModel_nodup _) hvalues
    ("path", .required) (by rw [hlocal]; simp [sourceModel])
  rw [hlookup]
  obtain ⟨text, htext, rfl⟩ := of_both_eq_ok.1 (field_eq_ok.1 hfield)
  have hlax : laxText (.str job.sourcePath) = some text := laxText_of_readFilledStr htext
  rw [Option.some.inj hlax]

end Run

/-- The filters the page compares with, whether or not the entry has the key. -/
theorem wantedFilters_eq (naming : Naming) (job : ManagedJob) :
    mappingOr ((buildJob naming job).getD "filters") =
      textsEntry "include" job.includes ++ textsEntry "exclude" job.exclude := by
  rw [mappingOr, Mapping.getD, get?_buildJob_filters, ManagedJob.filtersEntry]
  split
  next hnil => rw [hnil]; rfl
  next => rfl

theorem listOr_textsEntries (job : ManagedJob) :
    listOr (Mapping.getD (textsEntry "include" job.includes ++ textsEntry "exclude" job.exclude)
        "include") = (job.includes.getD []).map .str ∧
      listOr (Mapping.getD (textsEntry "include" job.includes ++ textsEntry "exclude" job.exclude)
        "exclude") = (job.exclude.getD []).map .str := by
  constructor
  · by_cases hne : job.includes.getD [] = []
    · simp [Mapping.getD, get?_append, get?_textsEntry, hne, listOr, Val.list?]
    · simp [Mapping.getD, get?_append, get?_textsEntry, hne, listOr]
  · by_cases hne : job.exclude.getD [] = []
    · simp [Mapping.getD, get?_append, get?_textsEntry, hne, listOr, Val.list?]
    · simp [Mapping.getD, get?_append, get?_textsEntry, hne, listOr]

theorem sameAt_of_text {config job served wanted : Mapping} {name key text : String}
    (hconfig : config.get? name = some (.map served)) (hserved : served.get? key = some (.str text))
    (hjob : job.get? name = some (.map wanted)) (hwanted : wanted.get? key = some (.str text)) :
    sameAt config job name key = true := by
  have hleft : Mapping.getD (mappingOr (config.getD name)) key = .str text := by
    rw [Mapping.getD, Mapping.getD, hconfig]
    exact congrArg (Option.getD · Val.null) hserved
  have hright : Mapping.getD (mappingOr (job.getD name)) key = .str text := by
    rw [Mapping.getD, Mapping.getD, hjob]
    exact congrArg (Option.getD · Val.null) hwanted
  rw [sameAt, hleft, hright]
  exact eqv_str.2 rfl

/-- `_served_as_written` against the report of the job a run is in the new catalog. -/
theorem servedAsWritten_iff {rt : Runtime} {r : Reporting} {naming : Naming} {job : ManagedJob}
    {defaults : Mapping} {spec : JobSpec}
    (h : specOf rt defaults (.map (buildJob naming job)) = some spec) :
    servedAsWritten [(.str "config", .map (spec.dump r))] (buildJob naming job) = true ↔
      (job.includes.getD [] = [] → spec.filters.includes = []) := by
  obtain ⟨hlocal, hpath⟩ := path_buildJob h
  obtain ⟨_, hcollection, hlabel, _, hconnection⟩ := spec_buildJob h
  have hpathServed : (spec.source.dump r).get? "path" = some (.str job.sourcePath) := by
    have hentry : ("path", SourceShape.required) ∈ sourceModel spec.source.type := by
      rw [hlocal]
      exact List.mem_cons_self
    have hget := get?_sourceDump (r := r) hentry
    rw [hpath] at hget
    exact hget
  have hexclude : Val.eqvList
      (((spec.filters.exclude.map Val.str).take ((job.exclude.getD []).map Val.str).length))
      ((job.exclude.getD []).map .str) = true := by
    rw [eqvList_texts]
    by_cases hne : job.exclude.getD [] = []
    · rw [hne]
      rfl
    · rw [exclude_buildJob h hne, List.take_length]
  have hinclude : Val.eqvList (spec.filters.includes.map .str)
      ((job.includes.getD []).map .str) = true ↔
        (job.includes.getD [] = [] → spec.filters.includes = []) := by
    rw [eqvList_texts]
    by_cases hne : job.includes.getD [] = []
    · simp [hne]
    · simp [hne, includes_buildJob h hne]
  have hcompared : servedAsWritten [(.str "config", .map (spec.dump r))] (buildJob naming job) =
      Val.eqvList (spec.filters.includes.map .str) ((job.includes.getD []).map .str) := by
    have hsourceKey := get?_buildJob_source naming job
    have htargetKey := get?_buildJob_target naming job
    have hpathSame : sameAt (spec.dump r) (buildJob naming job) "source" "path" = true :=
      sameAt_of_text rfl hpathServed hsourceKey rfl
    have hlabelSame : sameAt (spec.dump r) (buildJob naming job) "source" "label" = true :=
      sameAt_of_text rfl rfl hsourceKey (by rw [hlabel]; rfl)
    have hcollectionSame :
        sameAt (spec.dump r) (buildJob naming job) "target" "collection" = true :=
      sameAt_of_text rfl rfl htargetKey (by rw [hcollection]; rfl)
    have hconnectionSame :
        sameAt (spec.dump r) (buildJob naming job) "target" "connection" = true :=
      sameAt_of_text rfl rfl htargetKey (by rw [hconnection]; rfl)
    have hmodelServed : spec.embedding.dump.get? "model" = some (.str job.model) := by
      rw [EmbeddingSpec.dump, model_buildJob h]
      rfl
    have hmodelSame : sameAt (spec.dump r) (buildJob naming job) "embedding" "model" = true :=
      sameAt_of_text rfl hmodelServed (get?_buildJob_embedding naming job) rfl
    have hunfold : servedAsWritten [(.str "config", .map (spec.dump r))] (buildJob naming job) =
        (sameAt (spec.dump r) (buildJob naming job) "source" "path" &&
          sameAt (spec.dump r) (buildJob naming job) "source" "label" &&
          sameAt (spec.dump r) (buildJob naming job) "target" "collection" &&
          sameAt (spec.dump r) (buildJob naming job) "target" "connection" &&
          sameAt (spec.dump r) (buildJob naming job) "embedding" "model" &&
          Val.eqvList (spec.filters.includes.map .str)
            (listOr (Mapping.getD (mappingOr ((buildJob naming job).getD "filters"))
              "include")) &&
          Val.eqvList ((spec.filters.exclude.map Val.str).take
            (listOr (Mapping.getD (mappingOr ((buildJob naming job).getD "filters"))
              "exclude")).length)
            (listOr (Mapping.getD (mappingOr ((buildJob naming job).getD "filters"))
              "exclude"))) := rfl
    rw [hunfold, wantedFilters_eq, (listOr_textsEntries job).1, (listOr_textsEntries job).2,
      hpathSame, hlabelSame, hcollectionSame, hconnectionSame, hmodelSame, hexclude]
    simp
  rw [hcompared, hinclude]

/-! ### Keys of an effective mapping -/

theorem nodup_deepMerge {base override : Mapping} (hbase : (base.map Prod.fst).Nodup)
    (hoverride : (override.map Prod.fst).Nodup) :
    ((deepMerge base override).map Prod.fst).Nodup := by
  rw [deepMerge, List.map_append, List.map_map]
  refine List.nodup_append.2 ⟨hbase, hoverride.sublist (List.filter_sublist.map Prod.fst), ?_⟩
  intro key hkey other hother heq
  obtain ⟨entry, hentry, rfl⟩ := List.mem_map.1 hother
  have hnew := (List.mem_filter.1 hentry).2
  rw [Option.isNone_iff_eq_none, List.lookup_eq_none_iff] at hnew
  obtain ⟨old, hold, hkeyOld⟩ := List.mem_map.1 hkey
  have hne := hnew old hold
  rw [bne_iff_ne] at hne
  exact hne (heq ▸ hkeyOld.symm)

theorem nodup_knownDefaults (defaults : Mapping) :
    ((knownDefaults defaults).map Prod.fst).Nodup := by
  have hkeys : ∀ sections : List String,
      ((sections.filterMap fun key =>
        (defaults.get? key).map fun value => (Scalar.str key, value)).map Prod.fst).Sublist
        (sections.map Scalar.str) := by
    intro sections
    induction sections with
    | nil => exact List.Sublist.refl _
    | cons key rest ih =>
        cases hkey : defaults.get? key with
        | none =>
            rw [List.filterMap_cons_none (by rw [hkey]; rfl)]
            exact ih.cons _
        | some value =>
            rw [List.filterMap_cons_some (by rw [hkey]; rfl)]
            exact ih.cons_cons _
  exact List.Nodup.sublist (hkeys defaultSections) (by decide)

section Keys

variable {entry defaults : Mapping}

theorem wellKeyed_get? {m : Mapping} {key : String} {v : Val} (h : (Val.map m).wellKeyed = true)
    (hkey : m.get? key = some v) : v.wellKeyed = true :=
  (Val.wellKeyed_map.1 h).2 _ (mem_of_lookup hkey)

theorem nodup_effective (h : (Val.map entry).wellKeyed = true) :
    ((effective entry defaults).map Prod.fst).Nodup :=
  nodup_deepMerge (nodup_knownDefaults defaults) (Val.wellKeyed_map.1 h).1

theorem nodup_of_mergeValue {old : Option Val} {v : Val} {m : Mapping}
    (hold : ∀ found, old = some found → found.wellKeyed = true) (hv : v.wellKeyed = true)
    (h : mergeValue old v = .map m) : (m.map Prod.fst).Nodup := by
  cases v with
  | scalar | list | set => rw [mergeValue_of_new rfl] at h; cases h
  | map override =>
      cases old with
      | none =>
          rw [mergeValue_none] at h
          exact Val.map.inj h ▸ (Val.wellKeyed_map.1 hv).1
      | some found =>
          cases found with
          | map base =>
              rw [mergeValue_map_map] at h
              exact Val.map.inj h ▸ nodup_deepMerge (Val.wellKeyed_map.1 (hold _ rfl)).1
                (Val.wellKeyed_map.1 hv).1
          | scalar | list | set =>
              rw [mergeValue_of_old rfl] at h
              exact Val.map.inj h ▸ (Val.wellKeyed_map.1 hv).1

theorem nodup_section (h : (Val.map entry).wellKeyed = true)
    (hdefaults : (Val.map defaults).wellKeyed = true) :
    ∀ key m, (effective entry defaults).get? key = some (.map m) → (m.map Prod.fst).Nodup := by
  intro key m hkey
  by_cases hsection : key ∈ defaultSections
  · rw [get?_effective_of_section _ _ hsection] at hkey
    cases hentry : entry.get? key with
    | none =>
        rw [hentry] at hkey
        exact (Val.wellKeyed_map.1 (wellKeyed_get? hdefaults hkey)).1
    | some v =>
        rw [hentry] at hkey
        exact nodup_of_mergeValue (fun found hfound => wellKeyed_get? hdefaults hfound)
          (wellKeyed_get? h hentry) (Option.some.inj hkey)
  · rw [get?_effective_of_not_section _ _ hsection] at hkey
    exact (Val.wellKeyed_map.1 (wellKeyed_get? h hkey)).1

end Keys

/-! ### The ingester's answer -/

theorem of_jobIn {rt : Runtime} {document entry : Mapping} {jobId : String} {spec : JobSpec}
    (h : jobIn rt document jobId = some (entry, spec)) :
    Val.map entry ∈ (jobsOf document).getD [] ∧
      readJobSpec rt (effective entry (catalogDefaults document)) = .ok spec := by
  obtain ⟨raw, hraw, hparsed⟩ := List.mem_filterMap.1 (List.mem_of_find?_eq_some h)
  obtain ⟨job, hjob, hspec⟩ := Option.bind_eq_some_iff.1 hparsed
  obtain rfl := Val.mapping?_eq_some.1 hjob
  obtain ⟨found, hfound, heq⟩ := Option.map_eq_some_iff.1 hspec
  obtain ⟨rfl, rfl⟩ := Prod.mk.inj heq
  refine ⟨hraw, ?_⟩
  cases hread : readJobSpec rt (effective job (catalogDefaults document)) with
  | error faults => rw [hread] at hfound; cases hfound
  | ok other => rw [hread] at hfound; rw [Option.some.inj hfound]

theorem wellKeyed_of_mem {document entry : Mapping}
    (h : (Val.map document).wellKeyed = true) (hmem : Val.map entry ∈ (jobsOf document).getD []) :
    (Val.map entry).wellKeyed = true := by
  unfold jobsOf at hmem
  split at hmem
  · cases hjobs : document.get? "jobs" with
    | none => rw [Mapping.getD, hjobs] at hmem; cases hmem
    | some v =>
        rw [Mapping.getD, hjobs, Option.getD_some] at hmem
        cases v with
        | list items => exact Val.wellKeyed_list.1 (wellKeyed_get? h hjobs) _ hmem
        | scalar | set | map => cases hmem
  · cases hmem

theorem wellKeyed_defaults {document : Mapping} (h : (Val.map document).wellKeyed = true) :
    (Val.map (catalogDefaults document)).wellKeyed = true := by
  unfold catalogDefaults defaultsOf
  split
  · cases hdefaults : document.get? "defaults" with
    | none => rw [Mapping.getD, hdefaults]; rfl
    | some v =>
        rw [Mapping.getD, hdefaults, Option.getD_some]
        cases v with
        | map m => exact wellKeyed_get? h hdefaults
        | scalar | list | set => rfl
  · rfl

theorem shaped_of_readJobSpec {rt : Runtime} {job : Mapping} {spec : JobSpec}
    (h : readJobSpec rt job = .ok spec) : spec.source.Shaped := by
  have hsource := (readJobSpec_eq_ok.1 h).2.2.2.1
  rw [field_eq_ok] at hsource
  cases hkey : job.get? "source" with
  | none => rw [hkey] at hsource; cases hsource
  | some v =>
      rw [hkey] at hsource
      cases v with
      | map m => exact shaped_of_readSource hsource
      | scalar | list | set => cases hsource

/-- `reload_and_verify` says applied exactly when no error is about the job and the reported job
agrees. -/
theorem applied_iff {errors : List ReloadError} {jobId : String} {detail : Option Mapping}
    {agrees : Mapping → Bool} (tolerate : Bool) :
    (∃ outcome, reloadAndVerify errors jobId detail agrees tolerate = .ok outcome ∧
      outcome.applied = true) ↔
      (∀ error ∈ errors, error.jobId ≠ some jobId) ∧ detail.any agrees = true := by
  have hmine : ((errors.filter fun error => error.jobId = some jobId).map
      ReloadError.text).isEmpty = true ↔ ∀ error ∈ errors, error.jobId ≠ some jobId := by
    simp [List.isEmpty_iff, List.filter_eq_nil_iff]
  unfold reloadAndVerify
  dsimp only
  rw [← hmine]
  cases hempty : ((errors.filter fun error => error.jobId = some jobId).map
      ReloadError.text).isEmpty with
  | false => simp
  | true =>
      cases hagrees : detail.any agrees with
      | true => simp
      | false =>
          simp only [Bool.and_false, Bool.false_eq_true, if_false, and_false, iff_false]
          rintro ⟨outcome, houtcome, happlied⟩
          split at houtcome
          · rw [← Except.ok.inj houtcome] at happlied
            cases happlied
          · cases houtcome

/-! ### An entry that is switched on or off -/

section Switch

variable {rt : Runtime} {r : Reporting} {raw entry defaults : Mapping} {enabled : Bool}
  {spec : JobSpec}

/-- Beside `enabled`, what is compared is the entry in the file. -/
theorem lookup_switched (h : Val.map entry = enabledEntry enabled (.map raw)) {key : Scalar}
    (hkey : key ≠ .str "enabled") :
    (effective (raw.put (.str "enabled") (.bool enabled)) defaults).lookup key =
      (effective entry defaults).lookup key := by
  have hentry : entry.lookup key = raw.lookup key := by
    obtain rfl := Val.map.inj h
    cases enabled with
    | true => exact Mapping.lookup_pop_of_ne raw hkey
    | false => exact Mapping.lookup_put_of_ne raw _ hkey
  rw [effective, effective, lookup_deepMerge, lookup_deepMerge, hentry,
    Mapping.lookup_put_of_ne raw _ hkey]

theorem get?_switched (h : Val.map entry = enabledEntry enabled (.map raw)) {key : String}
    (hkey : key ≠ "enabled") :
    (effective (raw.put (.str "enabled") (.bool enabled)) defaults).get? key =
      (effective entry defaults).get? key :=
  lookup_switched h (by simpa using hkey)

theorem get?_switched_enabled :
    (effective (raw.put (.str "enabled") (.bool enabled)) defaults).get? "enabled" =
      some (.bool enabled) := by
  rw [get?_effective_of_not_section _ _ (by decide), Mapping.get?_put_self]

theorem field_congr {α : Type} {m other : Mapping} {key : String} {absent : Checked α}
    {read : Val → Checked α} (h : m.get? key = other.get? key) :
    field m key absent read = field other key absent read := by
  unfold field
  rw [h]

/-- An entry is read as switched the way it was switched. -/
theorem enabled_of_switched (h : Val.map entry = enabledEntry enabled (.map raw))
    (hread : readJobSpec rt (effective entry defaults) = .ok spec) : spec.enabled = enabled := by
  have hfield := (readJobSpec_eq_ok.1 hread).2.1
  rw [field_eq_ok, get?_effective_of_not_section _ _ (by decide)] at hfield
  obtain rfl := Val.map.inj h
  cases enabled with
  | true =>
      rw [if_pos rfl, Mapping.get?_pop_self] at hfield
      exact (Except.ok.inj hfield).symm
  | false =>
      rw [if_neg Bool.false_ne_true, Mapping.get?_put_self] at hfield
      exact (Except.ok.inj hfield).symm

theorem known_switched (h : Val.map entry = enabledEntry enabled (.map raw))
    (hextra : noExtras rt jobKeys (effective entry defaults) = .ok ()) :
    noExtras rt jobKeys (effective (raw.put (.str "enabled") (.bool enabled)) defaults) =
      .ok () := by
  rw [noExtras_eq_ok] at hextra ⊢
  intro named hnamed
  by_cases hkey : named.1 = .str "enabled"
  · exact ⟨"enabled", by decide, hkey⟩
  · cases hlookup : (effective entry defaults).lookup named.1 with
    | none =>
        rw [← lookup_switched h hkey, List.lookup_eq_none_iff] at hlookup
        exact absurd (hlookup named hnamed) (by simp)
    | some v => exact hextra (named.1, v) (mem_of_lookup hlookup)

/-- What `set_enabled` compares is the job that is in the file. -/
theorem read_switched (h : Val.map entry = enabledEntry enabled (.map raw))
    (hread : readJobSpec rt (effective entry defaults) = .ok spec) :
    readJobSpec rt (effective (raw.put (.str "enabled") (.bool enabled)) defaults) = .ok spec := by
  have henabled := enabled_of_switched h hread
  obtain ⟨h1, _, h3, h4, h5, h6, h7, h8, h9, h10, h11, h12, h13, h14, h15, h16, hextra⟩ :=
    readJobSpec_eq_ok.1 hread
  have hsame : ∀ {key : String}, key ≠ "enabled" →
      (effective (raw.put (.str "enabled") (.bool enabled)) defaults).get? key =
        (effective entry defaults).get? key := get?_switched h
  refine readJobSpec_eq_ok.2 ⟨?_, ?_, ?_, ?_, ?_, ?_, ?_, ?_, ?_, ?_, ?_, ?_, ?_, ?_, ?_, ?_,
    known_switched h hextra⟩
  case refine_2 =>
    rw [field_eq_ok, get?_switched_enabled, henabled]
    rfl
  all_goals
    rw [field_congr (hsame (by decide))]
    assumption

theorem shown_switched (h : Val.map entry = enabledEntry enabled (.map raw))
    (hshown : JobShown r (effective entry defaults) spec spec) :
    JobShown r (effective (raw.put (.str "enabled") (.bool enabled)) defaults) spec spec := by
  have hsame : ∀ {key : String}, key ≠ "enabled" →
      (effective (raw.put (.str "enabled") (.bool enabled)) defaults).get? key =
        (effective entry defaults).get? key := get?_switched h
  obtain ⟨h1, _, hrest⟩ := hshown
  refine ⟨?_, ?_, ?_⟩
  · rw [Named, hsame (by decide)]
    exact h1
  · intro v hv
    rw [get?_switched_enabled] at hv
    obtain rfl := Option.some.inj hv
    exact ⟨⟨_, _, rfl, rfl⟩, rfl⟩
  · unfold Named SectionShown at hrest ⊢
    simpa only [hsame, ne_eq, String.reduceEq, not_false_eq_true] using hrest

/-- `set_enabled`: the comparison with the job that is in the file. -/
theorem switched_iff (hentry : (Val.map entry).wellKeyed = true)
    (hdefaults : (Val.map defaults).wellKeyed = true) (hraw : (Val.map raw).wellKeyed = true)
    (h : Val.map entry = enabledEntry enabled (.map raw))
    (hread : readJobSpec rt (effective entry defaults) = .ok spec)
    (hshaped : spec.source.Shaped) :
    loadedAsWritten [(.str "config", .map (spec.dump r))]
        (effective (raw.put (.str "enabled") (.bool enabled)) defaults) = true ↔
      JobShown r (effective (raw.put (.str "enabled") (.bool enabled)) defaults) spec spec := by
  refine loadedAsWritten_iff
    (nodup_deepMerge (nodup_knownDefaults _) (Mapping.nodup_put (Val.wellKeyed_map.1 hraw).1))
    ?_ (read_switched h hread) hshaped
  intro key m hkey
  by_cases heq : key = "enabled"
  · subst heq
    rw [get?_switched_enabled] at hkey
    cases hkey
  · rw [get?_switched h heq] at hkey
    exact nodup_section hentry hdefaults key m hkey

end Switch

/-! ### What applied means -/

section Applied

variable (rt : Runtime) (r : Reporting) (errors : List ReloadError) (old new entry : Mapping)
  (jobId : String) (spec : JobSpec)

/-- Where the answer is applied, the ingester serves the definition that was written. -/
def AppliedIsServed : Prop :=
  ∀ tolerate outcome,
    afterWrite rt r errors old new jobId (savedAgrees new entry) tolerate = .ok outcome →
      outcome.applied = true →
        (jobIn rt (heldAfter errors old new) jobId).map Prod.snd = some spec

/-- A write the ingester took is not undone: not by a save, not by switching a job on or off, not
by the Embedding page. -/
structure TakenIsApplied : Prop where
  saved : errors = [] → ∀ tolerate, ∃ outcome,
    afterWrite rt r errors old new jobId (savedAgrees new entry) tolerate = .ok outcome ∧
      outcome.applied = true
  switched : errors = [] → ∀ raw enabled, (Val.map raw).wellKeyed = true →
    Val.map entry = enabledEntry enabled (.map raw) → ∃ outcome,
      afterWrite rt r errors old new jobId (switchedAgrees new raw enabled) true = .ok outcome ∧
        outcome.applied = true
  run : errors = [] → ∀ naming job, entry = buildJob naming job → ∃ outcome,
    afterWrite rt r errors old new jobId (runAgrees entry) false = .ok outcome ∧
      outcome.applied = true

/-- The older definition of the job differs from the written one where the entry names something
that the comparison sees: a value, or a credential it does not have. -/
def OldIsTold : Prop :=
  errors ≠ [] → (∀ error ∈ errors, error.jobId ≠ some jobId) →
    ∀ kept, (jobIn rt old jobId).map Prod.snd = some kept →
      JobShown r (effective entry (catalogDefaults new)) spec kept → kept = spec

/-- Everything the entry and the catalog defaults name is written the way it is reported, and a run
without an `include` inherits none. -/
def WrittenAsReported : Prop :=
  errors = [] → JobShown r (effective entry (catalogDefaults new)) spec spec ∧
    ∀ naming job, entry = buildJob naming job → job.includes.getD [] = [] →
      spec.filters.includes = []

variable {rt r errors old new entry jobId spec}

theorem any_detailOf {held : Mapping} {agrees : Mapping → Bool} :
    (detailOf rt r held jobId).any agrees = true ↔
      ∃ kept, (jobIn rt held jobId).map Prod.snd = some kept ∧
        agrees [(.str "config", .map (kept.dump r))] = true := by
  unfold detailOf
  cases jobIn rt held jobId <;> simp

/-- `save`: the comparison with the job the ingester holds. -/
theorem savedAgrees_iff (hentry : jobIn rt new jobId = some (entry, spec))
    (hkeyed : (Val.map new).wellKeyed = true) {kept : JobSpec} (hshaped : kept.source.Shaped) :
    savedAgrees new entry [(.str "config", .map (kept.dump r))] = true ↔
      JobShown r (effective entry (catalogDefaults new)) spec kept := by
  obtain ⟨hmem, hread⟩ := of_jobIn hentry
  have hkeys := wellKeyed_of_mem hkeyed hmem
  exact loadedAsWritten_iff (nodup_effective hkeys)
    (nodup_section hkeys (wellKeyed_defaults hkeyed)) hread hshaped

theorem shaped_of_jobIn {document : Mapping} {kept : JobSpec}
    (h : (jobIn rt document jobId).map Prod.snd = some kept) : kept.source.Shaped := by
  obtain ⟨found, hfound, rfl⟩ := Option.map_eq_some_iff.1 h
  exact shaped_of_readJobSpec (of_jobIn hfound).2

theorem appliedIsServed_iff (hentry : jobIn rt new jobId = some (entry, spec))
    (hkeyed : (Val.map new).wellKeyed = true) :
    AppliedIsServed rt r errors old new entry jobId spec ↔
      OldIsTold rt r errors old new entry jobId spec := by
  cases errors with
  | nil =>
      refine iff_of_true ?_ (fun h => absurd rfl h)
      intro _ _ _ _
      rw [heldAfter, List.isEmpty_nil, if_pos rfl, hentry]
      rfl
  | cons error rest =>
      unfold AppliedIsServed OldIsTold
      have hheld : heldAfter (error :: rest) old new = old := rfl
      constructor
      · intro h _ hmine kept hkept hshown
        have hagrees := (savedAgrees_iff hentry hkeyed (shaped_of_jobIn hkept)).2 hshown
        obtain ⟨outcome, houtcome, happlied⟩ := (applied_iff true).2
          ⟨hmine, any_detailOf.2 ⟨kept, hheld ▸ hkept, hagrees⟩⟩
        have hserved := h true outcome houtcome happlied
        rw [hheld, hkept] at hserved
        exact Option.some.inj hserved
      · intro h tolerate outcome houtcome happlied
        obtain ⟨hmine, hany⟩ := (applied_iff tolerate).1 ⟨outcome, houtcome, happlied⟩
        obtain ⟨kept, hkept, hagrees⟩ := any_detailOf.1 hany
        rw [hheld] at hkept ⊢
        rw [hkept, h (by simp) hmine kept hkept
          ((savedAgrees_iff hentry hkeyed (shaped_of_jobIn hkept)).1 hagrees)]

theorem takenIsApplied_iff (hentry : jobIn rt new jobId = some (entry, spec))
    (hkeyed : (Val.map new).wellKeyed = true) :
    TakenIsApplied rt r errors old new entry jobId ↔
      WrittenAsReported r errors new entry spec := by
  obtain ⟨hmem, hread⟩ := of_jobIn hentry
  have hkeys := wellKeyed_of_mem hkeyed hmem
  have hspec : specOf rt (catalogDefaults new) (.map entry) = some spec := by
    rw [specOf, Val.mapping?_map, Option.bind_some, hread]
    rfl
  have hshaped := shaped_of_readJobSpec hread
  -- the ingester that took the catalog reports the written job
  have hanswer : ∀ (agrees : Mapping → Bool) (tolerate : Bool), errors = [] →
      ((∃ outcome, afterWrite rt r errors old new jobId agrees tolerate = .ok outcome ∧
        outcome.applied = true) ↔ agrees [(.str "config", .map (spec.dump r))] = true) := by
    rintro agrees tolerate rfl
    rw [afterWrite, applied_iff, heldAfter, List.isEmpty_nil, if_pos rfl, detailOf, hentry]
    simp
  constructor
  · intro h hnone
    refine ⟨(savedAgrees_iff hentry hkeyed hshaped).1
      ((hanswer _ true hnone).1 (h.saved hnone true)), ?_⟩
    rintro naming job rfl
    exact (servedAsWritten_iff hspec).1 ((hanswer _ false hnone).1 (h.run hnone naming job rfl))
  · intro h
    refine ⟨fun hnone tolerate => ?_, fun hnone raw enabled hraw hswitched => ?_,
      fun hnone naming job hjob => ?_⟩
    · exact (hanswer _ tolerate hnone).2 ((savedAgrees_iff hentry hkeyed hshaped).2 (h hnone).1)
    · refine (hanswer _ true hnone).2 ?_
      exact (switched_iff hkeys (wellKeyed_defaults hkeyed) hraw hswitched hread hshaped).2
        (shown_switched hswitched (h hnone).1)
    · subst hjob
      exact (hanswer _ false hnone).2 ((servedAsWritten_iff hspec).2 ((h hnone).2 naming job rfl))

end Applied

/-- "Applied" means that the ingester serves what was written, and a good write is never undone,
exactly when a kept older definition can be told from the written one and everything the entry
names is written the way it is reported. -/
theorem applied_means_served_iff (rt : Runtime) (r : Reporting) (errors : List ReloadError)
    (old new entry : Mapping) (jobId : String) (spec : JobSpec)
    (hentry : jobIn rt new jobId = some (entry, spec))
    (hkeyed : (Val.map new).wellKeyed = true) :
    (AppliedIsServed rt r errors old new entry jobId spec ∧
        TakenIsApplied rt r errors old new entry jobId) ↔
      OldIsTold rt r errors old new entry jobId spec ∧ WrittenAsReported r errors new entry spec :=
  and_congr (appliedIsServed_iff hentry hkeyed) (takenIsApplied_iff hentry hkeyed)

/-! ### A key taken out, and a number written as a text -/

/-- Reports of plain values. -/
def plainReporting : Reporting where
  json v := v
  mask _ := .str "***"
  unset := .null
  mask_truthy _ := rfl
  unset_falsy := rfl

/-- A job with a size of its chunks, written as any value. -/
def chunkedJob (size : Val) : Mapping :=
  labelledJob (.str "notes") ++ [(.str "chunking", .map [(.str "words", size)])]

/-- Something is wrong with another job of the file. -/
def otherError : ReloadError where
  jobId := some "other"
  field := "target.connection"
  message := "unknown connection"

/-- The catalog with the one job `notes`, and what it parses to. -/
def notesCatalog : Mapping :=
  folderCatalog [labelledJob (.str "notes")]

theorem notes_parses : (jobIn plainRuntime notesCatalog "notes").isSome = true := by
  decide +kernel

def parsedNotes : Mapping × JobSpec :=
  (jobIn plainRuntime notesCatalog "notes").get notes_parses

theorem jobIn_notes :
    jobIn plainRuntime notesCatalog "notes" = some (parsedNotes.1, parsedNotes.2) :=
  (Option.some_get notes_parses).symm

theorem chunked_parses :
    (jobIn plainRuntime (folderCatalog [chunkedJob (.str "300")]) "notes").isSome = true := by
  decide +kernel

/-- The size of the chunks is taken out of an entry while another job is broken: the older
definition, which the ingester keeps, has everything the entry names.  And a size that is written as
a text is not the number the ingester reports. -/
theorem applied_without_being_served :
    (¬ ∀ (rt : Runtime) (r : Reporting) (errors : List ReloadError) (old new entry : Mapping)
      (jobId : String) (spec : JobSpec), jobIn rt new jobId = some (entry, spec) →
        (Val.map new).wellKeyed = true → AppliedIsServed rt r errors old new entry jobId spec) ∧
    ¬ ∀ (rt : Runtime) (r : Reporting) (errors : List ReloadError) (old new entry : Mapping)
      (jobId : String) (spec : JobSpec), jobIn rt new jobId = some (entry, spec) →
        (Val.map new).wellKeyed = true → TakenIsApplied rt r errors old new entry jobId := by
  constructor
  · intro h
    have hserved := h plainRuntime plainReporting [otherError]
      (folderCatalog [chunkedJob (.int 300)]) notesCatalog _ "notes" _ jobIn_notes
      (by decide)
    have happlied : (∀ error ∈ [otherError], error.jobId ≠ some "notes") ∧
        (detailOf plainRuntime plainReporting (folderCatalog [chunkedJob (.int 300)]) "notes").any
          (savedAgrees notesCatalog parsedNotes.1) = true := by
      decide +kernel
    obtain ⟨outcome, houtcome, hset⟩ := (applied_iff true).2 happlied
    have hsame := congrArg (Option.map fun spec => spec.chunking.words)
      (hserved true outcome houtcome hset)
    revert hsame
    decide +kernel
  · intro h
    have htaken := h plainRuntime plainReporting [] (folderCatalog [])
      (folderCatalog [chunkedJob (.str "300")]) _ "notes" _ (Option.some_get chunked_parses).symm
      (by decide)
    obtain ⟨_, hany⟩ := (applied_iff true).1 (htaken.saved rfl true)
    revert hany
    decide +kernel

/-- A job in plain spelling is applied, and what is served is what was written. -/
theorem plain_job_is_served :
    AppliedIsServed plainRuntime plainReporting [] (folderCatalog []) notesCatalog parsedNotes.1
        "notes" parsedNotes.2 ∧
      TakenIsApplied plainRuntime plainReporting [] (folderCatalog []) notesCatalog parsedNotes.1
        "notes" := by
  have hkeyed : (Val.map notesCatalog).wellKeyed = true := by decide
  refine (applied_means_served_iff plainRuntime plainReporting [] (folderCatalog []) notesCatalog
    parsedNotes.1 "notes" parsedNotes.2 jobIn_notes hkeyed).2
    ⟨fun hne => absurd rfl hne, fun _ => ⟨?_, ?_⟩⟩
  · refine (savedAgrees_iff jobIn_notes hkeyed
      (shaped_of_readJobSpec (of_jobIn jobIn_notes).2)).1 ?_
    decide +kernel
  · intro naming job hjob
    -- a run appends
    have hmode : Mapping.get? parsedNotes.1 "mode" = some (.str "append") := by
      rw [hjob, get?_buildJob_of_last naming job (by decide) (by decide)]
      rfl
    have htext : ¬(Mapping.get? parsedNotes.1 "mode").bind Val.str? = some "append" := by
      decide +kernel
    exact absurd (by rw [hmode]; rfl) htext

end Papaia.Ingest
