/-
Module: Papaia.Proofs.Minimise
Purpose: What a written job holds under each key, and what a section of it reads as once the
  defaults of the catalog are merged under it again.
Trusted boundary: none
Main exports: Minimised, minimised_of_minimise, section_reads, given_reads, Respects
-/
import Papaia.Ingest.Minimise
import Papaia.Proofs.Merge
import Papaia.Proofs.Reading

namespace Papaia.Ingest

open Text

/-! ### The merge -/

@[simp] theorem deepMerge_nil (base : Mapping) : deepMerge base [] = base := by
  simp [deepMerge, mergedAt]

@[simp] theorem nil_deepMerge (override : Mapping) : deepMerge [] override = override := by
  simp [deepMerge]

theorem mergeValue_map_map (base override : Mapping) :
    mergeValue (some (.map base)) (.map override) = .map (deepMerge base override) := by
  simp [mergeValue, deepMerge]

/-- Only a mapping that meets a mapping is merged. -/
theorem mergeValue_of_old {old v : Val} (h : old.mapping? = none) : mergeValue (some old) v = v := by
  cases v <;> cases old <;> simp_all [mergeValue]

theorem mergeValue_of_new {old : Option Val} {v : Val} (h : v.mapping? = none) :
    mergeValue old v = v := by
  cases v <;> simp_all [mergeValue]

/-- A mapping stays a mapping in a merge. -/
theorem mergeValue_map (old : Option Val) (override : Mapping) :
    ∃ m, mergeValue old (.map override) = .map m := by
  cases old with
  | none => exact ⟨override, by simp⟩
  | some old => cases old <;> simp [mergeValue]

/-! ### What is written -/

theorem get?_append (xs ys : Mapping) (key : String) :
    Mapping.get? (xs ++ ys) key = (xs.get? key).or (ys.get? key) :=
  List.lookup_append

@[simp] theorem get?_optionalEntry (key other : String) (value : Option Val) :
    (optionalEntry key value).get? other = if other = key then value else none := by
  cases value with
  | none => simp [optionalEntry, Mapping.get?]
  | some v =>
      by_cases h : other = key
      · simp [optionalEntry, Mapping.get?, h]
      · have hne : (Scalar.str other == Scalar.str key) = false := by simpa using h
        simp [optionalEntry, Mapping.get?, List.lookup_cons, hne, h]

/-- The sections a job inherits are those of the five names, each one mergeable. -/
theorem inheritedSections_eq_some {defaults : Mapping} {inherited : List (String × Mapping)}
    (h : inheritedSections defaults = some inherited) :
    ∃ base : String → Mapping, inherited = defaultSections.map (fun name => (name, base name)) ∧
      ∀ name ∈ defaultSections, inheritedSection defaults name = some (base name) := by
  have hgen : ∀ (names : List String) (found : List (String × Mapping)),
      names.mapM (fun name => (inheritedSection defaults name).map fun m => (name, m)) =
        some found →
      found = names.map (fun name => (name, (inheritedSection defaults name).getD [])) ∧
        ∀ name ∈ names, inheritedSection defaults name =
          some ((inheritedSection defaults name).getD []) := by
    intro names
    induction names with
    | nil => simp
    | cons name rest ih =>
        intro found hfound
        simp only [List.mapM_cons, Option.bind_eq_bind, Option.bind_eq_some_iff,
          Option.map_eq_some_iff, Option.pure_def, Option.some.injEq] at hfound
        obtain ⟨_, ⟨base, hbase, rfl⟩, others, hothers, rfl⟩ := hfound
        obtain ⟨hmap, hall⟩ := ih others hothers
        refine ⟨by rw [List.map_cons, ← hmap, hbase]; rfl, ?_⟩
        intro other hother
        rcases List.mem_cons.mp hother with heq | hmem
        · rw [heq, hbase]
          rfl
        · exact hall other hmem
  exact ⟨_, hgen defaultSections inherited h⟩

/-- What `minimise` writes under each key of a job. -/
structure Minimised (rt : Runtime) (job defaults out : Mapping) : Prop where
  id : out.get? "id" = some (job.getD "id")
  enabled : out.get? "enabled" = keptEnabled job
  description : out.get? "description" =
    let description := strip (rt.textOr "" (job.getD "description"))
    if description = "" then none else some (.str description)
  source : out.get? "source" = some (.map (minimiseSource rt (mappingAt job "source")))
  target : ∃ target, minimiseTarget rt (mappingAt job "target") = some target ∧
    out.get? "target" = some (.map target)
  mode : out.get? "mode" = some (job.getD "mode")
  top : ∀ key default, (key, default) ∈ topDefaults → key ≠ "enabled" → key ≠ "description" →
    out.get? key = keptTop job key default
  sections : ∀ name ∈ defaultSections, ∃ base, inheritedSection defaults name = some base ∧
    out.get? name =
      let kept := keptSection name base (mappingAt job name)
      if kept.isEmpty then none else some (.map kept)

theorem minimised_of_minimise {rt : Runtime} {job defaults out : Mapping}
    (h : minimise rt job defaults = some out) : Minimised rt job defaults out := by
  unfold minimise at h
  simp only [Option.bind_eq_some_iff, Option.map_eq_some_iff] at h
  obtain ⟨inherited, hinherited, target, htarget, rfl⟩ := h
  obtain ⟨base, rfl, hbase⟩ := inheritedSections_eq_some hinherited
  constructor
  case target => exact ⟨target, htarget, by
    simp [get?_append, topDefaults, defaultSections]⟩
  case top =>
    intro key default hmem henabled hdescription
    simp only [topDefaults, List.mem_cons, Prod.mk.injEq, List.not_mem_nil, or_false] at hmem
    rcases hmem with ⟨rfl, rfl⟩ | ⟨rfl, rfl⟩ | ⟨rfl, rfl⟩ | ⟨rfl, rfl⟩ | ⟨rfl, rfl⟩ | ⟨rfl, rfl⟩ |
      ⟨rfl, rfl⟩ <;> simp_all [get?_append, topDefaults, defaultSections]
  case sections =>
    intro name hname
    refine ⟨base name, hbase name hname, ?_⟩
    simp only [defaultSections, List.mem_cons, List.not_mem_nil, or_false] at hname
    rcases hname with rfl | rfl | rfl | rfl | rfl <;>
      simp [get?_append, topDefaults, defaultSections]
  all_goals simp [get?_append, topDefaults, defaultSections]

/-! ### A section of a written job, read again -/

/-- The default of the catalog for a section; a value that counts as nothing is no mapping. -/
theorem inheritedSection_eq_some {defaults base : Mapping} {name : String}
    (hname : name ∈ defaultSections) (h : inheritedSection defaults name = some base) :
    base = deepMerge (sectionDefaults name) (mappingAt defaults name) := by
  have hget : (knownDefaults defaults).getD name = defaults.getD name := by
    simp only [Mapping.getD, get?_knownDefaults, if_pos hname]
  rw [inheritedSection, hget] at h
  split at h
  next =>
    simp only [Option.map_eq_some_iff, Val.mapping?_eq_some] at h
    obtain ⟨m, hm, rfl⟩ := h
    simp [mappingAt, hm]
  next hfalsy =>
    have hbase : deepMerge (sectionDefaults name) [] = base := by simpa using h
    rw [← hbase]
    cases hdefault : defaults.getD name with
    | map m =>
        cases m with
        | nil => simp [mappingAt, hdefault]
        | cons => simp [hdefault, Val.truthy] at hfalsy
    | scalar | list | set => simp [mappingAt, hdefault, Val.mapping?]

/-- What is written of a section, with the default of the catalog merged under it again. -/
def writtenOver (name : String) (catalog given : Mapping) : Mapping :=
  deepMerge catalog (keptSection name (deepMerge (sectionDefaults name) catalog) given)

/-- A section of a written job reads as what was written of it over the default of the catalog. -/
theorem section_reads {α : Type} {readSection : Val → Checked α} {default a : α} (name : String)
    {rt : Runtime} {job defaults out : Mapping} (hout : Minimised rt job defaults out)
    (hname : name ∈ defaultSections)
    (hmapping : ∀ v b, readSection v = .ok b → ∃ m, v = .map m)
    (hdefault : readSection (.map []) = .ok default)
    (h : field (effective out defaults) name (.ok default) readSection = .ok a) :
    readSection (.map (writtenOver name (mappingAt defaults name) (mappingAt job name))) =
      .ok a := by
  obtain ⟨base, hbase, hwritten⟩ := hout.sections name hname
  obtain rfl := inheritedSection_eq_some hname hbase
  rw [writtenOver]
  generalize keptSection name (deepMerge (sectionDefaults name) (mappingAt defaults name))
    (mappingAt job name) = kept at hwritten ⊢
  simp only at hwritten
  rw [field_eq_ok, get?_effective_of_section _ _ hname, hwritten] at h
  cases kept with
  | nil =>
      simp only [List.isEmpty_nil, if_true] at h
      cases hcatalog : defaults.get? name with
      | none =>
          simp only [hcatalog, Except.ok.injEq] at h
          simpa [mappingAt, Mapping.getD, hcatalog, Val.mapping?] using h ▸ hdefault
      | some v =>
          simp only [hcatalog] at h
          obtain ⟨m, rfl⟩ := hmapping v a h
          simpa [mappingAt, Mapping.getD, hcatalog] using h
  | cons entry rest =>
      simp only [List.isEmpty_cons, Bool.false_eq_true, if_false] at h
      cases hcatalog : defaults.get? name with
      | none => simpa [mappingAt, Mapping.getD, hcatalog, Val.mapping?] using h
      | some v =>
          rw [hcatalog] at h
          cases v with
          | map base =>
              rw [mergeValue_map_map] at h
              simpa [mappingAt, Mapping.getD, hcatalog] using h
          | scalar | list | set =>
              rw [mergeValue_of_old rfl] at h
              simpa [mappingAt, Mapping.getD, hcatalog, Val.mapping?] using h

theorem lookup_filter_of_nodup {α β : Type*} [DecidableEq α] (keep : α × β → Bool)
    {entries : List (α × β)} {key : α} {value : β} (hnodup : (entries.map Prod.fst).Nodup)
    (h : entries.lookup key = some value) :
    (entries.filter keep).lookup key = if keep (key, value) then some value else none := by
  induction entries with
  | nil => simp at h
  | cons entry rest ih =>
      obtain ⟨k, v⟩ := entry
      rw [List.map_cons, List.nodup_cons] at hnodup
      by_cases hk : key = k
      · subst hk
        have hv : v = value := by simpa using h
        subst hv
        by_cases hkeep : keep (key, v) = true
        · simp [hkeep]
        · have habsent : (rest.filter keep).lookup key = none := by
            rw [List.lookup_eq_none_iff]
            intro entry hentry
            have hmem := List.mem_map_of_mem (f := Prod.fst) (List.mem_of_mem_filter hentry)
            have hne : key ≠ entry.1 := fun heq => hnodup.1 (heq ▸ hmem)
            simpa using hne
          simp [hkeep, habsent]
      · have hne : (key == k) = false := by simpa using hk
        have hrest : rest.lookup key = some value := by simpa [List.lookup_cons, hne] using h
        by_cases hkeep : keep (k, v) = true <;>
          simp [hkeep, List.lookup_cons, hne, ih hnodup.2 hrest]

theorem lookup_filter_of_none {α β : Type*} [DecidableEq α] (keep : α × β → Bool)
    {entries : List (α × β)} {key : α} (h : entries.lookup key = none) :
    (entries.filter keep).lookup key = none := by
  rw [List.lookup_eq_none_iff] at h ⊢
  exact fun entry hentry => h entry (List.mem_of_mem_filter hentry)

/-- What a job inherits for a key of a section. -/
theorem get?_inherited {name key : String} {default : Val} (catalog : Mapping)
    (hdefault : (sectionDefaults name).get? key = some default)
    (hscalar : default.mapping? = none) :
    (deepMerge (sectionDefaults name) catalog).get? key =
      some ((catalog.get? key).getD default) := by
  rw [Mapping.get?, lookup_deepMerge]
  rw [Mapping.get?] at hdefault
  rw [hdefault]
  cases hcatalog : catalog.get? key with
  | none => rw [Mapping.get?] at hcatalog; simp [hcatalog]
  | some v => rw [Mapping.get?] at hcatalog; simp [hcatalog, mergeValue_of_old hscalar]

/-- A key the section does not give reads as the catalog has it. -/
theorem absent_reads {α : Type} {read : Val → Checked α} {absent : Checked α} {name key : String}
    {catalog given : Mapping} (h : given.get? key = none) :
    field (writtenOver name catalog given) key absent read = field catalog key absent read := by
  have hkept : (keptSection name (deepMerge (sectionDefaults name) catalog) given).lookup
      (.str key) = none := lookup_filter_of_none _ h
  unfold field
  rw [Mapping.get?, writtenOver, lookup_deepMerge, hkept]
  rfl

/-- A key that is written reads as it is given. -/
theorem kept_reads {α : Type} {read : Val → Checked α} {absent : Checked α} {name key : String}
    {catalog given : Mapping} {v : Val} (hgiven : given.get? key = some v)
    (hnodup : (given.map Prod.fst).Nodup) (hv : v.mapping? = none)
    (hkeeps : keeps name (deepMerge (sectionDefaults name) catalog) (.str key) v = true) :
    field (writtenOver name catalog given) key absent read = (read v).within key := by
  have hkept := lookup_filter_of_nodup
    (fun entry => keeps name (deepMerge (sectionDefaults name) catalog) entry.1 entry.2)
    hnodup hgiven
  unfold field
  rw [Mapping.get?, writtenOver, lookup_deepMerge, keptSection, hkept]
  simp only [hkeeps, if_true]
  rw [mergeValue_of_new hv]

/-- What a section gives for a key is what it reads as, though it writes the key only where it
differs from what is inherited: what is left out because it is empty or equal reads the same. -/
theorem given_reads {α : Type} {read : Val → Checked α} {a absent : α} {key : String}
    {given catalog : Mapping} {v : Val} (name : String) (default : Val)
    (hgiven : given.get? key = some v) (hnodup : (given.map Prod.fst).Nodup)
    (hkey : ¬(name = "embedding" ∧ key = "model"))
    (hdefault : (sectionDefaults name).get? key = some default)
    (hscalar : default.mapping? = none) (hread : read default = .ok absent)
    (hmapping : ∀ m b, read (.map m) ≠ .ok b)
    (hempty : ∀ w, isEmptyValue v = true → isEmptyValue w = true → read w = .ok a → read v = .ok a)
    (heqv : ∀ w, v.eqv w = true → read w = .ok a → read v = .ok a)
    (h : field (writtenOver name catalog given) key (.ok absent) read = .ok a) :
    read v = .ok a := by
  have hinherited := get?_inherited catalog hdefault hscalar
  have hkept := lookup_filter_of_nodup
    (fun entry => keeps name (deepMerge (sectionDefaults name) catalog) entry.1 entry.2)
    hnodup hgiven
  rw [field_eq_ok, Mapping.get?, writtenOver, lookup_deepMerge, keptSection, hkept] at h
  by_cases hkeeps : keeps name (deepMerge (sectionDefaults name) catalog) (.str key) v = true
  · simp only [hkeeps, if_true] at h
    cases v with
    | map m =>
        obtain ⟨merged, hmerged⟩ := mergeValue_map (catalog.lookup (.str key)) m
        rw [hmerged] at h
        exact absurd h (hmapping merged a)
    | scalar | list | set => rwa [mergeValue_of_new rfl] at h
  · simp only [hkeeps, Bool.false_eq_true, if_false] at h
    -- what is inherited reads as what the merge has
    have hbase : read ((catalog.get? key).getD default) = .ok a := by
      rw [Mapping.get?]
      cases hcatalog : catalog.lookup (.str key) with
      | none =>
          simp only [hcatalog, Except.ok.injEq] at h
          exact h ▸ hread
      | some w =>
          simp only [hcatalog] at h
          exact h
    have hplain : ¬(name = "embedding" ∧ Scalar.str key = .str "model") := by simpa using hkey
    rw [Mapping.get?] at hinherited
    simp only [keeps, hinherited, Bool.and_eq_true, decide_eq_true_eq, if_neg hplain,
      Option.getD_some, Option.any_some] at hkeeps
    split at hkeeps
    next hboth => exact hempty _ hboth.1 hboth.2 hbase
    next => exact heqv _ (by simpa using hkeeps) hbase

/-! ### Readings that respect `==` -/

/-- Equal values read the same. -/
def Respects {α : Type} (read : Val → Checked α) : Prop :=
  ∀ v w a, v.eqv w = true → read w = .ok a → read v = .ok a

theorem Scalar.eqv_cases {s t : Scalar} (h : s.eqv t = true) :
    s = t ∨ ∃ q, s.number? = some q ∧ t.number? = some q := by
  unfold Scalar.eqv at h
  cases hs : s.number? with
  | none =>
      cases ht : t.number? with
      | none => simp_all
      | some q => simp [hs, ht] at h
  | some p =>
      cases ht : t.number? with
      | none => simp [hs, ht] at h
      | some q =>
          simp only [hs, ht, beq_iff_eq] at h
          exact .inr ⟨q, by rw [h], rfl⟩

/-- A reading that takes scalars only, and numbers by what they count. -/
theorem respects_of_number {α : Type} {read : Val → Checked α} (counts : Rat → α → Prop)
    (hscalar : ∀ v a, read v = .ok a → ∃ s, v = .scalar s)
    (hnumber : ∀ s q a, s.number? = some q → (read (.scalar s) = .ok a ↔ counts q a)) :
    Respects read := by
  intro v w a heqv hread
  obtain ⟨t, rfl⟩ := hscalar w a hread
  cases v with
  | scalar s =>
      rw [Val.eqv] at heqv
      rcases Scalar.eqv_cases heqv with rfl | ⟨q, hs, ht⟩
      · exact hread
      · exact (hnumber s q a hs).mpr ((hnumber t q a ht).mp hread)
  | list | set | map => simp [Val.eqv] at heqv

theorem readBool_number {s : Scalar} {q : Rat} {b : Bool} (hs : s.number? = some q) :
    readBool (.scalar s) = .ok b ↔ q = if b then 1 else 0 := by
  cases s with
  | bool c =>
      obtain rfl : (if c then 1 else 0) = q := by simpa [Scalar.number?] using hs
      cases b <;> cases c <;> simp [readBool]
  | int i =>
      obtain rfl : (i : Rat) = q := by simpa [Scalar.number?] using hs
      by_cases hone : i = 1
      · cases b <;> simp [readBool, hone]
      · by_cases hzero : i = 0
        · cases b <;> simp [readBool, hzero]
        · cases b <;> simp [readBool, hone, hzero]
  | float f =>
      cases f with
      | finite p =>
          obtain rfl : p = q := by simpa [Scalar.number?] using hs
          by_cases hone : p = 1
          · cases b <;> simp [readBool, hone]
          · by_cases hzero : p = 0
            · cases b <;> simp [readBool, hzero]
            · cases b <;> simp [readBool, hone, hzero]
      | infinite | nan => simp [Scalar.number?] at hs
  | null | str | bytes | stamp => simp [Scalar.number?] at hs

theorem readBool_scalar {v : Val} {b : Bool} (h : readBool v = .ok b) : ∃ s, v = .scalar s := by
  cases v with
  | scalar s => exact ⟨s, rfl⟩
  | list | set | map => simp [readBool] at h

theorem respects_readBool : Respects readBool :=
  respects_of_number (fun q b => q = if b then 1 else 0) (fun _ _ h => readBool_scalar h)
    fun _ _ _ hs => readBool_number hs

theorem readInt_number (rt : Runtime) {s : Scalar} {q : Rat} {i : Int} (hs : s.number? = some q) :
    readInt rt (.scalar s) = .ok i ↔ q = i := by
  cases s with
  | bool b =>
      obtain rfl : (if b then 1 else 0) = q := by simpa [Scalar.number?] using hs
      cases b <;> simp [readInt] <;> norm_cast
  | int j =>
      obtain rfl : (j : Rat) = q := by simpa [Scalar.number?] using hs
      simp [readInt]
  | float f =>
      cases f with
      | finite p =>
          obtain rfl : p = q := by simpa [Scalar.number?] using hs
          simp only [readInt]
          split
          next hden =>
            have hwhole : ((p.num : Int) : Rat) = p := (Rat.den_eq_one_iff p).mp hden
            rw [Except.ok.injEq]
            conv_rhs => rw [← hwhole]
            norm_cast
          next hden =>
            simp only [Checked.fault_ne_ok, false_iff]
            rintro rfl
            simp at hden
      | infinite | nan => simp [Scalar.number?] at hs
  | null | str | bytes | stamp => simp [Scalar.number?] at hs

theorem readInt_scalar {rt : Runtime} {v : Val} {i : Int} (h : readInt rt v = .ok i) :
    ∃ s, v = .scalar s := by
  cases v with
  | scalar s => exact ⟨s, rfl⟩
  | list | set | map => simp [readInt, laxText] at h

theorem respects_readInt (rt : Runtime) : Respects (readInt rt) :=
  respects_of_number (fun (q : Rat) (i : Int) => q = i) (fun _ _ h => readInt_scalar h)
    fun _ _ _ hs => readInt_number rt hs

theorem readBounded_eq_ok {rt : Runtime} {low : Int} {high : Option Int} {v : Val} {i : Int} :
    readBounded rt low high v = .ok i ↔
      readInt rt v = .ok i ∧ low ≤ i ∧ high.any (· < i) = false := by
  unfold readBounded
  cases readInt rt v with
  | error faults => simp
  | ok j =>
      by_cases hlow : j < low
      · simp only [hlow, if_true, Checked.fault_ne_ok, Except.ok.injEq, false_iff]
        rintro ⟨rfl, hle, -⟩
        omega
      · by_cases hhigh : high.any (· < j) = true
        · simp only [hlow, hhigh, if_true, if_false, Checked.fault_ne_ok, Except.ok.injEq,
            false_iff]
          rintro ⟨rfl, -, habove⟩
          simp [hhigh] at habove
        · simp only [hlow, hhigh, Bool.false_eq_true, if_false, Except.ok.injEq]
          constructor
          · rintro rfl
            exact ⟨rfl, by omega, by simpa using hhigh⟩
          · exact fun hj => hj.1

theorem respects_readBounded (rt : Runtime) (low : Int) (high : Option Int) :
    Respects (readBounded rt low high) := by
  intro v w i heqv hread
  rw [readBounded_eq_ok] at hread ⊢
  exact ⟨respects_readInt rt v w i heqv hread.1, hread.2⟩

theorem eqv_str {v : Val} {text : String} : v.eqv (.str text) = true ↔ v = .str text := by
  cases v with
  | scalar s => simp [Val.eqv, Scalar.eqv_str]
  | list | set | map => simp [Val.eqv]

theorem str_eqv {v : Val} {text : String} : (Val.str text).eqv v = true ↔ v = .str text := by
  cases v with
  | scalar s =>
      cases s with
      | float f => cases f <;> simp [Val.eqv, Scalar.eqv, Scalar.number?]
      | str other =>
          rw [Val.eqv, Scalar.eqv_str]
          simp [eq_comm]
      | null | bool | int | bytes | stamp => simp [Val.eqv, Scalar.eqv, Scalar.number?]
  | list | set | map => simp [Val.eqv]

theorem eqv_null_iff {v w : Val} (h : v.eqv w = true) : v = .null ↔ w = .null := by
  cases v with
  | scalar s =>
      cases w with
      | scalar t =>
          rcases Scalar.eqv_cases (by simpa [Val.eqv] using h) with rfl | ⟨q, hs, ht⟩
          · rfl
          · have hs' : s ≠ .null := by rintro rfl; simp [Scalar.number?] at hs
            have ht' : t ≠ .null := by rintro rfl; simp [Scalar.number?] at ht
            simp [hs', ht']
      | list | set | map => simp [Val.eqv] at h
  | list | set | map => cases w <;> simp [Val.eqv] at h ⊢

theorem readNullable_eq_ok {α : Type} {read : Val → Checked α} {v : Val} {found : Option α} :
    readNullable read v = .ok found ↔
      (v = .null ∧ found = none) ∨ (v ≠ .null ∧ ∃ a, read v = .ok a ∧ found = some a) := by
  by_cases hv : v = .null
  · subst hv
    simp [readNullable, eq_comm]
  · have hread : readNullable read v = (Checked.of some).both (read v) := by
      unfold readNullable
      split
      next => exact absurd rfl hv
      next => rfl
    rw [hread]
    cases read v with
    | error faults => simp [hv, Checked.of, Checked.both]
    | ok a => simp [hv, Checked.of, Checked.both, eq_comm]

theorem respects_readNullable {α : Type} {read : Val → Checked α} (h : Respects read) :
    Respects (readNullable read) := by
  intro v w found heqv hread
  rw [readNullable_eq_ok] at hread ⊢
  rcases hread with ⟨hw, hfound⟩ | ⟨hw, a, ha, hfound⟩
  · exact .inl ⟨(eqv_null_iff heqv).mpr hw, hfound⟩
  · exact .inr ⟨fun hv => hw ((eqv_null_iff heqv).mp hv), a, h v w a heqv ha, hfound⟩

theorem respects_readChoice {α : Type} (table : List (String × α)) :
    Respects (readChoice table) := by
  intro v w a heqv hread
  cases hw : w.str? with
  | none => simp [readChoice, hw] at hread
  | some text =>
      obtain rfl := Val.str?_eq_some.mp hw
      rwa [eqv_str.mp heqv]

theorem readFloat_number (rt : Runtime) {s : Scalar} {q : Rat} (hs : s.number? = some q) :
    readFloat rt (.scalar s) = .ok (.finite q) := by
  cases s with
  | bool b => simp_all [Scalar.number?, readFloat]
  | int j => simp_all [Scalar.number?, readFloat]
  | float f => cases f <;> simp_all [Scalar.number?, readFloat]
  | null | str | bytes | stamp => simp [Scalar.number?] at hs

theorem readRatio_scalar {rt : Runtime} {v : Val} {f : PyFloat} (h : readRatio rt v = .ok f) :
    ∃ s, v = .scalar s := by
  cases v with
  | scalar s => exact ⟨s, rfl⟩
  | list | set | map => simp [readRatio, readFloat, laxText] at h

theorem readRatio_number (rt : Runtime) {s : Scalar} {q : Rat} {f : PyFloat}
    (hs : s.number? = some q) :
    readRatio rt (.scalar s) = .ok f ↔ f = .finite q ∧ 0 ≤ q ∧ q ≤ 1 := by
  simp only [readRatio, readFloat_number rt hs]
  by_cases hlow : q < 0
  · have hbound : ¬0 ≤ q := not_le.mpr hlow
    simp [hlow, hbound]
  · by_cases hhigh : 1 < q
    · have hbound : ¬q ≤ 1 := not_le.mpr hhigh
      simp [hlow, hhigh, hbound]
    · simp [hlow, hhigh, not_lt.mp hlow, not_lt.mp hhigh, eq_comm]

theorem respects_readRatio (rt : Runtime) : Respects (readRatio rt) :=
  respects_of_number (fun (q : Rat) (f : PyFloat) => f = .finite q ∧ 0 ≤ q ∧ q ≤ 1)
    (fun _ _ h => readRatio_scalar h) fun _ _ _ hs => readRatio_number rt hs

/-- Texts only equal texts, so a list of texts equals no other list. -/
theorem eqv_texts {texts : List String} {w : Val} (h : (Val.list (texts.map .str)).eqv w = true) :
    w = .list (texts.map .str) := by
  cases w with
  | list items =>
      rw [Val.eqv] at h
      induction texts generalizing items with
      | nil => cases items <;> simp_all [Val.eqvList]
      | cons text rest ih =>
          cases items with
          | nil => simp [Val.eqvList] at h
          | cons item items =>
              simp only [List.map_cons, Val.eqvList, Bool.and_eq_true, str_eqv] at h
              have hrest := ih items h.2
              simp_all
  | scalar | set | map => simp [Val.eqv] at h

end Papaia.Ingest
