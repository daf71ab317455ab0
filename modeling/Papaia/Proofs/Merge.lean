/-
Module: Papaia.Proofs.Merge
Purpose: What a key holds after the merge of the catalog defaults under an authored job.
Trusted boundary: none
Main exports: lookup_deepMerge, get?_effective_of_not_section, get?_effective_of_section
-/
import Papaia.Ingest.Rules

namespace Papaia.Ingest

theorem lookup_map_snd {α β γ : Type*} [DecidableEq α] (f : α → β → γ) (entries : List (α × β))
    (key : α) :
    (entries.map fun entry => (entry.1, f entry.1 entry.2)).lookup key =
      (entries.lookup key).map (f key) := by
  induction entries with
  | nil => rfl
  | cons entry rest ih =>
      obtain ⟨k, v⟩ := entry
      by_cases hk : key = k
      · subst hk
        simp
      · have hne : (key == k) = false := by simpa using hk
        simp [List.lookup_cons, hne, ih]

theorem lookup_filter_of {α β : Type*} [DecidableEq α] (keep : α → Bool) (entries : List (α × β))
    {key : α} (hkeep : keep key = true) :
    (entries.filter fun entry => keep entry.1).lookup key = entries.lookup key := by
  induction entries with
  | nil => rfl
  | cons entry rest ih =>
      obtain ⟨k, v⟩ := entry
      by_cases hk : key = k
      · subst hk
        simp [hkeep]
      · have hne : (key == k) = false := by simpa using hk
        by_cases hkk : keep k = true <;> simp [hkk, List.lookup_cons, hne, ih]

theorem mergedAt_eq (old : Val) (key : Scalar) (override : Mapping) :
    mergedAt old key override =
      match override.lookup key with
      | some v => mergeValue (some old) v
      | none => old := by
  induction override with
  | nil => simp [mergedAt]
  | cons entry rest ih =>
      obtain ⟨k, v⟩ := entry
      by_cases hk : k = key
      · simp [mergedAt, hk]
      · have hne : (key == k) = false := by simpa using Ne.symm hk
        simp [mergedAt, hk, List.lookup_cons, hne, ih]

@[simp] theorem mergeValue_none (v : Val) : mergeValue none v = v := by
  cases v <;> simp [mergeValue]

/-- A key of the merge holds the job's value (merged with the old one where both are mappings), or
the old value when the job does not name the key. -/
theorem lookup_deepMerge (base override : Mapping) (key : Scalar) :
    (deepMerge base override).lookup key =
      match override.lookup key with
      | some v => some (mergeValue (base.lookup key) v)
      | none => base.lookup key := by
  rw [deepMerge, List.lookup_append, lookup_map_snd (fun k old => mergedAt old k override)]
  cases hbase : base.lookup key with
  | some old =>
      simp only [Option.map_some, Option.some_or, mergedAt_eq]
      cases override.lookup key <;> rfl
  | none =>
      rw [lookup_filter_of (fun k => (base.lookup k).isNone) override (by simp [hbase])]
      cases override.lookup key <;> simp

theorem get?_knownDefaults (defaults : Mapping) (key : String) :
    (knownDefaults defaults).get? key =
      if key ∈ defaultSections then defaults.get? key else none := by
  have hgen : ∀ sections : List String,
      Mapping.get? (sections.filterMap fun k =>
        (defaults.get? k).map fun value => (Scalar.str k, value)) key =
        if key ∈ sections then defaults.get? key else none := by
    intro sections
    induction sections with
    | nil => simp [Mapping.get?]
    | cons k rest ih =>
        by_cases hk : key = k
        · subst hk
          cases hv : defaults.get? key with
          | none =>
              simp only [List.filterMap_cons, hv, Option.map_none, ih]
              simp
          | some v =>
              simp only [List.filterMap_cons, hv, Option.map_some]
              simp [Mapping.get?]
        · have hne : (Scalar.str key == Scalar.str k) = false := by simpa using hk
          cases hv : defaults.get? k with
          | none => simp [hv, ih, hk]
          | some v =>
              simp only [List.filterMap_cons, hv, Option.map_some, List.mem_cons, hk, false_or]
              rw [← ih]
              simp [Mapping.get?, List.lookup_cons, hne]
  exact hgen defaultSections

/-- A key that is no section of the defaults holds what the job says. -/
theorem get?_effective_of_not_section (raw defaults : Mapping) {key : String}
    (h : key ∉ defaultSections) : (effective raw defaults).get? key = raw.get? key := by
  have hknown := get?_knownDefaults defaults key
  rw [if_neg h] at hknown
  rw [Mapping.get?, effective, lookup_deepMerge]
  rw [Mapping.get?] at hknown
  rw [hknown]
  cases hraw : raw.get? key <;> rw [Mapping.get?] at hraw <;> simp [hraw]

/-- A section holds the job's value over the default of the catalog. -/
theorem get?_effective_of_section (raw defaults : Mapping) {key : String}
    (h : key ∈ defaultSections) :
    (effective raw defaults).get? key =
      match raw.get? key with
      | some v => some (mergeValue (defaults.get? key) v)
      | none => defaults.get? key := by
  have hknown := get?_knownDefaults defaults key
  rw [if_pos h, Mapping.get?] at hknown
  rw [Mapping.get?, effective, lookup_deepMerge, hknown]
  rfl

end Papaia.Ingest
