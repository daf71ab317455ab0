/-
Module: Papaia.Lib.Keyed
Purpose: Lists of things with a key: putting things in the place of those with their keys, dropping
  the things of some keys, and the last thing of each key.
Trusted boundary: none
Main exports: Distinct, put, putAll, dropKeys, assign, lastOfEach, Latest, mem_putAll,
  mem_lastOfEach
-/
import Mathlib.Data.List.Nodup

namespace Papaia.Keyed

variable {α κ : Type*} (key : α → κ)

/-- No two things have the same key. -/
def Distinct (items : List α) : Prop :=
  (items.map key).Nodup

instance [DecidableEq κ] (items : List α) : Decidable (Distinct key items) :=
  inferInstanceAs (Decidable (items.map key).Nodup)

/-- A thing that nothing with its key comes after. -/
def Latest (items : List α) (item : α) : Prop :=
  ∃ earlier later, items = earlier ++ item :: later ∧ ∀ other ∈ later, key other ≠ key item

variable {key}

/-! ### Distinct keys -/

theorem distinct_nil : Distinct key [] :=
  List.nodup_nil

theorem Distinct.eq {items : List α} (h : Distinct key items) {one other : α} (hone : one ∈ items)
    (hother : other ∈ items) (hkey : key one = key other) : one = other :=
  List.inj_on_of_nodup_map h hone hother hkey

theorem Distinct.filter {items : List α} (h : Distinct key items) (keep : α → Bool) :
    Distinct key (items.filter keep) :=
  h.sublist (List.filter_sublist.map key)

/-! ### The latest thing of a key -/

theorem not_latest_nil {item : α} : ¬Latest key [] item := by
  rintro ⟨earlier, later, h, -⟩
  simp at h

theorem latest_cons {new item : α} {rest : List α} :
    Latest key (new :: rest) item ↔
      Latest key rest item ∨ (item = new ∧ key new ∉ rest.map key) := by
  constructor
  · rintro ⟨earlier, later, hsplit, hlater⟩
    cases earlier with
    | nil =>
        obtain ⟨rfl, rfl⟩ := List.cons.inj hsplit
        refine .inr ⟨rfl, ?_⟩
        simpa using hlater
    | cons first earlier =>
        obtain ⟨rfl, rfl⟩ := List.cons.inj hsplit
        exact .inl ⟨earlier, later, rfl, hlater⟩
  · rintro (⟨earlier, later, rfl, hlater⟩ | ⟨rfl, hnot⟩)
    · exact ⟨new :: earlier, later, rfl, hlater⟩
    · exact ⟨[], rest, rfl, by simpa using hnot⟩

theorem Latest.mem {items : List α} {item : α} (h : Latest key items item) : item ∈ items := by
  obtain ⟨earlier, later, rfl, -⟩ := h
  simp

/-- Among things with distinct keys every one is the latest of its key. -/
theorem latest_iff_mem {items : List α} (h : Distinct key items) {item : α} :
    Latest key items item ↔ item ∈ items := by
  refine ⟨Latest.mem, ?_⟩
  intro hmem
  obtain ⟨earlier, later, rfl⟩ := List.append_of_mem hmem
  refine ⟨earlier, later, rfl, ?_⟩
  intro other hother hkey
  rw [Distinct, List.map_append, List.map_cons, List.nodup_append] at h
  exact (List.nodup_cons.mp h.2.1).1 (hkey ▸ List.mem_map_of_mem hother)

/-- What replaces things key by key leaves those of other keys and the latest of each key. -/
theorem mem_foldl_iff {step : List α → α → List α}
    (hstep : ∀ items new item,
      item ∈ step items new ↔ (item ∈ items ∧ key item ≠ key new) ∨ item = new)
    {items news : List α} {item : α} :
    item ∈ news.foldl step items ↔
      (item ∈ items ∧ key item ∉ news.map key) ∨ Latest key news item := by
  induction news generalizing items with
  | nil => simp [not_latest_nil]
  | cons new rest ih =>
      rw [List.foldl_cons, ih, hstep, latest_cons, List.map_cons, List.mem_cons, not_or]
      constructor
      · rintro (⟨⟨hmem, hne⟩ | rfl, hnot⟩ | hlatest)
        · exact .inl ⟨hmem, hne, hnot⟩
        · exact .inr (.inr ⟨rfl, hnot⟩)
        · exact .inr (.inl hlatest)
      · rintro (⟨hmem, hne, hnot⟩ | hlatest | ⟨rfl, hnot⟩)
        · exact .inl ⟨.inl ⟨hmem, hne⟩, hnot⟩
        · exact .inr hlatest
        · exact .inl ⟨.inr rfl, hnot⟩

section Operations

variable [DecidableEq κ] (key)

/-- A thing takes the place of the one with its key. -/
def put (items : List α) (new : α) : List α :=
  items.filter (fun item => key item ≠ key new) ++ [new]

def putAll (items news : List α) : List α :=
  news.foldl (put key) items

/-- The things of some keys are dropped. -/
def dropKeys (items : List α) (keys : List κ) : List α :=
  items.filter fun item => key item ∉ keys

/-- A thing takes the place of the one with its key, or comes last. -/
def assign (items : List α) (new : α) : List α :=
  if items.any fun item => key item = key new then
    items.map fun item => if key item = key new then new else item
  else items ++ [new]

/-- The last thing of each key, where the first one of it stood. -/
def lastOfEach (items : List α) : List α :=
  items.foldl (assign key) []

variable {key}

/-- A key that is there has a latest thing. -/
theorem exists_latest {items : List α} {k : κ} (h : k ∈ items.map key) :
    ∃ last, Latest key items last ∧ key last = k := by
  induction items with
  | nil => cases h
  | cons first rest ih =>
      by_cases hrest : k ∈ rest.map key
      · obtain ⟨last, hlast, hkey⟩ := ih hrest
        exact ⟨last, latest_cons.mpr (.inl hlast), hkey⟩
      · rcases List.mem_cons.mp h with rfl | hmem
        · exact ⟨first, latest_cons.mpr (.inr ⟨rfl, hrest⟩), rfl⟩
        · exact absurd hmem hrest

theorem Distinct.put {items : List α} (h : Distinct key items) (new : α) :
    Distinct key (put key items new) := by
  rw [Distinct, Keyed.put, List.map_append, List.nodup_append]
  refine ⟨h.filter _, by simp, ?_⟩
  intro one hone other hother
  obtain ⟨item, hitem, rfl⟩ := List.mem_map.mp hone
  obtain rfl : other = key new := by simpa using hother
  simpa using (List.mem_filter.mp hitem).2

theorem Distinct.putAll {items : List α} (h : Distinct key items) (news : List α) :
    Distinct key (putAll key items news) := by
  induction news generalizing items with
  | nil => exact h
  | cons new rest ih => exact ih (h.put new)

theorem Distinct.assign {items : List α} (h : Distinct key items) (new : α) :
    Distinct key (assign key items new) := by
  unfold Keyed.assign
  split
  next =>
      have hkeys : (items.map fun item => if key item = key new then new else item).map key =
          items.map key := by
        rw [List.map_map]
        refine List.map_congr_left fun item _ => ?_
        by_cases hkey : key item = key new <;> simp [hkey]
      rwa [Distinct, hkeys]
  next hany =>
      rw [Distinct, List.map_append, List.nodup_append]
      refine ⟨h, by simp, ?_⟩
      intro one hone other hother
      obtain ⟨item, hitem, rfl⟩ := List.mem_map.mp hone
      obtain rfl : other = key new := by simpa using hother
      intro hkey
      exact hany (List.any_eq_true.mpr ⟨item, hitem, by simpa using hkey⟩)

/-- The last things of all keys have distinct keys. -/
theorem distinct_lastOfEach (items : List α) : Distinct key (lastOfEach key items) := by
  have h : ∀ start, Distinct key start → Distinct key (items.foldl (Keyed.assign key) start) := by
    induction items with
    | nil => exact fun _ hstart => hstart
    | cons new rest ih => exact fun start hstart => ih _ (hstart.assign new)
  exact h [] distinct_nil

theorem mem_put {items : List α} {new item : α} :
    item ∈ put key items new ↔ (item ∈ items ∧ key item ≠ key new) ∨ item = new := by
  simp [put]

theorem mem_dropKeys {items : List α} {keys : List κ} {item : α} :
    item ∈ dropKeys key items keys ↔ item ∈ items ∧ key item ∉ keys := by
  simp [dropKeys]

theorem mem_putAll {items news : List α} {item : α} :
    item ∈ putAll key items news ↔
      (item ∈ items ∧ key item ∉ news.map key) ∨ Latest key news item :=
  mem_foldl_iff fun _ _ _ => mem_put

theorem mem_assign {items : List α} {new item : α} :
    item ∈ assign key items new ↔ (item ∈ items ∧ key item ≠ key new) ∨ item = new := by
  unfold assign
  split
  next hany =>
    obtain ⟨old, hold, hkey⟩ := List.any_eq_true.mp hany
    rw [List.mem_map]
    constructor
    · rintro ⟨other, hother, rfl⟩
      split
      next => exact .inr rfl
      next hne => exact .inl ⟨hother, hne⟩
    · rintro (⟨hmem, hne⟩ | rfl)
      · exact ⟨item, hmem, if_neg hne⟩
      · exact ⟨old, hold, if_pos (by simpa using hkey)⟩
  next hany =>
    rw [List.mem_append, List.mem_singleton]
    refine or_congr_left ?_
    refine ⟨fun hmem => ⟨hmem, fun hkey => hany ?_⟩, And.left⟩
    exact List.any_eq_true.mpr ⟨item, hmem, by simpa using hkey⟩

theorem length_assign_le (items : List α) (new : α) :
    (assign key items new).length ≤ items.length + 1 := by
  unfold assign
  split <;> simp

theorem mem_lastOfEach {items : List α} {item : α} :
    item ∈ lastOfEach key items ↔ Latest key items item := by
  have h : item ∈ items.foldl (assign key) [] ↔
      (item ∈ [] ∧ key item ∉ items.map key) ∨ Latest key items item :=
    mem_foldl_iff fun _ _ _ => mem_assign
  simpa [lastOfEach] using h

/-- The thing of a key in the result is the last one that has the key. -/
theorem find?_lastOfEach (items : List α) (k : κ) :
    (lastOfEach key items).find? (fun item => key item == k) =
      (items.filter fun item => key item == k).getLast? := by
  cases hlast : (items.filter fun item => key item == k).getLast? with
  | none =>
      have hnone := List.filter_eq_nil_iff.1 (List.getLast?_eq_none_iff.1 hlast)
      rw [List.find?_eq_none]
      intro item hitem
      exact hnone item (mem_lastOfEach.1 hitem).mem
  | some last =>
      have hmem := List.mem_of_getLast? hlast
      have hkey : key last = k := by simpa using (List.mem_filter.1 hmem).2
      have hin : last ∈ lastOfEach key items := by
        obtain ⟨earlier, hsplit⟩ := List.getLast?_eq_some_iff.1 hlast
        obtain ⟨one, two, hitems, hone, htwo⟩ := List.filter_eq_append_iff.1 hsplit
        obtain ⟨skipped, later, rfl, -, -, hlater⟩ := List.filter_eq_cons_iff.1 htwo
        rw [mem_lastOfEach]
        refine ⟨one ++ skipped, later, by simp [hitems], ?_⟩
        intro other hother hsame
        have hnot := List.filter_eq_nil_iff.1 hlater other hother
        simp [hsame, hkey] at hnot
      cases hfound : (lastOfEach key items).find? fun item => key item == k with
      | none => exact absurd (by simpa using hkey) (List.find?_eq_none.1 hfound last hin)
      | some found =>
          have hfoundKey : key found = k := by simpa using List.find?_some hfound
          rw [(distinct_lastOfEach items).eq (List.mem_of_find?_eq_some hfound) hin
            (hfoundKey.trans hkey.symm)]

end Operations

end Papaia.Keyed
