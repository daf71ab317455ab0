/-
Module: Papaia.Lib.Grouped
Purpose: Tables that hold one value for each key, in the order the keys are first met: what a fold
  that changes the entry of each item's key makes, and that groups by a key part a list.
Trusted boundary: none
Main exports: nodup_eraseDups, table, keys_table, lookup_table, change,
  mem_keys_change, eq_or_mem_of_mem_change, foldl_change, perm_flatMap_groups, sum_groups
-/
import Mathlib.Algebra.BigOperators.Group.List.Basic
import Mathlib.Data.List.Basic
import Mathlib.Data.List.Nodup
import Mathlib.Data.List.Induction

namespace Papaia.Grouped

variable {α β κ : Type*}

/-! ### Keys in the order they are met -/

theorem nodup_eraseDups [BEq κ] [LawfulBEq κ] (keys : List κ) : keys.eraseDups.Nodup := by
  induction keys using List.reverseRecOn with
  | nil => exact List.nodup_nil
  | append_singleton keys k ih =>
      rw [List.eraseDups_append, List.nodup_append]
      refine ⟨ih, ?_, ?_⟩
      · by_cases hk : k ∈ keys <;> simp [List.removeAll, hk, List.eraseDups_cons]
      · intro one hone other hother hsame
        subst hsame
        simp only [List.removeAll, List.mem_eraseDups, List.mem_filter] at hone hother
        simp [hone] at hother

theorem eraseDups_concat [BEq κ] [LawfulBEq κ] (keys : List κ) (k : κ) :
    (keys ++ [k]).eraseDups = if k ∈ keys then keys.eraseDups else keys.eraseDups ++ [k] := by
  rw [List.eraseDups_append]
  by_cases hk : k ∈ keys <;> simp [List.removeAll, hk, List.eraseDups_cons]

/-! ### Tables -/

/-- A table with one value for each key. -/
def table (keys : List κ) (value : κ → β) : List (κ × β) :=
  keys.map fun k => (k, value k)

theorem keys_table (keys : List κ) (value : κ → β) : (table keys value).map Prod.fst = keys := by
  rw [table, List.map_map]
  exact List.map_id keys

variable [DecidableEq κ]

theorem lookup_table [BEq κ] [LawfulBEq κ] (keys : List κ) (value : κ → β) (k : κ) :
    (table keys value).lookup k = if k ∈ keys then some (value k) else none := by
  induction keys with
  | nil => rfl
  | cons first rest ih =>
      rw [table] at ih ⊢
      rw [List.map_cons, List.lookup_cons, ih]
      by_cases h : k = first
      · subst h
        simp
      · simp [beq_false_of_ne h, h]

/-- The entry of a key is changed in place; a key that is not there comes last, from a default. -/
def change (k : κ) (default : β) (f : β → β) : List (κ × β) → List (κ × β)
  | [] => [(k, f default)]
  | (other, value) :: rest =>
      if other = k then (other, f value) :: rest
      else (other, value) :: change k default f rest

theorem mem_keys_change {k other : κ} {default : β} {f : β → β} {entries : List (κ × β)} :
    other ∈ (change k default f entries).map Prod.fst ↔ other = k ∨ other ∈ entries.map Prod.fst := by
  induction entries with
  | nil => simp [change]
  | cons first rest ih =>
      rw [change]
      split
      · next hsame => simp [hsame]
      · rw [List.map_cons, List.mem_cons, ih, List.map_cons, List.mem_cons]
        tauto

theorem eq_or_mem_of_mem_change {k : κ} {default : β} {f : β → β} {entries : List (κ × β)} {e : κ × β}
    (h : e ∈ change k default f entries) : (∃ value, e = (k, f value)) ∨ e ∈ entries := by
  induction entries with
  | nil => exact .inl ⟨default, List.mem_singleton.1 h⟩
  | cons first rest ih =>
      rw [change] at h
      split at h
      · next hsame =>
          rcases List.mem_cons.1 h with rfl | hrest
          · exact .inl ⟨first.2, by rw [hsame]⟩
          · exact .inr (List.mem_cons_of_mem _ hrest)
      · rcases List.mem_cons.1 h with rfl | hrest
        · exact .inr List.mem_cons_self
        · exact (ih hrest).imp_right (List.mem_cons_of_mem _)

theorem change_of_not_mem {keys : List κ} {k : κ} (value : κ → β) (default : β) (f : β → β)
    (h : k ∉ keys) : change k default f (table keys value) = table keys value ++ [(k, f default)] := by
  induction keys with
  | nil => rfl
  | cons other rest ih =>
      rw [List.mem_cons, not_or] at h
      have htail := ih h.2
      simp only [table, List.map_cons, change, if_neg (Ne.symm h.1)] at htail ⊢
      rw [htail]
      rfl

theorem change_of_mem {keys : List κ} {k : κ} (value : κ → β) (default : β) (f : β → β)
    (hkeys : keys.Nodup) (h : k ∈ keys) :
    change k default f (table keys value) =
      table keys fun other => if other = k then f (value other) else value other := by
  induction keys with
  | nil => cases h
  | cons other rest ih =>
      rw [List.nodup_cons] at hkeys
      by_cases hsame : other = k
      · subst hsame
        have htail : ∀ key ∈ rest, (key, value key) =
            (key, if key = other then f (value key) else value key) := by
          intro key hkey
          have hne : key ≠ other := fun heq => hkeys.1 (heq ▸ hkey)
          rw [if_neg hne]
        simp only [table, List.map_cons, change, if_true]
        rw [List.map_congr_left htail]
      · have hrest := (List.mem_cons.1 h).resolve_left (Ne.symm hsame)
        have htail := ih hkeys.2 hrest
        simp only [table, List.map_cons, change, if_neg hsame] at htail ⊢
        rw [htail]

/-- A fold that changes the entry of each item's key: each key has what its own items make. -/
theorem foldl_change [BEq κ] [LawfulBEq κ] (key : α → κ) (default : β) (step : α → β → β) (items : List α) :
    items.foldl (fun entries item => change (key item) default (step item) entries) [] =
      table (items.map key).eraseDups fun k =>
        (items.filter fun item => key item = k).foldl (fun value item => step item value) default := by
  induction items using List.reverseRecOn with
  | nil => rfl
  | append_singleton items item ih =>
      rw [List.foldl_append, ih, List.foldl_cons, List.foldl_nil, List.map_append, List.map_singleton,
        eraseDups_concat]
      have hother : ∀ k, k ≠ key item →
          ((items ++ [item]).filter fun item => key item = k) = items.filter fun item => key item = k := by
        intro k hne
        rw [List.filter_append, List.filter_singleton]
        simp [Ne.symm hne]
      have hown : ((items ++ [item]).filter fun other => key other = key item) =
          (items.filter fun other => key other = key item) ++ [item] := by
        rw [List.filter_append, List.filter_singleton]
        simp
      by_cases hmem : key item ∈ items.map key
      · rw [if_pos hmem, change_of_mem _ _ _ (nodup_eraseDups _) (List.mem_eraseDups.2 hmem)]
        apply List.map_congr_left
        intro k _
        dsimp only
        by_cases hsame : k = key item
        · subst hsame
          rw [if_pos rfl, hown, List.foldl_append]
          rfl
        · rw [if_neg hsame, hother k hsame]
      · rw [if_neg hmem, change_of_not_mem _ _ _ (mt List.mem_eraseDups.1 hmem)]
        have hnone : (items.filter fun other => key other = key item) = [] := by
          rw [List.filter_eq_nil_iff]
          intro other hitem hkey
          exact hmem (List.mem_map.2 ⟨other, hitem, by simpa using hkey⟩)
        rw [table, table, List.map_append, List.map_singleton, hown, hnone]
        congr 1
        apply List.map_congr_left
        intro k hk
        have hne : k ≠ key item := by
          rintro rfl
          exact hmem (List.mem_eraseDups.1 hk)
        rw [hother k hne]

/-! ### Groups -/

/-- The items of distinct keys, one key after the other, are the items that have one of them. -/
theorem perm_flatMap_filter (key : α → κ) (items : List α) {keys : List κ} (hkeys : keys.Nodup) :
    (keys.flatMap fun k => items.filter fun item => key item = k).Perm
      (items.filter fun item => key item ∈ keys) := by
  induction keys with
  | nil => simp
  | cons k rest ih =>
      rw [List.nodup_cons] at hkeys
      have hsplit := List.filter_append_perm (fun item => decide (key item = k))
        (items.filter fun item => key item ∈ k :: rest)
      rw [List.filter_filter, List.filter_filter] at hsplit
      have hfirst : (items.filter fun item => decide (key item = k) && decide (key item ∈ k :: rest)) =
          items.filter fun item => key item = k := by
        apply List.filter_congr
        intro item _
        by_cases h : key item = k <;> simp [h]
      have hother : (items.filter fun item => !decide (key item = k) && decide (key item ∈ k :: rest)) =
          items.filter fun item => key item ∈ rest := by
        apply List.filter_congr
        intro item _
        by_cases h : key item = k
        · simp [h, hkeys.1]
        · simp [h]
      rw [hfirst, hother] at hsplit
      rw [List.flatMap_cons]
      exact ((ih hkeys.2).append_left _).trans hsplit

/-- The groups of all keys part the items. -/
theorem perm_flatMap_groups (key : α → κ) (items : List α) {keys : List κ} (hkeys : keys.Nodup)
    (h : ∀ item ∈ items, key item ∈ keys) :
    (keys.flatMap fun k => items.filter fun item => key item = k).Perm items := by
  have hall : (items.filter fun item => key item ∈ keys) = items := by
    rw [List.filter_eq_self]
    exact fun item hitem => by simpa using h item hitem
  have hperm := perm_flatMap_filter key items hkeys
  rwa [hall] at hperm

/-- What the groups sum up to, all items do. -/
theorem sum_groups {M : Type*} [AddCommMonoid M] (key : α → κ) (weight : α → M) (items : List α)
    {keys : List κ} (hkeys : keys.Nodup) (h : ∀ item ∈ items, key item ∈ keys) :
    (keys.map fun k => ((items.filter fun item => key item = k).map weight).sum).sum =
      (items.map weight).sum := by
  have hperm := ((perm_flatMap_groups key items hkeys h).map weight).sum_eq
  rw [List.map_flatMap, List.flatMap_def, List.sum_flatten, List.map_map] at hperm
  exact hperm

end Papaia.Grouped
