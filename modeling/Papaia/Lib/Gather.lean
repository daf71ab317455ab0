/-
Module: Papaia.Lib.Gather
Purpose: Items gathered into one group for each key, in the order the keys first appear: a group is
  made from the first item of its key and takes in every item of it.
Trusted boundary: none
Main exports: gather, mem_gather, exists_gathered
-/
import Mathlib.Data.List.Induction

namespace Papaia.Gather

variable {α γ κ : Type*} [DecidableEq κ] (keyOf : α → Option κ) (groupKey : γ → κ) (fresh : α → γ)
  (absorb : γ → α → γ)

/-- An item goes into the group of its key, or begins one. -/
def gatherOne (groups : List γ) (item : α) : List γ :=
  match keyOf item with
  | none => groups
  | some key =>
      if groups.any fun group => groupKey group = key then
        groups.map fun group => if groupKey group = key then absorb group item else group
      else groups ++ [absorb (fresh item) item]

def gather (items : List α) : List γ :=
  items.foldl (gatherOne keyOf groupKey fresh absorb) []

/-- A group as its items make it. -/
def IsGroup (items : List α) (group : γ) : Prop :=
  ∃ first rest, items.filter (fun item => keyOf item = some (groupKey group)) = first :: rest ∧
    group = (first :: rest).foldl absorb (fresh first)

variable {keyOf groupKey fresh absorb}

section

variable (hfresh : ∀ item key, keyOf item = some key → groupKey (fresh item) = key)
  (habsorb : ∀ group item, groupKey (absorb group item) = groupKey group)

omit [DecidableEq κ] in
include habsorb in
theorem groupKey_foldl (items : List α) (group : γ) :
    groupKey (items.foldl absorb group) = groupKey group := by
  induction items generalizing group with
  | nil => rfl
  | cons item rest ih => rw [List.foldl_cons, ih, habsorb]

include hfresh habsorb in
/-- Where items have a key there is their group. -/
theorem isGroup_of_filter {items rest : List α} {first : α} {key : κ}
    (h : items.filter (fun item => keyOf item = some key) = first :: rest) :
    groupKey ((first :: rest).foldl absorb (fresh first)) = key ∧
      IsGroup keyOf groupKey fresh absorb items ((first :: rest).foldl absorb (fresh first)) := by
  have hfirst : keyOf first = some key := by
    have hmem : first ∈ items.filter (fun item => keyOf item = some key) := by simp [h]
    simpa using (List.mem_filter.mp hmem).2
  have hkey : groupKey ((first :: rest).foldl absorb (fresh first)) = key := by
    rw [groupKey_foldl habsorb, hfresh first key hfirst]
  exact ⟨hkey, first, rest, by rw [hkey, h], rfl⟩

/-- A key has one group. -/
theorem IsGroup.eq {items : List α} {one other : γ}
    (hone : IsGroup keyOf groupKey fresh absorb items one)
    (hother : IsGroup keyOf groupKey fresh absorb items other)
    (hkey : groupKey one = groupKey other) : one = other := by
  obtain ⟨first, rest, hfilter, hfold⟩ := hone
  obtain ⟨first', rest', hfilter', hfold'⟩ := hother
  rw [hkey, hfilter'] at hfilter
  obtain ⟨rfl, rfl⟩ := List.cons.inj hfilter
  rw [hfold, hfold']

/-- An item of another key leaves a group as it is. -/
theorem isGroup_append_of_ne {items : List α} {item : α} {group : γ}
    (hne : keyOf item ≠ some (groupKey group)) :
    IsGroup keyOf groupKey fresh absorb (items ++ [item]) group ↔
      IsGroup keyOf groupKey fresh absorb items group := by
  have hfilter : (items ++ [item]).filter (fun item => keyOf item = some (groupKey group)) =
      items.filter fun item => keyOf item = some (groupKey group) := by
    simp [List.filter_append, hne]
  rw [IsGroup, IsGroup, hfilter]

include habsorb in
/-- An item of its key goes into a group. -/
theorem IsGroup.absorb_append {items : List α} {item : α} {group : γ}
    (hkey : keyOf item = some (groupKey group))
    (h : IsGroup keyOf groupKey fresh absorb items group) :
    IsGroup keyOf groupKey fresh absorb (items ++ [item]) (absorb group item) := by
  obtain ⟨first, rest, hfilter, hfold⟩ := h
  refine ⟨first, rest ++ [item], ?_, ?_⟩
  · rw [habsorb, List.filter_append, hfilter]
    simp [hkey]
  · rw [← List.cons_append, List.foldl_append, ← hfold]
    rfl

include hfresh habsorb in
/-- The first item of its key begins a group. -/
theorem isGroup_fresh {items : List α} {item : α} {key : κ} (hkey : keyOf item = some key)
    (hnone : items.filter (fun item => keyOf item = some key) = []) :
    IsGroup keyOf groupKey fresh absorb (items ++ [item]) (absorb (fresh item) item) := by
  refine ⟨item, [], ?_, rfl⟩
  rw [habsorb, hfresh item key hkey, List.filter_append, hnone]
  simp [hkey]

include hfresh habsorb in
/-- One more item changes the group of its key only. -/
theorem mem_gatherOne {items : List α} {groups : List γ} {item : α}
    (h : ∀ group, group ∈ groups ↔ IsGroup keyOf groupKey fresh absorb items group) (group : γ) :
    group ∈ gatherOne keyOf groupKey fresh absorb groups item ↔
      IsGroup keyOf groupKey fresh absorb (items ++ [item]) group := by
  unfold gatherOne
  cases hkey : keyOf item with
  | none => rw [h, isGroup_append_of_ne (by simp [hkey])]
  | some key =>
      have hothers : ∀ {group}, groupKey group ≠ key →
          (group ∈ groups ↔ IsGroup keyOf groupKey fresh absorb (items ++ [item]) group) := by
        intro group hne
        rw [h, isGroup_append_of_ne (by simpa [hkey] using Ne.symm hne)]
      dsimp only
      by_cases hany : groups.any (fun group => groupKey group = key) = true
      · obtain ⟨old, hold, hsame⟩ := List.any_eq_true.mp hany
        have hsame : groupKey old = key := by simpa using hsame
        have hnew := IsGroup.absorb_append habsorb (by rw [hkey, hsame]) ((h old).mp hold)
        rw [if_pos hany, List.mem_map]
        constructor
        · rintro ⟨other, hother, rfl⟩
          by_cases hk : groupKey other = key
          · rw [if_pos hk, ((h other).mp hother).eq ((h old).mp hold) (hk.trans hsame.symm)]
            exact hnew
          · rw [if_neg hk]
            exact (hothers hk).mp hother
        · intro hgroup
          by_cases hk : groupKey group = key
          · refine ⟨old, hold, ?_⟩
            rw [if_pos hsame]
            exact hnew.eq hgroup (by rw [habsorb, hsame, hk])
          · exact ⟨group, (hothers hk).mpr hgroup, if_neg hk⟩
      · have hnone : items.filter (fun item => keyOf item = some key) = [] := by
          cases hfilter : items.filter (fun item => keyOf item = some key) with
          | nil => rfl
          | cons first rest =>
              obtain ⟨hk, hgroup⟩ := isGroup_of_filter hfresh habsorb hfilter
              exact absurd (List.any_eq_true.mpr ⟨_, (h _).mpr hgroup, decide_eq_true hk⟩) hany
        have hnew := isGroup_fresh hfresh habsorb hkey hnone
        rw [if_neg hany, List.mem_append, List.mem_singleton]
        constructor
        · rintro (hold | rfl)
          · have hk : groupKey group ≠ key := fun hk =>
              hany (List.any_eq_true.mpr ⟨group, hold, decide_eq_true hk⟩)
            exact (hothers hk).mp hold
          · exact hnew
        · intro hgroup
          by_cases hk : groupKey group = key
          · exact .inr (hgroup.eq hnew (by rw [hk, habsorb, hfresh item key hkey]))
          · exact .inl ((hothers hk).mpr hgroup)

include hfresh habsorb in
/-- The groups are what the items of each key make. -/
theorem mem_gather {items : List α} {group : γ} :
    group ∈ gather keyOf groupKey fresh absorb items ↔
      IsGroup keyOf groupKey fresh absorb items group := by
  induction items using List.reverseRecOn generalizing group with
  | nil => simp [gather, IsGroup]
  | append_singleton items item ih =>
      rw [gather, List.foldl_append]
      exact mem_gatherOne hfresh habsorb (fun _ => ih) group

include hfresh habsorb in
/-- Every item with a key is in a group. -/
theorem exists_gathered {items : List α} {item : α} {key : κ} (hmem : item ∈ items)
    (hkey : keyOf item = some key) :
    ∃ group ∈ gather keyOf groupKey fresh absorb items, groupKey group = key := by
  have hin : item ∈ items.filter (fun item => keyOf item = some key) :=
    List.mem_filter.mpr ⟨hmem, by simpa using hkey⟩
  cases hfilter : items.filter (fun item => keyOf item = some key) with
  | nil =>
      rw [hfilter] at hin
      cases hin
  | cons first rest =>
      obtain ⟨hk, hgroup⟩ := isGroup_of_filter hfresh habsorb hfilter
      exact ⟨_, (mem_gather hfresh habsorb).mpr hgroup, hk⟩

end

end Papaia.Gather
