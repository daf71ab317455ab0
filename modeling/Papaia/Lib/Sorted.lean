/-
Module: Papaia.Lib.Sorted
Purpose: What stands first in a sorted list: the first that counts of a list that was sorted without
  disturbing those that count, what few others come before, and what does not depend on the order
  that the list had before.
Trusted boundary: none
Main exports: find?_insertionSort, mem_take_of_countP, getLast?_of_sorted, lookup_zipIdx, sortBy, sublist_sortBy,
  sortBy_eq_lex, take_eq_of_perm, mem_take_of_first
-/
import Mathlib.Data.List.Lex
import Mathlib.Data.List.Sort
import Mathlib.Data.Prod.Lex

namespace Papaia.Sorted

variable {α β : Type*}

/-- Sorting a list whose members that count are in order leaves the first of them the first. -/
theorem find?_insertionSort {r : α → α → Prop} [DecidableRel r] [Std.Total r] [IsTrans α r]
    {p : α → Bool} {l : List α} (h : (l.filter p).Pairwise r) :
    (l.insertionSort r).find? p = l.find? p := by
  have hsub : ((l.filter p).filter p).Sublist ((l.insertionSort r).filter p) :=
    (List.sublist_insertionSort h List.filter_sublist).filter p
  have hlength : (l.filter p).length = ((l.insertionSort r).filter p).length :=
    ((List.perm_insertionSort r l).filter p).length_eq.symm
  have hsame : (l.filter p).filter p = l.filter p := by simp
  rw [hsame] at hsub
  rw [← List.head?_filter, ← List.head?_filter, hsub.eq_of_length hlength]

/-- In a list in falling order, what has few before it or beside it is among the first. -/
theorem mem_take_of_countP [LinearOrder β] {order : α → β} {sorted : List α} {a : α} {n : Nat}
    (hsorted : sorted.Pairwise fun one two => order two ≤ order one) (ha : a ∈ sorted)
    (hcount : (sorted.countP fun other => decide (order a ≤ order other)) ≤ n) :
    a ∈ sorted.take n := by
  obtain ⟨before, after, rfl⟩ := List.append_of_mem ha
  have hbefore : (before.countP fun other => decide (order a ≤ order other)) = before.length := by
    apply List.countP_eq_length.2
    intro other hother
    have := (List.pairwise_append.1 hsorted).2.2 other hother a List.mem_cons_self
    simpa using this
  rw [List.countP_append, List.countP_cons, hbefore] at hcount
  simp only [le_refl, decide_true, if_true] at hcount
  have hfits : before.length < n := by omega
  rw [List.mem_take_iff_getElem]
  refine ⟨before.length, ?_, ?_⟩
  · simp [hfits]
  · simp

/-- What a strictly rising list ends with is what the list ends with when it is sorted. -/
theorem getLast?_of_sorted [LinearOrder β] {order : α → β} {l sorted : List α}
    (rising : l.Pairwise fun one two => order one < order two) (perm : sorted.Perm l)
    (hsorted : sorted.Pairwise fun one two => order one ≤ order two) :
    sorted.getLast? = l.getLast? := by
  rcases List.eq_nil_or_concat l with rfl | ⟨others, last, rfl⟩
  · rw [List.perm_nil.1 perm]
  · rcases List.eq_nil_or_concat sorted with rfl | ⟨before, newest, rfl⟩
    · simp at perm
    · simp only [List.concat_eq_append] at *
      have hnewest : newest ∈ others ++ [last] := perm.subset (by simp)
      have hlast : last ∈ before ++ [newest] := perm.symm.subset (by simp)
      rw [List.pairwise_append] at rising hsorted
      rcases List.mem_append.1 hnewest with hbefore | hsame
      · have hrises := rising.2.2 newest hbefore last (by simp)
        rcases List.mem_append.1 hlast with hother | hsame
        · have hfalls := hsorted.2.2 last hother newest (by simp)
          exact absurd hrises (not_lt_of_ge hfalls)
        · simp [List.mem_singleton.1 hsame]
      · simp [List.mem_singleton.1 hsame]

/-! ### Who comes first -/

theorem idxOf_lt_of_sublist [BEq α] [LawfulBEq α] {l : List α} {a b : α} (hl : l.Nodup)
    (h : [a, b].Sublist l) : l.idxOf a < l.idxOf b := by
  induction l with
  | nil => cases h
  | cons first rest ih =>
      rw [List.nodup_cons] at hl
      have hne : ∀ c, c ∈ rest → first ≠ c := fun c hc heq => hl.1 (heq ▸ hc)
      cases h with
      | cons _ h =>
          have ha := hne a (h.subset (by simp))
          have hb := hne b (h.subset (by simp))
          rw [List.idxOf_cons_ne _ ha, List.idxOf_cons_ne _ hb]
          exact Nat.succ_lt_succ (ih hl.2 h)
      | cons_cons _ h =>
          rw [List.idxOf_cons_self, List.idxOf_cons_ne _ (hne b (h.subset (by simp)))]
          exact Nat.succ_pos _

theorem not_sublist_swap {l : List α} {a b : α} (hl : l.Nodup) (h : [a, b].Sublist l) :
    ¬ [b, a].Sublist l := by
  classical
  intro hswap
  exact lt_asymm (idxOf_lt_of_sublist hl h) (idxOf_lt_of_sublist hl hswap)

/-- What stands among the first has those before it there as well. -/
theorem sublist_take {l : List α} {a b : α} {n : Nat} (hl : l.Nodup) (h : [a, b].Sublist l)
    (hb : b ∈ l.take n) : [a, b].Sublist (l.take n) := by
  induction l generalizing n with
  | nil => cases h
  | cons first rest ih =>
      rw [List.nodup_cons] at hl
      cases n with
      | zero => cases hb
      | succ n =>
          rw [List.take_succ_cons] at hb ⊢
          have hrest : b ∈ rest → b ∈ rest.take n := by
            intro hmem
            apply (List.mem_cons.1 hb).resolve_left
            rintro rfl
            exact hl.1 hmem
          cases h with
          | cons _ h => exact .cons _ (ih hl.2 h (hrest (h.subset (by simp))))
          | cons_cons _ h =>
              exact .cons_cons _ (List.singleton_sublist.2 (hrest (h.subset (by simp))))

theorem lookup_zipIdx [DecidableEq α] [BEq α] [LawfulBEq α] (l : List α) (start : Nat) (a : α) :
    (l.zipIdx start).lookup a = if a ∈ l then some (start + l.idxOf a) else none := by
  induction l generalizing start with
  | nil => rfl
  | cons first rest ih =>
      rw [List.zipIdx_cons, List.lookup_cons, ih]
      by_cases h : a = first
      · subst h
        simp
      · have hne : (a == first) = false := beq_false_of_ne h
        rw [hne, List.idxOf_cons_ne _ (Ne.symm h)]
        simp only [List.mem_cons, h, false_or]
        split
        · congr 1
          omega
        · rfl

/-! ### Sorting by a key -/

section Key

variable [LinearOrder β]

/-- The list sorted by a key; what has the same key keeps its order. -/
def sortBy (key : α → β) (l : List α) : List α :=
  l.insertionSort fun one two => key one ≤ key two

theorem total_key (key : α → β) : Std.Total fun one two => key one ≤ key two :=
  ⟨fun one two => le_total (key one) (key two)⟩

theorem trans_key (key : α → β) : IsTrans α fun one two => key one ≤ key two :=
  ⟨fun _ _ _ hone htwo => le_trans hone htwo⟩

theorem perm_sortBy (key : α → β) (l : List α) : (sortBy key l).Perm l :=
  List.perm_insertionSort _ l

@[simp] theorem mem_sortBy {key : α → β} {l : List α} {a : α} : a ∈ sortBy key l ↔ a ∈ l :=
  (perm_sortBy key l).mem_iff

@[simp] theorem length_sortBy (key : α → β) (l : List α) : (sortBy key l).length = l.length :=
  (perm_sortBy key l).length_eq

theorem nodup_sortBy {key : α → β} {l : List α} : (sortBy key l).Nodup ↔ l.Nodup :=
  (perm_sortBy key l).nodup_iff

theorem pairwise_sortBy (key : α → β) (l : List α) :
    (sortBy key l).Pairwise fun one two => key one ≤ key two := by
  have := total_key key
  have := trans_key key
  exact List.pairwise_insertionSort _ l

theorem sublist_sortBy {key : α → β} {l : List α} {a b : α} (h : [a, b].Sublist l)
    (hle : key a ≤ key b) : [a, b].Sublist (sortBy key l) := by
  have := total_key key
  have := trans_key key
  exact List.sublist_insertionSort (List.pairwise_pair.2 hle) h

/-- To sort what is sorted by another key is to sort by both. -/
theorem sortBy_eq_lex {γ : Type*} [LinearOrder γ] {key : α → β} {second : α → γ} {l : List α}
    (h : l.Pairwise fun one two => second one ≤ second two) :
    sortBy key l = sortBy (fun a => toLex (key a, second a)) l := by
  induction l with
  | nil => rfl
  | cons first rest ih =>
      rw [List.pairwise_cons] at h
      have hrest := ih h.2
      have hinsert : ∀ sorted : List α, (∀ other ∈ sorted, second first ≤ second other) →
          sorted.orderedInsert (fun one two => key one ≤ key two) first =
            sorted.orderedInsert
              (fun one two => toLex (key one, second one) ≤ toLex (key two, second two)) first := by
        intro sorted hsorted
        induction sorted with
        | nil => rfl
        | cons other more ihmore =>
            rw [List.forall_mem_cons] at hsorted
            have hsame : key first ≤ key other ↔
                toLex (key first, second first) ≤ toLex (key other, second other) := by
              rw [Prod.Lex.toLex_le_toLex, le_iff_lt_or_eq]
              simp [hsorted.1]
            simp only [List.orderedInsert_cons, hsame, ihmore hsorted.2]
      unfold sortBy at hrest ⊢
      rw [List.insertionSort_cons, List.insertionSort_cons, ← hrest]
      apply hinsert
      intro other hother
      exact h.1 other ((List.perm_insertionSort _ rest).mem_iff.1 hother)

end Key

/-! ### What the order before does not change -/

section Order

variable [LinearOrder β] {key : α → β} {one two : List α}

/-- In a sorted list, only those before a place have a smaller key. -/
theorem countP_lt_le {l : List α} (hl : l.Pairwise fun one two => key one ≤ key two) {i : Nat}
    (hi : i < l.length) : (l.countP fun other => decide (key other < key l[i])) ≤ i := by
  have hafter : ((l.drop i).countP fun other => decide (key other < key l[i])) = 0 := by
    rw [List.countP_eq_zero]
    rw [List.drop_eq_getElem_cons hi]
    have hdrop := hl.sublist (List.drop_sublist i l)
    rw [List.drop_eq_getElem_cons hi, List.pairwise_cons] at hdrop
    intro other hother
    rcases List.mem_cons.1 hother with rfl | hmem
    · simp
    · simpa using hdrop.1 other hmem
  calc (l.countP fun other => decide (key other < key l[i]))
      = ((l.take i ++ l.drop i).countP fun other => decide (key other < key l[i])) := by
        rw [List.take_append_drop]
    _ = ((l.take i).countP fun other => decide (key other < key l[i])) := by
        rw [List.countP_append, hafter, Nat.add_zero]
    _ ≤ (l.take i).length := List.countP_le_length
    _ ≤ i := by simp

/-- Sorted lists of the same members show the same keys, place by place. -/
theorem map_eq_of_perm (h : one.Perm two) (hone : one.Pairwise fun one two => key one ≤ key two)
    (htwo : two.Pairwise fun one two => key one ≤ key two) : one.map key = two.map key := by
  have hantisymm : ∀ a b, a ∈ one.map key → b ∈ two.map key → a ≤ b → b ≤ a → a = b :=
    fun _ _ _ _ => le_antisymm
  apply List.Perm.eq_of_pairwise hantisymm
  · exact List.pairwise_map.2 hone
  · exact List.pairwise_map.2 htwo
  · exact h.map key

/-- Two ways to sort agree on the first members, unless a tie reaches them. -/
theorem take_eq_of_perm (h : one.Perm two) (hone : one.Pairwise fun one two => key one ≤ key two)
    (htwo : two.Pairwise fun one two => key one ≤ key two) (n : Nat)
    (hties : ∀ a ∈ one, ∀ b ∈ one, a ≠ b → key a = key b →
      n ≤ one.countP fun other => decide (key other < key a)) : one.take n = two.take n := by
  have hlength := h.length_eq
  apply List.ext_getElem
  · simp [hlength]
  · intro i hi _
    rw [List.length_take] at hi
    have hin : i < one.length := by omega
    have htwoin : i < two.length := by omega
    rw [List.getElem_take, List.getElem_take]
    have hkeys : key one[i] = key two[i] := by
      have hget := congrArg (·[i]?) (map_eq_of_perm h hone htwo)
      simpa [hin, htwoin] using hget
    by_contra hne
    have hcount := hties _ (List.getElem_mem hin) _ (h.mem_iff.2 (List.getElem_mem htwoin)) hne hkeys
    have := countP_lt_le hone hin
    omega

theorem eq_of_perm (h : one.Perm two) (hone : one.Pairwise fun one two => key one ≤ key two)
    (htwo : two.Pairwise fun one two => key one ≤ key two)
    (hkey : ∀ a ∈ one, ∀ b ∈ one, key a = key b → a = b) : one = two := by
  have htake := take_eq_of_perm h hone htwo one.length
    fun a ha b hb hne heq => absurd (hkey a ha b hb heq) hne
  rw [List.take_length, h.length_eq, List.take_length] at htake
  exact htake

/-- What comes before all it ties with is among the first where few have a smaller key. -/
theorem mem_take_of_first {l : List α} {a : α} {n : Nat} (hnodup : l.Nodup)
    (hl : l.Pairwise fun one two => key one ≤ key two) (ha : a ∈ l)
    (hfirst : ∀ b ∈ l, b ≠ a → key b = key a → [a, b].Sublist l)
    (hcount : (l.countP fun other => decide (key other < key a)) < n) : a ∈ l.take n := by
  obtain ⟨before, after, rfl⟩ := List.append_of_mem ha
  have hall : (before.countP fun other => decide (key other < key a)) = before.length := by
    apply List.countP_eq_length.2
    intro other hother
    have hpair : [other, a].Sublist (before ++ a :: after) := by
      exact (List.singleton_sublist.2 hother).append (List.singleton_sublist.2 List.mem_cons_self)
    have hle : key other ≤ key a :=
      (List.pairwise_append.1 hl).2.2 other hother a List.mem_cons_self
    rw [decide_eq_true_eq]
    apply lt_of_le_of_ne hle
    intro heq
    have hne : other ≠ a := by
      rintro rfl
      exact List.disjoint_of_nodup_append hnodup hother List.mem_cons_self
    exact not_sublist_swap hnodup hpair
      (hfirst other (List.mem_append_left _ hother) hne heq)
  rw [List.countP_append, hall] at hcount
  have hfits : before.length < n := by omega
  rw [List.mem_take_iff_getElem]
  refine ⟨before.length, ?_, ?_⟩
  · simp [hfits]
  · simp

end Order

end Papaia.Sorted
