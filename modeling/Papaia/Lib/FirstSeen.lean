/-
Module: Papaia.Lib.FirstSeen
Purpose: Scans that keep, for every key, the first element that had it and report a later element
  that clashes with that one.  The report goes to the newcomer, so where an element stands decides
  who is blamed; whether anything is reported at all does not depend on the order.
Trusted boundary: none
Main exports: Rule, Rule.note, Rule.scan, Rule.Agree, Rule.Coherent, Rule.scan_eq_nil_iff,
  Rule.agree_of_not_reported, Rule.pairwise_insert_iff
-/
import Mathlib.Data.List.Basic
import Mathlib.Data.List.Pairwise

namespace Papaia.FirstSeen

/-- What one table of a scan looks at: the key of an element (none: it is passed over), when a
later element clashes with the first of its key, and the report about it. -/
structure Rule (α κ ι : Type*) where
  key : α → Option κ
  clash : α → α → Bool
  report : α → α → ι

namespace Rule

variable {α κ ι : Type*} [DecidableEq κ] (r : Rule α κ ι)

/-- Look at one element: the table after it, and the report if there is one. -/
def note (table : List (κ × α)) (x : α) : List (κ × α) × List ι :=
  match r.key x with
  | none => (table, [])
  | some k =>
      match table.lookup k with
      | none => ((k, x) :: table, [])
      | some first => (table, if r.clash first x then [r.report first x] else [])

/-- Look at the elements in order. -/
def scan (table : List (κ × α)) : List α → List ι
  | [] => []
  | x :: xs => (r.note table x).2 ++ scan (r.note table x).1 xs

/-- Whatever a scan reports, it reports about two elements. -/
theorem exists_report_of_mem_scan {table : List (κ × α)} {xs : List α} {report : ι}
    (h : report ∈ r.scan table xs) : ∃ first x, report = r.report first x := by
  induction xs generalizing table with
  | nil => cases h
  | cons x xs ih =>
      rw [scan, List.mem_append] at h
      rcases h with h | h
      · unfold note at h
        split at h
        · cases h
        · split at h
          · cases h
          · split at h
            · exact ⟨_, x, List.mem_singleton.1 h⟩
            · cases h
      · exact ih h

/-- Two elements that can both be there: of one key, they do not clash. -/
def Agree (a b : α) : Prop :=
  ∀ k, r.key a = some k → r.key b = some k → r.clash a b = false

omit [DecidableEq κ] in
theorem agree_symm (symm : ∀ a b, r.clash a b = r.clash b a) {a b : α} (h : r.Agree a b) :
    r.Agree b a := by
  intro k hb ha
  rw [symm]
  exact h k ha hb

/-- Elements that do not clash with the first of their key do not clash with each other. -/
def Coherent : Prop :=
  ∀ a b c, r.clash a b = false → r.clash a c = false → r.clash b c = false

/-- The first element of a key. -/
def firstOf (xs : List α) (k : κ) : Option α :=
  xs.find? fun x => decide (r.key x = some k)

/-- The table holds the first element of every key of the elements seen so far. -/
def Represents (table : List (κ × α)) (seen : List α) : Prop :=
  ∀ k, table.lookup k = r.firstOf seen k

theorem represents_nil : r.Represents [] [] := fun _ => rfl

theorem firstOf_append_singleton (xs : List α) (x : α) (k : κ) :
    r.firstOf (xs ++ [x]) k =
      (r.firstOf xs k).or (if r.key x = some k then some x else none) := by
  simp [firstOf, List.find?_append, List.find?_cons]
  split <;> simp_all

/-- Looking at an element keeps the table in step. -/
theorem represents_note {table : List (κ × α)} {seen : List α} (h : r.Represents table seen)
    (x : α) : r.Represents (r.note table x).1 (seen ++ [x]) := by
  intro k
  rw [firstOf_append_singleton, ← h k]
  cases hk : r.key x with
  | none => simp [note, hk]
  | some own =>
      cases hfirst : table.lookup own with
      | none =>
          by_cases heq : k = own
          · subst heq
            simp [note, hk, hfirst]
          · have hne : (k == own) = false := by simpa using heq
            simp [note, hk, hfirst, List.lookup_cons, hne, Ne.symm heq]
      | some first =>
          by_cases heq : own = k
          · subst heq
            simp [note, hk, hfirst]
          · simp [note, hk, hfirst, heq]

/-- The report about one element, from the first of its key. -/
theorem note_eq_nil_iff {table : List (κ × α)} {seen : List α} (h : r.Represents table seen)
    (x : α) :
    (r.note table x).2 = [] ↔
      ∀ k, r.key x = some k → ∀ first, r.firstOf seen k = some first →
        r.clash first x = false := by
  cases hk : r.key x with
  | none => simp [note, hk]
  | some own =>
      cases hfirst : r.firstOf seen own with
      | none => simp [note, hk, h own, hfirst]
      | some first => simp [note, hk, h own, hfirst]

theorem firstOf_eq_some {xs : List α} {k : κ} {first : α} (h : r.firstOf xs k = some first) :
    first ∈ xs ∧ r.key first = some k := by
  have hmem := List.mem_of_find?_eq_some h
  have hkey := List.find?_some h
  exact ⟨hmem, by simpa using hkey⟩

theorem exists_firstOf {xs : List α} {k : κ} {x : α} (hx : x ∈ xs) (hk : r.key x = some k) :
    ∃ first, r.firstOf xs k = some first := by
  cases hf : r.firstOf xs k with
  | some first => exact ⟨first, rfl⟩
  | none =>
      rw [firstOf, List.find?_eq_none] at hf
      exact absurd (by simpa using hk) (hf x hx)

/-- Among elements that agree pairwise, an element that does not clash with the first of its key
agrees with all of them. -/
theorem agree_all_iff (coherent : r.Coherent) {seen : List α} (clean : seen.Pairwise r.Agree)
    (x : α) :
    (∀ y ∈ seen, r.Agree y x) ↔
      ∀ k, r.key x = some k → ∀ first, r.firstOf seen k = some first →
        r.clash first x = false := by
  constructor
  · intro h k hk first hfirst
    obtain ⟨hmem, hkey⟩ := r.firstOf_eq_some hfirst
    exact h first hmem k hkey hk
  · intro h y hy k hky hkx
    obtain ⟨first, hfirst⟩ := r.exists_firstOf hy hky
    have hfx := h k hkx first hfirst
    by_cases heq : y = first
    · rw [heq]
      exact hfx
    · -- the first of the key stands before `y`, so the two agree
      have hfy : r.clash first y = false := by
        obtain ⟨_, hkey⟩ := r.firstOf_eq_some hfirst
        rw [firstOf, List.find?_eq_some_iff_append] at hfirst
        obtain ⟨_, before, after, hsplit, hbefore⟩ := hfirst
        have hyafter : y ∈ after := by
          rw [hsplit] at hy
          rcases List.mem_append.1 hy with hy | hy
          · exact absurd hky (by simpa using hbefore y hy)
          · exact (List.mem_cons.1 hy).resolve_left heq
        rw [hsplit, List.pairwise_append, List.pairwise_cons] at clean
        exact clean.2.1.1 y hyafter k hkey hky
      exact coherent first y x hfy hfx

theorem scan_append (table : List (κ × α)) (xs : List α) (x : α) (ys : List α) :
    ∃ table', (∀ seen, r.Represents table seen → r.Represents table' (seen ++ xs)) ∧
      r.scan table (xs ++ x :: ys) =
        r.scan table xs ++ (r.note table' x).2 ++ r.scan (r.note table' x).1 ys := by
  induction xs generalizing table with
  | nil => exact ⟨table, fun seen h => by simpa using h, by simp [scan]⟩
  | cons y xs ih =>
      obtain ⟨table', hrep, hscan⟩ := ih (r.note table y).1
      refine ⟨table', fun seen h => ?_, ?_⟩
      · simpa [List.append_assoc] using hrep _ (r.represents_note h y)
      · simp [scan, hscan, List.append_assoc]

theorem scan_eq_nil_iff_of_represents (coherent : r.Coherent) {table : List (κ × α)}
    {seen : List α} (h : r.Represents table seen) (clean : seen.Pairwise r.Agree) (xs : List α) :
    r.scan table xs = [] ↔ (seen ++ xs).Pairwise r.Agree := by
  induction xs generalizing table seen with
  | nil => simpa [scan] using clean
  | cons x xs ih =>
      rw [scan, List.append_eq_nil_iff, r.note_eq_nil_iff h,
        ← r.agree_all_iff coherent clean]
      constructor
      · rintro ⟨hx, hrest⟩
        have hclean : (seen ++ [x]).Pairwise r.Agree := by
          rw [List.pairwise_append]
          exact ⟨clean, by simp, fun y hy z hz => by simp at hz; exact hz ▸ hx y hy⟩
        have := (ih (r.represents_note h x) hclean).1 hrest
        simpa [List.append_assoc] using this
      · intro hall
        have hsplit : ((seen ++ [x]) ++ xs).Pairwise r.Agree := by
          simpa [List.append_assoc] using hall
        have hclean := (List.pairwise_append.1 hsplit).1
        refine ⟨fun y hy => ?_, (ih (r.represents_note h x) hclean).2 hsplit⟩
        exact (List.pairwise_append.1 hclean).2.2 y hy x (by simp)

/-- A scan reports nothing exactly when its elements agree pairwise. -/
theorem scan_eq_nil_iff (coherent : r.Coherent) (xs : List α) :
    r.scan [] xs = [] ↔ xs.Pairwise r.Agree := by
  simpa using r.scan_eq_nil_iff_of_represents coherent r.represents_nil List.Pairwise.nil xs

/-- An element about which the scan says nothing agrees with everything before it. -/
theorem agree_of_not_reported (coherent : r.Coherent) {before after : List α} {x : α}
    (clean : before.Pairwise r.Agree)
    (quiet : ∀ first, r.report first x ∉ r.scan [] (before ++ x :: after)) :
    ∀ y ∈ before, r.Agree y x := by
  rw [r.agree_all_iff coherent clean]
  intro k hk first hfirst
  obtain ⟨table, hrep, hscan⟩ := r.scan_append [] before x after
  have hlook : table.lookup k = some first := by
    have := hrep [] r.represents_nil k
    rw [List.nil_append] at this
    rw [this, hfirst]
  by_contra hclash
  apply quiet first
  rw [hscan]
  have hreport : r.report first x ∈ (r.note table x).2 := by
    simp [note, hk, hlook, Bool.not_eq_false] at hclash ⊢
    simp [hclash]
  simp [hreport]

omit [DecidableEq κ] in
/-- An element put between two lists that agree, and that agrees with what is before it, spoils
nothing exactly when it agrees with what comes after it. -/
theorem pairwise_insert_iff {before after : List α} {x : α}
    (clean : (before ++ after).Pairwise r.Agree) (hbefore : ∀ y ∈ before, r.Agree y x) :
    (before ++ x :: after).Pairwise r.Agree ↔ ∀ y ∈ after, r.Agree x y := by
  rw [List.pairwise_append] at clean ⊢
  obtain ⟨hb, ha, hcross⟩ := clean
  rw [List.pairwise_cons]
  constructor
  · intro h
    exact h.2.1.1
  · intro h
    refine ⟨hb, ⟨h, ha⟩, fun y hy z hz => ?_⟩
    rcases List.mem_cons.1 hz with rfl | hz
    · exact hbefore y hy
    · exact hcross y hy z hz

end Rule

end Papaia.FirstSeen
