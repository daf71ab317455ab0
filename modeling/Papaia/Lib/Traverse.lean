/-
Module: Papaia.Lib.Traverse
Purpose: A check that goes through a list and stops at the first element it refuses: what it returns,
  element by element, and when what it returned passes it unchanged.
Trusted boundary: none
Main exports: mapM_eq_ok_iff, exists_of_mem_mapM, mapM_settles
-/
import Mathlib.Data.List.Forall2

namespace Papaia.Traverse

variable {α β ε : Type}

/-- A check goes through when it goes through for every element, one result for each. -/
theorem mapM_eq_ok_iff {f : α → Except ε β} {xs : List α} {ys : List β} :
    xs.mapM f = .ok ys ↔ List.Forall₂ (fun x y => f x = .ok y) xs ys := by
  induction xs generalizing ys with
  | nil => cases ys <;> simp [pure, Except.pure]
  | cons x rest ih =>
      rw [List.mapM_cons]
      cases hx : f x with
      | error e => cases ys <;> simp [bind, Except.bind, hx]
      | ok y =>
          cases hrest : rest.mapM f with
          | error e => cases ys <;> simp [bind, Except.bind, ← ih, hrest, hx]
          | ok others => cases ys <;> simp [bind, Except.bind, pure, Except.pure, ← ih, hrest, hx]

/-- What was returned for an element. -/
theorem exists_of_mem_mapM {f : α → Except ε β} {xs : List α} {ys : List β}
    (h : xs.mapM f = .ok ys) {y : β} (hy : y ∈ ys) : ∃ x ∈ xs, f x = .ok y := by
  have hpairs := mapM_eq_ok_iff.1 h
  clear h
  induction hpairs with
  | nil => cases hy
  | @cons x z xs ys hx _ ih =>
      rcases List.mem_cons.1 hy with rfl | hmem
      · exact ⟨x, List.mem_cons_self, hx⟩
      · obtain ⟨other, hother, hf⟩ := ih hmem
        exact ⟨other, List.mem_cons_of_mem _ hother, hf⟩

/-- A check that leaves alone what it returned leaves alone the list it returned. -/
theorem mapM_settles {f : α → Except ε α} (settles : ∀ x y, f x = .ok y → f y = .ok y)
    {xs ys : List α} (h : xs.mapM f = .ok ys) : ys.mapM f = .ok ys := by
  apply mapM_eq_ok_iff.2
  apply List.forall₂_same.2
  intro y hy
  obtain ⟨x, -, hx⟩ := exists_of_mem_mapM h hy
  exact settles x y hx

end Papaia.Traverse
