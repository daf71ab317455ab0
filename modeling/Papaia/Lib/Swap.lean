/-
Module: Papaia.Lib.Swap
Purpose: A cell that is replaced only while its print is the expected one.
Trusted boundary: none
Main exports: swap, swap_print
-/
import Mathlib.Logic.Function.Basic

namespace Papaia.Swap

variable {α β : Type*} [DecidableEq β] (print : α → β)

/-- Compare and swap by the print of what the cell holds. -/
def swap (cell : α) (expected : β) (next : α) : α :=
  if print cell = expected then next else cell

variable {print}

theorem swap_of_ne {cell next : α} {expected : β} (h : print cell ≠ expected) :
    swap print cell expected next = cell :=
  if_neg h

/-- Where no two contents have one print, a swap that expects the print of a content replaces that
content and no other. -/
theorem swap_print [DecidableEq α] (hinjective : Function.Injective print) (cell old next : α) :
    swap print cell (print old) next = if cell = old then next else cell := by
  by_cases h : cell = old
  · simp [swap, h]
  · rw [if_neg h, swap_of_ne fun hprint => h (hinjective hprint)]

end Papaia.Swap
