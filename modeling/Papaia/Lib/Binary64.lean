/-
Module: Papaia.Lib.Binary64
Purpose: Floating point numbers of 64 bits as the rationals they are: the one nearest to a rational,
  and the rationals that are too large to have one.
Trusted boundary: a zero has no sign
Main exports: roundHalfEven, nearest, Overflows, not_overflows_nearest
-/
import Mathlib.Data.Int.Log
import Mathlib.Data.Rat.Floor
import Mathlib.Tactic.Linarith
import Mathlib.Tactic.NormNum
import Mathlib.Tactic.Ring

namespace Papaia.Binary64

/-! ### Whole numbers -/

/-- The whole number nearest to a rational, the even one where two are. -/
def roundHalfEven (q : Rat) : Int :=
  let below := ⌊q⌋
  if q - below < 1 / 2 then below
  else if 1 / 2 < q - below then below + 1
  else if below % 2 = 0 then below
  else below + 1

theorem roundHalfEven_le {q : Rat} {n : Int} (h : q < n + 1 / 2) : roundHalfEven q ≤ n := by
  have hbelow : ⌊q⌋ ≤ n := by
    apply Int.floor_le_iff.2
    linarith
  unfold roundHalfEven
  rcases hbelow.lt_or_eq with hlt | heq
  · dsimp only
    split_ifs <;> omega
  · have hlow : q - ⌊q⌋ < 1 / 2 := by rw [heq]; linarith
    rw [if_pos hlow]
    exact hbelow

theorem le_roundHalfEven {q : Rat} {n : Int} (h : n - 1 / 2 < q) : n ≤ roundHalfEven q := by
  have hbelow : n - 1 ≤ ⌊q⌋ := by
    apply Int.le_floor.2
    push_cast
    linarith
  unfold roundHalfEven
  rcases hbelow.lt_or_eq with hlt | heq
  · dsimp only
    split_ifs <;> omega
  · have hhigh : 1 / 2 < q - ⌊q⌋ := by
      rw [← heq]
      push_cast
      linarith
    have hnot : ¬ q - ⌊q⌋ < 1 / 2 := not_lt.2 hhigh.le
    dsimp only
    rw [if_neg hnot, if_pos hhigh]
    omega

theorem abs_roundHalfEven_le {q : Rat} {n : Int} (h : |q| < n + 1 / 2) :
    |roundHalfEven q| ≤ n := by
  obtain ⟨hlow, hhigh⟩ := abs_lt.1 h
  apply abs_le.2
  constructor
  · apply le_roundHalfEven
    push_cast
    linarith
  · exact roundHalfEven_le hhigh

/-! ### The nearest number of 64 bits -/

/-- The exponent of the last of the 53 digits of a number of this size. -/
def exponent (q : Rat) : Int :=
  max (Int.log 2 |q| - 52) (-1074)

/-- The floating point number nearest to a rational. -/
def nearest (q : Rat) : Rat :=
  roundHalfEven (q / 2 ^ exponent q) * 2 ^ exponent q

/-- Halfway between the largest floating point number and the next power of two. -/
def overflowBound : Rat :=
  (2 ^ 54 - 1) * 2 ^ (970 : Int)

/-- A rational that is rounded to no finite number. -/
def Overflows (q : Rat) : Prop :=
  overflowBound ≤ |q|

instance (q : Rat) : Decidable (Overflows q) :=
  inferInstanceAs (Decidable (_ ≤ _))

theorem overflowBound_eq : overflowBound = (((2 ^ 54 - 1) * 2 ^ 970 : Nat) : Rat) := by
  have hpower : (2 : Rat) ^ (970 : Int) = ((2 ^ 970 : Nat) : Rat) := by
    rw [Nat.cast_pow, ← zpow_natCast]
    rfl
  have hnumerator : (2 : Rat) ^ 54 - 1 = ((2 ^ 54 - 1 : Nat) : Rat) := by norm_num
  rw [overflowBound, hpower, hnumerator, Nat.cast_mul]

/-- The whole numbers that are too large. -/
theorem overflows_natCast {n : Nat} : Overflows n ↔ (2 ^ 54 - 1) * 2 ^ 970 ≤ n := by
  rw [Overflows, overflowBound_eq, Nat.abs_cast, Nat.cast_le]

theorem ulp_pos (q : Rat) : (0 : Rat) < 2 ^ exponent q :=
  zpow_pos (by norm_num) _

theorem abs_nearest_le {q : Rat} {n : Int} (h : |q| < (n + 1 / 2) * 2 ^ exponent q) :
    |nearest q| ≤ n * 2 ^ exponent q := by
  have hpos := ulp_pos q
  rw [nearest, abs_mul, abs_of_pos hpos]
  apply mul_le_mul_of_nonneg_right _ hpos.le
  have hscaled : |q / 2 ^ exponent q| < n + 1 / 2 := by
    rwa [abs_div, abs_of_pos hpos, div_lt_iff₀ hpos]
  exact_mod_cast abs_roundHalfEven_le hscaled

/-- What is rounded to a finite number stays below the bound. -/
theorem not_overflows_nearest {q : Rat} (h : ¬ Overflows q) : ¬ Overflows (nearest q) := by
  have hq : |q| < overflowBound := not_le.1 h
  have hpower : (0 : Rat) < 2 ^ (970 : Int) := zpow_pos (by norm_num) _
  apply not_le.2
  by_cases htop : exponent q = 971
  · -- The last binade: the largest numerator is the one below the bound.
    have hlast : (2 : Rat) ^ (971 : Int) = 2 ^ (970 : Int) * 2 :=
      zpow_add_one₀ (by norm_num) 970
    have hscaled : |q| < (((2 ^ 53 - 1 : Int) : Rat) + 1 / 2) * 2 ^ exponent q := by
      rw [htop, hlast]
      refine hq.trans_eq ?_
      rw [overflowBound]
      generalize (2 : Rat) ^ (970 : Int) = power
      push_cast
      ring
    refine (abs_nearest_le hscaled).trans_lt ?_
    rw [htop, hlast, overflowBound]
    generalize (2 : Rat) ^ (970 : Int) = power at hpower
    push_cast
    linarith
  · -- Below it a numerator of 53 digits, or one more, is far from the bound.
    have hexponent : exponent q ≤ 970 := by
      have hlog : Int.log 2 |q| < 1024 := by
        by_contra hlarge
        have hne : |q| ≠ 0 := by
          intro hzero
          rw [hzero, Int.log_zero_right] at hlarge
          omega
        have hlow : (2 : Rat) ^ (1024 : Int) ≤ |q| := by
          have hle := Int.zpow_log_le_self (R := Rat) (r := |q|) (b := 2) (by decide)
            (lt_of_le_of_ne (abs_nonneg q) hne.symm)
          refine le_trans ?_ (by exact_mod_cast hle)
          exact zpow_le_zpow_right₀ (by norm_num) (by omega)
        have htotal : (2 : Rat) ^ (1024 : Int) = 2 ^ 54 * 2 ^ (970 : Int) := by
          rw [← zpow_natCast, ← zpow_add₀ (by norm_num)]
          norm_num
        rw [overflowBound] at hq
        rw [htotal] at hlow
        generalize (2 : Rat) ^ (970 : Int) = power at hpower hq hlow
        linarith
      unfold exponent at htop ⊢
      omega
    have hscaled : |q| < (((2 ^ 53 : Int) : Rat) + 1 / 2) * 2 ^ exponent q := by
      have hsize : |q| < 2 ^ (Int.log 2 |q| + 1) := by
        exact_mod_cast Int.lt_zpow_succ_log_self (R := Rat) (b := 2) (by decide) |q|
      have hgrow : (2 : Rat) ^ (Int.log 2 |q| + 1) ≤ 2 ^ (53 + exponent q) := by
        apply zpow_le_zpow_right₀ (by norm_num)
        unfold exponent
        omega
      have hsplit : (2 : Rat) ^ (53 + exponent q) = 2 ^ (53 : Int) * 2 ^ exponent q :=
        zpow_add₀ (by norm_num) _ _
      have hpos := ulp_pos q
      have hnumber : (2 : Rat) ^ (53 : Int) = ((2 ^ 53 : Int) : Rat) := by norm_num
      rw [hsplit, hnumber] at hgrow
      refine (hsize.trans_le hgrow).trans_le ?_
      apply mul_le_mul_of_nonneg_right _ hpos.le
      linarith
    refine (abs_nearest_le hscaled).trans_lt ?_
    have hgrow : (2 : Rat) ^ exponent q ≤ 2 ^ (970 : Int) :=
      zpow_le_zpow_right₀ (by norm_num) hexponent
    rw [overflowBound]
    generalize (2 : Rat) ^ (970 : Int) = power at hpower hgrow
    push_cast
    linarith

end Papaia.Binary64
