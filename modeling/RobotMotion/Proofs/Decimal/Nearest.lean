import RobotMotion.Decimal.Rounding
import Mathlib.Algebra.Field.Rat
import Mathlib.Algebra.Order.Field.Basic
import Mathlib.Algebra.Order.Ring.Abs
import Mathlib.Algebra.Order.Ring.Rat
import Mathlib.Algebra.Ring.Int.Parity
import Mathlib.Tactic.FieldSimp
import Mathlib.Tactic.Linarith
import Mathlib.Tactic.Ring

/-!
# The nearest multiple of a step

Rounding to a step takes a number to its nearest multiple, and halfway between two of them to
that of an even number of steps (`Nearest`). This is to be no further away than half a step,
and even where it is that far (`nearest_of_within`). So a larger number never goes to a
smaller multiple (`Nearest.le_of_le`).

A quotient of natural numbers is rounded to its nearest whole number (`nearest_roundDiv`).
-/

namespace RobotMotion.Decimal

/-- A number of steps that comes nearest to a value. Where another number of steps comes as
near, it is even. -/
structure Nearest (step x : ℚ) (k : ℤ) : Prop where
  least : ∀ j : ℤ, |x - k * step| ≤ |x - j * step|
  even : ∀ j : ℤ, j ≠ k → |x - k * step| = |x - j * step| → Even k

variable {step x y d : ℚ} {j k l : ℤ}

/-! ### Half a step -/

/-- What is no further from zero than from a step is at most half a step. -/
theorem le_half_of_abs_le (hstep : 0 < step) (h : |d| ≤ |d - step|) : d ≤ step / 2 := by
  have hsquares : d ^ 2 ≤ (d - step) ^ 2 := sq_le_sq.mpr h
  have hproduct : step * (2 * d) ≤ step * step := by linarith
  linarith [le_of_mul_le_mul_left hproduct hstep]

/-- Two multiples are at least a step apart, so no number is near to both. -/
theorem step_le_abs_add_abs (x : ℚ) (hstep : 0 < step) (hne : j ≠ k) :
    step ≤ |x - k * step| + |x - j * step| := by
  have hapart : (1 : ℚ) ≤ |(j : ℚ) - k| := by
    exact_mod_cast Int.one_le_abs (sub_ne_zero.mpr hne)
  have hsplit : (k - j : ℚ) * step = (x - j * step) - (x - k * step) := by ring
  have htriangle := abs_sub (x - j * step) (x - k * step)
  rw [← hsplit, abs_mul, abs_of_pos hstep, abs_sub_comm, add_comm] at htriangle
  linarith [mul_le_mul_of_nonneg_right hapart hstep.le]

/-- How far it is to the next multiple. -/
theorem sub_succ_mul (step x : ℚ) (k : ℤ) :
    x - (k + 1 : ℤ) * step = (x - k * step) - step := by
  push_cast
  ring

/-- How far it is to the multiple before. -/
theorem sub_pred_mul (step x : ℚ) (k : ℤ) :
    x - (k - 1 : ℤ) * step = -(-(x - k * step) - step) := by
  push_cast
  ring

theorem Nearest.within (hstep : 0 < step) (h : Nearest step x k) :
    |x - k * step| ≤ step / 2 := by
  have hnext := h.least (k + 1)
  have hprevious := h.least (k - 1)
  rw [sub_succ_mul] at hnext
  rw [sub_pred_mul, abs_neg, ← abs_neg (x - k * step)] at hprevious
  have hlow := le_half_of_abs_le hstep hprevious
  exact abs_le.mpr ⟨by linarith, le_half_of_abs_le hstep hnext⟩

theorem Nearest.even_of_half (hstep : 0 < step) (h : Nearest step x k)
    (hhalf : |x - k * step| = step / 2) : Even k := by
  rcases eq_or_eq_neg_of_abs_eq hhalf with habove | hbelow
  · refine h.even (k + 1) (by omega) ?_
    rw [sub_succ_mul, hhalf, habove, show step / 2 - step = -(step / 2) by ring, abs_neg,
      abs_of_pos (half_pos hstep)]
  · refine h.even (k - 1) (by omega) ?_
    rw [sub_pred_mul, hhalf, hbelow, show -(- -(step / 2) - step) = step / 2 by ring,
      abs_of_pos (half_pos hstep)]

/-- **What is within half a step is nearest**, if it is even where it is half a step away. -/
theorem nearest_of_within (hstep : 0 < step) (hwithin : |x - k * step| ≤ step / 2)
    (heven : |x - k * step| = step / 2 → Even k) : Nearest step x k where
  least j := by
    rcases eq_or_ne j k with rfl | hne
    · exact le_rfl
    · linarith [step_le_abs_add_abs x hstep hne]
  even j hne heq := by
    have hsum := step_le_abs_add_abs x hstep hne
    exact heven (by linarith)

/-- What is nearest to a number is so with the other sign, too. -/
theorem Nearest.neg (h : Nearest step x k) : Nearest step (-x) (-k) := by
  have hflip (j : ℤ) : |-x - (j : ℤ) * step| = |x - (-j : ℤ) * step| := by
    rw [← abs_neg]
    push_cast
    ring_nf
  constructor
  · intro j
    rw [hflip, hflip, neg_neg]
    exact h.least (-j)
  · intro j hne heq
    rw [hflip, hflip, neg_neg] at heq
    exact (h.even (-j) (by omega) heq).neg

/-- **A larger number has no smaller nearest multiple.** -/
theorem Nearest.le_of_le (hstep : 0 < step) (hx : Nearest step x k) (hy : Nearest step y l)
    (h : x ≤ y) : k ≤ l := by
  by_contra hless
  have hsteps : ((l + 1 : ℤ) : ℚ) * step ≤ k * step :=
    mul_le_mul_of_nonneg_right (Int.cast_le.mpr (by omega)) hstep.le
  push_cast at hsteps
  obtain ⟨hlow, -⟩ := abs_le.mp (hx.within hstep)
  obtain ⟨-, hhigh⟩ := abs_le.mp (hy.within hstep)
  -- both lie half way between `l` steps and the next, so both numbers of steps are even
  have hk : Even k := hx.even_of_half hstep <| by
    rw [show x - k * step = -(step / 2) by linarith, abs_neg, abs_of_pos (half_pos hstep)]
  have hl : Even l := hy.even_of_half hstep <| by
    rw [show y - l * step = step / 2 by linarith, abs_of_pos (half_pos hstep)]
  have hnext : (k : ℚ) = (l + 1 : ℤ) := by
    push_cast
    exact mul_right_cancel₀ hstep.ne' (by linarith)
  obtain rfl : k = l + 1 := Int.cast_injective hnext
  exact Int.even_add_one.mp hk hl

/-! ### Rounding a quotient -/

/-- Half way between two whole numbers a quotient goes to the even one. -/
theorem even_roundDiv {num den : ℕ} (h : 0 < den)
    (htie : 2 * (roundDiv .even num den * den) = 2 * num + den ∨
      2 * num = 2 * (roundDiv .even num den * den) + den) : Even (roundDiv .even num den) := by
  have split := Nat.div_add_mod num den
  have small := Nat.mod_lt num h
  rw [Nat.mul_comm] at split
  have grow : (num / den + 1) * den = num / den * den + den := Nat.succ_mul ..
  rw [Nat.even_iff]
  simp only [roundDiv] at htie ⊢
  by_cases hbelow : 2 * (num % den) < den
  · rw [if_pos hbelow] at htie
    omega
  · rw [if_neg hbelow] at htie ⊢
    by_cases habove : den < 2 * (num % den)
    · rw [if_pos habove] at htie
      omega
    · rw [if_neg habove]
      split <;> omega

/-- What rounding a quotient leaves is at most half of the denominator. -/
theorem abs_sub_roundDiv_le (tie : Tie) (num : ℕ) {den : ℕ} (h : 0 < den) :
    |(num : ℚ) - roundDiv tie num den * den| ≤ den / 2 := by
  have hhigh : (2 : ℚ) * (roundDiv tie num den * den) ≤ 2 * num + den := by
    exact_mod_cast roundDiv_le tie num h
  have hlow : (2 : ℚ) * num ≤ 2 * (roundDiv tie num den * den) + den := by
    exact_mod_cast le_roundDiv tie num h
  exact abs_le.mpr ⟨by linarith, by linarith⟩

theorem even_roundDiv_of_half {num den : ℕ} (h : 0 < den)
    (hhalf : |(num : ℚ) - roundDiv .even num den * den| = den / 2) :
    Even (roundDiv .even num den) := by
  refine even_roundDiv h ?_
  rcases eq_or_eq_neg_of_abs_eq hhalf with habove | hbelow
  · right
    have hdouble : (2 : ℚ) * num = 2 * (roundDiv .even num den * den) + den := by linarith
    exact_mod_cast hdouble
  · left
    have hdouble : (2 : ℚ) * (roundDiv .even num den * den) = 2 * num + den := by linarith
    exact_mod_cast hdouble

/-- **A quotient goes to its nearest whole number.** -/
theorem nearest_roundDiv (hstep : 0 < step) (num : ℕ) {den : ℕ} (h : 0 < den) :
    Nearest step (num / den * step) (roundDiv .even num den) := by
  have hden : (0 : ℚ) < den := Nat.cast_pos.mpr h
  have hscale : 0 < step / den := div_pos hstep hden
  have hdistance : |num / den * step - ((roundDiv .even num den : ℤ) : ℚ) * step| =
      |(num : ℚ) - roundDiv .even num den * den| * (step / den) := by
    rw [← abs_of_pos hscale, ← abs_mul, Int.cast_natCast]
    congr 1
    field_simp
  have hhalf : step / 2 = den / 2 * (step / den) := by field_simp
  refine nearest_of_within hstep ?_ fun htie => ?_
  · rw [hdistance, hhalf]
    exact mul_le_mul_of_nonneg_right (abs_sub_roundDiv_le .even num h) hscale.le
  · rw [hdistance, hhalf] at htie
    rw [Int.even_coe_nat]
    exact even_roundDiv_of_half h (mul_right_cancel₀ hscale.ne' htie)

end RobotMotion.Decimal
