import RobotMotion.Proofs.Decimal.Nearest
import Mathlib.Algebra.Order.Field.Power
import Mathlib.Tactic.NormNum
import Mathlib.Tactic.Positivity

/-!
# The double nearest to a number

Where a number lies between powers of two fixes the exponent of the doubles around it
(`Scale`), and the double nearest to it is its nearest multiple of that power (`RoundsTo`).
A larger number never goes to a smaller double (`RoundsTo.le_of_le`). That is so among numbers
with one exponent, and a power of two separates the doubles of any two exponents.
-/

namespace RobotMotion.Decimal

/-- The exponent of the doubles around a number. Mantissas of 53 digits reach the number, and
all 53 are taken up, unless the exponent is the least. -/
structure Scale (x : ℚ) (t : ℤ) : Prop where
  least : -1074 ≤ t
  above : |x| < 2 ^ 53 * 2 ^ t
  below : t = -1074 ∨ 2 ^ 52 * 2 ^ t ≤ |x|

/-- A number is rounded to the nearest double, to the one with an even mantissa where two are
as near. There is no greatest exponent here. -/
def RoundsTo (x y : ℚ) : Prop := ∃ t k, Scale x t ∧ Nearest (2 ^ t) x k ∧ y = k * 2 ^ t

variable {x y p q : ℚ} {s t k l : ℤ}

theorem two_zpow_pos (t : ℤ) : (0 : ℚ) < 2 ^ t := zpow_pos two_pos t

/-- A multiple is nearest to itself. -/
theorem nearest_mul {step : ℚ} (hstep : 0 < step) (k : ℤ) : Nearest step (k * step) k := by
  have hzero : |(k : ℚ) * step - k * step| = 0 := by rw [sub_self, abs_zero]
  refine nearest_of_within hstep (hzero.trans_le (half_pos hstep).le) fun hhalf => ?_
  exact absurd (hzero.symm.trans hhalf) (half_pos hstep).ne

/-- A number below a multiple has a nearest multiple that is not above it. -/
theorem Nearest.le_of_le_mul {step : ℚ} (hstep : 0 < step) (hx : Nearest step x k)
    (h : x ≤ l * step) : k ≤ l :=
  hx.le_of_le hstep (nearest_mul hstep l) h

/-- A number above a multiple has a nearest multiple that is not below it. -/
theorem Nearest.le_of_mul_le {step : ℚ} (hstep : 0 < step) (hx : Nearest step x k)
    (h : l * step ≤ x) : l ≤ k :=
  (nearest_mul hstep l).le_of_le hstep hx h

/-- Both signs of a number have the same exponent. -/
theorem Scale.neg (h : Scale x t) : Scale (-x) t :=
  ⟨h.least, (abs_neg x).symm ▸ h.above, (abs_neg x).symm ▸ h.below⟩

/-- A larger number has no smaller exponent. -/
theorem Scale.le_of_le (hx : Scale x s) (hy : Scale y t) (h : |x| ≤ |y|) : s ≤ t := by
  rcases hx.below with hleast | hbelow
  · exact hleast.trans_le hy.least
  -- where all digits are taken up, the sizes compare as the powers do
  · have hpowers : (2 : ℚ) ^ (52 + s) < 2 ^ (53 + t) := by
      rw [zpow_add₀ two_ne_zero, zpow_add₀ two_ne_zero]
      exact hbelow.trans_lt (h.trans_lt hy.above)
    have hexponents := (zpow_lt_zpow_iff_right₀ one_lt_two).mp hpowers
    omega

/-- Rounding takes up at most 53 digits and one. -/
theorem Scale.nearest_le (hx : Scale x t) (hk : Nearest (2 ^ t) x k) : k ≤ 2 ^ 53 := by
  refine hk.le_of_le_mul (two_zpow_pos t) ?_
  push_cast
  exact (le_abs_self x).trans hx.above.le

/-- Rounding keeps 53 digits where the exponent is not the least. -/
theorem Scale.le_nearest (hx : Scale x t) (hk : Nearest (2 ^ t) x k) (hnot : 0 ≤ x)
    (hleast : t ≠ -1074) : 2 ^ 52 ≤ k := by
  refine hk.le_of_mul_le (two_zpow_pos t) ?_
  push_cast
  exact (hx.below.resolve_left hleast).trans_eq (abs_of_nonneg hnot)

/-- Rounding is the same on both sides of zero. -/
theorem RoundsTo.neg (h : RoundsTo x p) : RoundsTo (-x) (-p) := by
  obtain ⟨t, k, hscale, hnearest, rfl⟩ := h
  refine ⟨t, -k, hscale.neg, hnearest.neg, ?_⟩
  push_cast
  exact (neg_mul _ _).symm

/-- What is not negative is not rounded to something negative. -/
theorem RoundsTo.nonneg (h : RoundsTo x p) (hx : 0 ≤ x) : 0 ≤ p := by
  obtain ⟨t, k, -, hnearest, rfl⟩ := h
  have hk : 0 ≤ k := hnearest.le_of_mul_le (two_zpow_pos t) (by simpa using hx)
  exact mul_nonneg (Int.cast_nonneg hk) (two_zpow_pos t).le

/-- Rounding keeps the order of what is not negative. -/
theorem RoundsTo.le_of_nonneg_of_le (hp : RoundsTo x p) (hq : RoundsTo y q) (hx : 0 ≤ x)
    (h : x ≤ y) : p ≤ q := by
  obtain ⟨s, k, hs, hk, rfl⟩ := hp
  obtain ⟨t, l, ht, hl, rfl⟩ := hq
  have hy : 0 ≤ y := hx.trans h
  have habs : |x| ≤ |y| := by rwa [abs_of_nonneg hx, abs_of_nonneg hy]
  rcases (hs.le_of_le ht habs).eq_or_lt with rfl | hlt
  · exact mul_le_mul_of_nonneg_right (Int.cast_le.mpr (hk.le_of_le (two_zpow_pos s) hl h))
      (two_zpow_pos s).le
  · -- the power of two between the exponents separates the two results
    have hlow : (k : ℚ) ≤ 2 ^ 53 := by exact_mod_cast hs.nearest_le hk
    have hhigh : (2 ^ 52 : ℚ) ≤ l := by
      exact_mod_cast ht.le_nearest hl hy (by have := hs.least; omega)
    calc (k : ℚ) * 2 ^ s ≤ 2 ^ 53 * 2 ^ s := mul_le_mul_of_nonneg_right hlow (two_zpow_pos s).le
      _ = 2 ^ 52 * 2 ^ (s + 1) := by
        rw [zpow_add_one₀ two_ne_zero]
        ring
      _ ≤ 2 ^ 52 * 2 ^ t :=
        mul_le_mul_of_nonneg_left (zpow_le_zpow_right₀ one_le_two hlt) (by positivity)
      _ ≤ l * 2 ^ t := mul_le_mul_of_nonneg_right hhigh (two_zpow_pos t).le

/-- **Rounding keeps the order.** -/
theorem RoundsTo.le_of_le (hp : RoundsTo x p) (hq : RoundsTo y q) (h : x ≤ y) : p ≤ q := by
  rcases le_total 0 x with hx | hx
  · exact hp.le_of_nonneg_of_le hq hx h
  · rcases le_total 0 y with hy | hy
    · have hlow := hp.neg.nonneg (neg_nonneg.mpr hx)
      exact (neg_nonneg.mp hlow).trans (hq.nonneg hy)
    · exact neg_le_neg_iff.mp
        (hq.neg.le_of_nonneg_of_le hp.neg (neg_nonneg.mpr hy) (neg_le_neg h))

/-! ### Numbers that are kept -/

/-- Zero is kept. -/
theorem roundsTo_zero : RoundsTo 0 0 := by
  refine ⟨-1074, 0, ⟨le_rfl, ?_, .inl rfl⟩, ?_, by simp⟩
  · rw [abs_zero]
    exact mul_pos (by norm_num) (two_zpow_pos _)
  · simpa using nearest_mul (two_zpow_pos (-1074)) 0

/-- **A whole number that is small enough is kept.** -/
theorem RoundsTo.eq_of_lt {n : ℤ} (h : RoundsTo n p) (hn : n.natAbs < 2 ^ 53) : p = n := by
  obtain ⟨t, k, hscale, hnearest, rfl⟩ := h
  have hsize : |(n : ℚ)| < 2 ^ 53 := by
    rw [← Int.cast_abs, ← Nat.cast_natAbs]
    exact_mod_cast hn
  have ht : t ≤ 0 := by
    rcases hscale.below with hleast | hbelow
    · omega
    · have hpowers : (2 : ℚ) ^ (52 + t) < 2 ^ (53 : ℤ) := by
        rw [zpow_add₀ two_ne_zero]
        exact hbelow.trans_lt (by exact_mod_cast hsize)
      have hexponents := (zpow_lt_zpow_iff_right₀ one_lt_two).mp hpowers
      omega
  -- the exponent is not above zero, so whole numbers are among the multiples
  have hmultiple : (n : ℚ) = (n * 2 ^ (-t).toNat : ℤ) * 2 ^ t := by
    have hcancel : (2 : ℚ) ^ (-t).toNat * 2 ^ t = 1 := by
      rw [← zpow_natCast, ← zpow_add₀ two_ne_zero, show ((-t).toNat : ℤ) + t = 0 by omega,
        zpow_zero]
    push_cast
    rw [mul_assoc, hcancel, mul_one]
  have hsame : k = n * 2 ^ (-t).toNat :=
    le_antisymm (hnearest.le_of_le_mul (two_zpow_pos t) hmultiple.le)
      (hnearest.le_of_mul_le (two_zpow_pos t) hmultiple.ge)
  rw [hsame, ← hmultiple]

end RobotMotion.Decimal
