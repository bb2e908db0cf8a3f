import RobotMotion.Proofs.Decimal.Product
import Mathlib.Data.Rat.Floor

/-!
# The whole number nearest to a double

Half way between two whole numbers `roundAway` takes the one further from zero. A double that
is rounded to a whole double (`roundWhole`) has just that number for its exact value
(`rational?_roundWhole`): whole numbers of at most 53 binary digits are doubles
(`rational?_ofInt`).
-/

namespace RobotMotion.Decimal

open Float.Model (UnpackedFloat)
open Float.Model.UnpackedFloat

variable {x y : ℚ}

/-! ### Whole numbers -/

/-- The nearest whole number; of two that are as near the one further from zero. -/
def roundAway (x : ℚ) : ℤ := if 0 ≤ x then ⌊x + 1 / 2⌋ else ⌈x - 1 / 2⌉

theorem roundAway_of_nonneg (h : 0 ≤ x) : roundAway x = ⌊x + 1 / 2⌋ := if_pos h

/-- Signs are kept. -/
theorem roundAway_neg (x : ℚ) : roundAway (-x) = -roundAway x := by
  have hflip (x : ℚ) : ⌈-x - 1 / 2⌉ = -⌊x + 1 / 2⌋ := by
    rw [← Int.ceil_neg, neg_add']
  rcases lt_trichotomy x 0 with hneg | rfl | hpos
  · rw [roundAway, if_pos (by linarith), roundAway, if_neg hneg.not_ge, ← neg_eq_iff_eq_neg,
      ← hflip, neg_neg]
  · norm_num [roundAway]
  · rw [roundAway, if_neg (by linarith), roundAway, if_pos hpos.le, hflip]

/-- A number that is not negative goes to one that is not. -/
theorem roundAway_nonneg (h : 0 ≤ x) : 0 ≤ roundAway x := by
  rw [roundAway_of_nonneg h]
  exact Int.floor_nonneg.mpr (by linarith)

/-- **The whole number is at most half a unit away.** -/
theorem abs_roundAway_sub_le (x : ℚ) : |roundAway x - x| ≤ 1 / 2 := by
  rw [roundAway]
  split
  · have hlow := Int.floor_le (x + 1 / 2)
    have hhigh := Int.lt_floor_add_one (x + 1 / 2)
    exact abs_le.mpr ⟨by linarith, by linarith⟩
  · have hlow := Int.le_ceil (x - 1 / 2)
    have hhigh := Int.ceil_lt_add_one (x - 1 / 2)
    exact abs_le.mpr ⟨by linarith, by linarith⟩

/-- Half way between two whole numbers the one further from zero is taken. -/
theorem lt_roundAway_of_half (hx : 0 ≤ x) (h : |roundAway x - x| = 1 / 2) : x < roundAway x := by
  rw [roundAway_of_nonneg hx] at h ⊢
  have hhigh := Int.lt_floor_add_one (x + 1 / 2)
  rcases eq_or_eq_neg_of_abs_eq h with habove | hbelow <;> linarith

/-- Half way between two whole numbers the one of the greater size is taken, on either side of zero.
-/
theorem abs_lt_abs_roundAway (h : |roundAway x - x| = 1 / 2) : |x| < |(roundAway x : ℚ)| := by
  rcases le_total 0 x with hx | hx
  · rw [abs_of_nonneg hx]
    exact (lt_roundAway_of_half hx h).trans_le (le_abs_self _)
  · have hneg : (roundAway (-x) : ℚ) = -roundAway x := by rw [roundAway_neg, Int.cast_neg]
    have hflipped : |roundAway (-x) - -x| = 1 / 2 := by rw [hneg, ← neg_sub', abs_neg, h]
    rw [abs_of_nonpos hx, ← abs_neg, ← hneg]
    exact (lt_roundAway_of_half (neg_nonneg.mpr hx) hflipped).trans_le (le_abs_self _)

/-- **A larger number has no smaller nearest whole number.** -/
theorem roundAway_mono (h : x ≤ y) : roundAway x ≤ roundAway y := by
  rcases le_total 0 x with hx | hx
  · rw [roundAway_of_nonneg hx, roundAway_of_nonneg (hx.trans h)]
    exact Int.floor_mono (by linarith)
  · rcases le_total 0 y with hy | hy
    -- on different sides of zero they stay on these sides
    · have hlow := roundAway_nonneg (neg_nonneg.mpr hx)
      rw [roundAway_neg] at hlow
      have hhigh := roundAway_nonneg hy
      omega
    · have hflipped : roundAway (-y) ≤ roundAway (-x) := by
        rw [roundAway_of_nonneg (neg_nonneg.mpr hy), roundAway_of_nonneg (neg_nonneg.mpr hx)]
        exact Int.floor_mono (by linarith)
      rw [roundAway_neg, roundAway_neg] at hflipped
      omega

/-- A tie is rounded up. -/
theorem lt_roundDiv_away (num : ℕ) {den : ℕ} (h : 0 < den) :
    2 * num + den < 2 * ((roundDiv .away num den + 1) * den) := by
  have split := Nat.div_add_mod num den
  have small := Nat.mod_lt num h
  rw [Nat.mul_comm] at split
  have grow : (num / den + 1) * den = num / den * den + den := Nat.succ_mul ..
  have grow' : (num / den + 1 + 1) * den = (num / den + 1) * den + den := Nat.succ_mul ..
  simp only [roundDiv]
  split
  · omega
  · split <;> omega

/-- Rounding leaves a quotient below what its numerator is below. -/
theorem roundDiv_lt_of_lt {num den : ℕ} (hden : 2 ≤ den) (h : num < 2 ^ 53) :
    roundDiv .away num den < 2 ^ 53 := by
  have hround := roundDiv_le .away num (show 0 < den by omega)
  by_contra hgreat
  have hproduct := Nat.mul_le_mul_right den (Nat.le_of_not_lt hgreat)
  omega

/-- **A quotient is rounded as its number.** -/
theorem roundAway_div (num : ℕ) {den : ℕ} (h : 0 < den) :
    roundAway (num / den) = roundDiv .away num den := by
  have hden : (0 : ℚ) < den := Nat.cast_pos.mpr h
  have hlow : (2 : ℚ) * (roundDiv .away num den * den) ≤ 2 * num + den := by
    exact_mod_cast roundDiv_le .away num h
  have hhigh : (2 : ℚ) * num + den < 2 * ((roundDiv .away num den + 1) * den) := by
    exact_mod_cast lt_roundDiv_away num h
  have hhalf : (num / den + 1 / 2 : ℚ) = (2 * num + den) / (2 * den) := by field_simp
  rw [roundAway_of_nonneg (by positivity), Int.floor_eq_iff, hhalf, Int.cast_natCast]
  refine ⟨(le_div_iff₀ (by positivity)).mpr (by linarith), (div_lt_iff₀ (by positivity)).mpr ?_⟩
  linarith

/-- Whole numbers stay as they are. -/
theorem roundAway_intCast (n : ℤ) : roundAway n = n := by
  have hnear := abs_roundAway_sub_le n
  have hless : |roundAway n - n| < 1 := by
    have hhalf : ((|roundAway n - n| : ℤ) : ℚ) ≤ 1 / 2 := by exact_mod_cast hnear
    exact_mod_cast hhalf.trans_lt one_half_lt_one
  exact sub_eq_zero.mp (Int.abs_lt_one_iff.mp hless)

/-! ### Whole doubles -/

/-- A whole number with no more digits than a mantissa has is a double. -/
theorem rational?_ofUInt64 {w : UInt64} (h : w.toNat < 2 ^ 53) :
    rational? w.toFloat = some (w.toNat : ℚ) := by
  rcases Nat.eq_zero_or_pos w.toNat with hzero | hpos
  · obtain rfl : w = 0 := UInt64.toNat.inj hzero
    exact rational?_zero
  · have hpack : w.toFloat =
        .ofModel (.pack (UnpackedFloat.round .binary64 .positive w.toNat 0)) := by
      have hcompare : compare (w.toNat : ℤ) 0 = .gt := Int.compare_eq_gt.mpr (by omega)
      show Float.ofModel (.pack (UnpackedFloat.normalize .binary64 w.toNat 0 .positive)) = _
      rw [UnpackedFloat.normalize, hcompare]
      rfl
    -- packing rounds to the digits of a mantissa, which leaves a number with no more of them
    obtain ⟨m, e, hvalue, hcanonical, hrounds⟩ := Binary64.exists_round hpos 0 .positive
    rw [zpow_zero, mul_one] at hrounds
    have hsame : signed false (m * 2 ^ e) = (w.toNat : ℤ) := RoundsTo.eq_of_lt hrounds h
    have hfinite := Binary64.ofFloat_pack hvalue hcanonical
    rw [if_pos (hcanonical.exponent_le_of_lt hsame h)] at hfinite
    rw [hpack, rational?_of_ofFloat hfinite]
    exact congrArg some hsame

theorem rational?_ofNat {n : ℕ} (h : n < 2 ^ 53) : rational? (Float.ofNat n) = some (n : ℚ) := by
  have hword : n.toUInt64.toNat = n := Nat.mod_eq_of_lt (h.trans (by decide))
  have hone : rational? (Float.ofBits 0x3FF0000000000000) = some 1 := by
    have hvalue : Binary64.ofFloat (Float.ofBits 0x3FF0000000000000) =
        .finite false (2 ^ 52) (-52) := by decide +kernel
    rw [rational?_of_ofFloat hvalue]
    norm_num [signed]
  -- a literal is multiplied by a power of ten, which is one here
  have hmul : Float.ofNat n = n.toUInt64.toFloat * Float.ofBits 0x3FF0000000000000 := by
    show Float.ofScientific n false 0 = _
    rw [Float.ofScientific, dif_pos ⟨h, Nat.zero_le 22⟩]
    rfl
  have hfactor := rational?_ofUInt64 (hword.trans_lt h)
  rw [hword] at hfactor
  rw [hmul]
  exact rational?_mul_of_lt hfactor hone (mul_one _) h

theorem ofUnpacked_neg {u : UnpackedFloat} {negative : Bool} {m : ℕ} {e : ℤ}
    (h : Binary64.ofUnpacked u = .finite negative m e) :
    Binary64.ofUnpacked u.neg = .finite (!negative) m e := by
  cases u with
  | notANumber => cases h
  | infinity s => cases h
  | zero s =>
    cases h
    cases s <;> rfl
  | finite s m e hm =>
    cases h
    cases s <;> rfl

/-- The exact value of a double changes its sign with it. -/
theorem rational?_neg {a : Float} (h : rational? a = some x) : rational? (-a) = some (-x) := by
  have hpack : -a = .ofModel (.pack a.toModel.unpack.neg) := rfl
  obtain ⟨negative, m, e, ha, rfl⟩ := exists_ofFloat h
  have hvalue := Binary64.ofFloat_pack (ofUnpacked_neg (Binary64.ofFloat_eq a ▸ ha))
    (Binary64.canonical ha)
  rw [if_pos (Binary64.exponent_le ha)] at hvalue
  rw [hpack, rational?_of_ofFloat hvalue]
  cases negative with
  | false => rfl
  | true => exact congrArg some (neg_neg _).symm

/-- Whole numbers of either sign that have no more digits than a mantissa are doubles. -/
theorem rational?_ofInt {n : ℤ} (h : n.natAbs < 2 ^ 53) :
    rational? (Float.ofInt n) = some (n : ℚ) := by
  cases n with
  | ofNat n => exact rational?_ofNat h
  | negSucc n =>
    exact (rational?_neg (rational?_ofNat h)).trans (congrArg some (Int.cast_negSucc n).symm)

theorem roundWhole_of_none {a : Float} (h : rational? a = none) : roundWhole a = a := by
  rw [rational?] at h
  rw [roundWhole]
  cases hvalue : Binary64.ofFloat a with
  | nan => rfl
  | infinite negative => rfl
  | finite negative m e =>
    rw [hvalue] at h
    cases h

/-- **A double goes to the whole number nearest to its exact value.** -/
theorem rational?_roundWhole {a : Float} (h : rational? a = some x) :
    rational? (roundWhole a) = some (roundAway x : ℚ) := by
  obtain ⟨negative, m, e, ha, rfl⟩ := exists_ofFloat h
  rw [roundWhole, ha]
  cases e with
  | ofNat e =>
    -- the number is whole already
    have hwhole : (m : ℚ) * 2 ^ Int.ofNat e = (m * 2 ^ e : ℕ) := by
      push_cast
      exact congrArg ((m : ℚ) * ·) (zpow_natCast 2 e)
    rw [hwhole, signed_natCast] at h ⊢
    rw [roundAway_intCast]
    exact h
  | negSucc e =>
    -- with a negative exponent the value is a quotient, and quotients are rounded as their numbers
    have hquotient : roundAway (m * 2 ^ Int.negSucc e) = roundDiv .away m (2 ^ (e + 1)) := by
      rw [← roundAway_div m (Nat.two_pow_pos (e + 1)), zpow_negSucc, ← div_eq_mul_inv]
      push_cast
      rfl
    have hsmall : roundDiv .away m (2 ^ (e + 1)) < 2 ^ 53 :=
      roundDiv_lt_of_lt (Nat.le_self_pow (Nat.succ_ne_zero e) 2) (Binary64.canonical ha).mantissa
    have hvalue := rational?_ofNat hsmall
    show rational? (if negative then -Float.ofNat _ else Float.ofNat _) = _
    cases negative with
    | false =>
      refine hvalue.trans (congrArg some ?_)
      show _ = (roundAway (m * 2 ^ Int.negSucc e) : ℚ)
      rw [hquotient, Int.cast_natCast]
    | true =>
      refine (rational?_neg hvalue).trans (congrArg some ?_)
      show _ = (roundAway (-(m * 2 ^ Int.negSucc e)) : ℚ)
      rw [roundAway_neg, hquotient, Int.cast_neg, Int.cast_natCast]

end RobotMotion.Decimal
