import RobotMotion.Proofs.Decimal.Canonical
import Mathlib.Algebra.Field.Rat
import Mathlib.Algebra.Order.Field.Power
import Mathlib.Algebra.Order.Ring.Cast
import Mathlib.Algebra.Order.Ring.Rat
import Mathlib.Order.Compare
import Mathlib.Tactic.Linarith
import Mathlib.Tactic.Ring

/-!
# Exact values of doubles

A finite double is a rational number (`rational?`). The machine compares exponents before
mantissas. Since a mantissa with a larger exponent than the least has all its digits
(`Binary64.Canonical`), this is the order of the exact values (`le_iff_rational`). So what
stands between two finite doubles is finite, too (`exists_rational?_of_between`).
-/

namespace RobotMotion.Decimal

open Float.Model (UnpackedFloat)
open Float.Model.UnpackedFloat

/-- A number with a sign. -/
def signed (negative : Bool) (x : ℚ) : ℚ := if negative then -x else x

/-- The exact value of what is finite. -/
def Binary64.rational? : Binary64 → Option ℚ
  | .finite negative mantissa exponent => some (signed negative (mantissa * 2 ^ exponent))
  | _ => none

/-- The exact value of a finite double. -/
def rational? (x : Float) : Option ℚ := (Binary64.ofFloat x).rational?

variable {m n : ℕ} {e k : ℤ} {negative : Bool}

/-- **Just the finite doubles have an exact value.** -/
theorem isSome_rational?_iff {x : Float} : (rational? x).isSome = true ↔ x.isFinite = true := by
  rw [rational?, Binary64.ofFloat_eq]
  show _ ↔ x.toModel.unpack.isFinite = true
  cases x.toModel.unpack with
  | notANumber => exact Iff.rfl
  | infinity s => exact Iff.rfl
  | zero s => exact Iff.rfl
  | finite s m e hm => exact Iff.rfl

/-- Values that are not numbers and the infinities have none. -/
theorem rational?_eq_none_iff {x : Float} :
    rational? x = none ↔ x.isNaN = true ∨ x.isInf = true := by
  rw [rational?, Binary64.ofFloat_eq]
  show _ ↔ x.toModel.unpack.isNaN = true ∨ x.toModel.unpack.isInf = true
  cases x.toModel.unpack with
  | notANumber => exact iff_of_true rfl (.inl rfl)
  | infinity s => exact iff_of_true rfl (.inr rfl)
  | zero s => exact iff_of_false nofun nofun
  | finite s m e hm => exact iff_of_false nofun nofun

/-- The exact value is read off sign, mantissa and exponent. -/
theorem rational?_of_ofFloat {x : Float} (h : Binary64.ofFloat x = .finite negative m e) :
    rational? x = some (signed negative (m * 2 ^ e)) := by
  rw [rational?, h]
  rfl

/-- Every finite double has an exact value. -/
theorem exists_rational? {x : Float} (h : x.isFinite = true) : ∃ value, rational? x = some value :=
  Option.isSome_iff_exists.mp (isSome_rational?_iff.mpr h)

/-- An exact value comes from a sign, a mantissa and an exponent. -/
theorem exists_ofFloat {x : Float} {value : ℚ} (h : rational? x = some value) :
    ∃ negative m e, Binary64.ofFloat x = .finite negative m e ∧
      value = signed negative (m * 2 ^ e) := by
  rw [rational?] at h
  cases hx : Binary64.ofFloat x with
  | nan =>
    rw [hx] at h
    cases h
  | infinite negative =>
    rw [hx] at h
    cases h
  | finite negative m e =>
    rw [hx] at h
    exact ⟨negative, m, e, rfl, (Option.some.inj h).symm⟩

/-- So a finite double has these, and its exact value is what they make. -/
theorem exists_finite {x : Float} (h : x.isFinite = true) :
    ∃ negative m e, Binary64.ofFloat x = .finite negative m e ∧
      rational? x = some (signed negative (m * 2 ^ e)) := by
  obtain ⟨value, hvalue⟩ := exists_rational? h
  obtain ⟨negative, m, e, hx, -⟩ := exists_ofFloat hvalue
  exact ⟨negative, m, e, hx, rational?_of_ofFloat hx⟩

/-! ### Values -/

/-- A binary fraction is the number that it is for. -/
theorem binaryNumerator_div (m : ℕ) (e : ℤ) :
    (binaryNumerator m e : ℚ) / binaryDenominator e = m * 2 ^ e := by
  obtain ⟨n, rfl | rfl⟩ := e.eq_nat_or_neg
  · simp [binaryNumerator, binaryDenominator]
  · simp [binaryNumerator, binaryDenominator, div_eq_mul_inv]

namespace Binary64

/-- A larger exponent makes a larger value. -/
theorem Canonical.lt_of_exponent_lt (hm : Canonical m e) (hn : Canonical n k) (h : e < k) :
    (m : ℚ) * 2 ^ e < n * 2 ^ k := by
  -- the larger exponent is not the least, so its mantissa has the leading bit
  have hleading : 2 ^ 52 ≤ n := hn.leading.resolve_left (by linarith [hm.exponent])
  have hpower : (0 : ℚ) < 2 ^ e := zpow_pos two_pos e
  -- a mantissa has at most one digit more than one with the leading bit
  calc (m : ℚ) * 2 ^ e < 2 ^ 53 * 2 ^ e :=
        mul_lt_mul_of_pos_right (by exact_mod_cast hm.mantissa) hpower
    _ = 2 ^ 52 * 2 ^ (e + 1) := by
        rw [zpow_add_one₀ two_ne_zero]
        ring
    _ ≤ n * 2 ^ k := by
        refine mul_le_mul (by exact_mod_cast hleading) ?_ (zpow_pos two_pos _).le n.cast_nonneg
        exact zpow_le_zpow_right₀ one_le_two h

/-- **Exponents and then mantissas compare as the values do.** -/
theorem Canonical.compare_eq (hm : Canonical m e) (hn : Canonical n k) :
    (Ord.compare e k).then (Ord.compare m n) = cmp ((m : ℚ) * 2 ^ e) (n * 2 ^ k) := by
  -- mantissas are compared only under equal exponents
  rcases lt_trichotomy e k with hlt | rfl | hgt
  · rw [Int.compare_eq_lt.mpr hlt, (cmp_eq_lt_iff _ _).mpr (hm.lt_of_exponent_lt hn hlt)]
    rfl
  · rw [Int.compare_eq_eq.mpr rfl, cmp_mul_pos_right (zpow_pos two_pos e)]
    rw [Nat.strictMono_cast.cmp_map_eq, cmp_eq_compare]
    rfl
  · rw [Int.compare_eq_gt.mpr hgt, (cmp_eq_gt_iff _ _).mpr (hn.lt_of_exponent_lt hm hgt)]
    rfl

/-- The exponents that a finite double may have are those below `2 ^ 1024`. -/
theorem Canonical.exponent_le_iff (h : Canonical m e) :
    e ≤ 971 ↔ (m : ℚ) * 2 ^ e < 2 ^ (1024 : ℤ) := by
  constructor
  · intro he
    calc (m : ℚ) * 2 ^ e < 2 ^ (53 : ℤ) * 2 ^ e :=
          mul_lt_mul_of_pos_right (by exact_mod_cast h.mantissa) (zpow_pos two_pos e)
      _ = 2 ^ (53 + e) := (zpow_add₀ two_ne_zero _ _).symm
      _ ≤ 2 ^ (1024 : ℤ) := zpow_le_zpow_right₀ one_le_two (by omega)
  · intro hlt
    -- a greater exponent would come with the leading bit, and reach the bound
    by_contra hgreat
    have hleading : 2 ^ 52 ≤ m := h.leading.resolve_left (by omega)
    refine hlt.not_ge ?_
    calc (2 : ℚ) ^ (1024 : ℤ) ≤ 2 ^ (52 + e) := zpow_le_zpow_right₀ one_le_two (by omega)
      _ = 2 ^ (52 : ℤ) * 2 ^ e := zpow_add₀ two_ne_zero _ _
      _ ≤ m * 2 ^ e :=
        mul_le_mul_of_nonneg_right (by exact_mod_cast hleading) (zpow_pos two_pos e).le

end Binary64

/-- Zero has no sign. -/
theorem signed_zero (negative : Bool) : signed negative 0 = 0 := by
  cases negative with
  | false => rfl
  | true => exact neg_zero

/-- A whole number with a sign is a whole number. -/
theorem signed_natCast (negative : Bool) (n : ℕ) :
    signed negative n = ((if negative then -(n : ℤ) else n : ℤ) : ℚ) := by
  cases negative <;> simp [signed]

/-- A sign does not change how far a value is from zero. -/
theorem abs_signed {x : ℚ} (h : 0 ≤ x) (negative : Bool) : |signed negative x| = x := by
  cases negative with
  | false => exact abs_of_nonneg h
  | true => exact (abs_neg x).trans (abs_of_nonneg h)

/-- No finite double is further from zero than that. -/
theorem abs_lt_of_rational? {a : Float} {x : ℚ} (ha : rational? a = some x) :
    |x| < 2 ^ (1024 : ℤ) := by
  obtain ⟨negative, m, e, hvalue, rfl⟩ := exists_ofFloat ha
  rw [abs_signed (mul_nonneg m.cast_nonneg (zpow_pos two_pos e).le)]
  exact (Binary64.canonical hvalue).exponent_le_iff.mp (Binary64.exponent_le hvalue)

/-! ### The order -/

/-- A finite double is a zero, or has a mantissa that is not zero. -/
theorem rational?_cases {a : Float} {x : ℚ} (h : rational? a = some x) :
    (∃ s, a.toModel.unpack = .zero s ∧ x = 0) ∨
      ∃ s m e hm, a.toModel.unpack = .finite s m e hm ∧
        x = signed (s == .negative) (m * 2 ^ e) := by
  rw [rational?, Binary64.ofFloat_eq] at h
  -- zeros are kept apart from other finite values when doubles are unpacked
  cases hu : a.toModel.unpack with
  | notANumber =>
    rw [hu] at h
    cases h
  | infinity s =>
    rw [hu] at h
    cases h
  | zero s =>
    rw [hu] at h
    obtain rfl := Option.some.inj h
    exact .inl ⟨s, rfl, by simp [signed]⟩
  | finite s m e hm =>
    rw [hu] at h
    exact .inr ⟨s, m, e, hm, rfl, (Option.some.inj h).symm⟩

/-- A mantissa that is not zero makes a positive value. -/
theorem magnitude_pos (hm : 0 < m) (e : ℤ) : (0 : ℚ) < m * 2 ^ e :=
  mul_pos (Nat.cast_pos.mpr hm) (zpow_pos two_pos e)

/-- **The machine compares finite doubles as their exact values.** -/
theorem compare_eq {a b : Float} {x y : ℚ} (ha : rational? a = some x) (hb : rational? b = some y) :
    a.toModel.unpack.compare b.toModel.unpack = some (cmp x y) := by
  -- each of the two is a zero or not; then the signs decide, and last the magnitudes
  obtain ⟨s, hu, rfl⟩ | ⟨s, m, e, hm, hu, rfl⟩ := rational?_cases ha <;>
    obtain ⟨t, hv, rfl⟩ | ⟨t, n, k, hn, hv, rfl⟩ := rational?_cases hb <;> rw [hu, hv]
  · rw [cmp_self_eq_eq]
    rfl
  · have hpos := magnitude_pos hn k
    cases t with
    | positive => exact congrArg some ((cmp_eq_lt_iff _ _).mpr hpos).symm
    | negative => exact congrArg some ((cmp_eq_gt_iff _ _).mpr (neg_lt_zero.mpr hpos)).symm
  · have hpos := magnitude_pos hm e
    cases s with
    | positive => exact congrArg some ((cmp_eq_gt_iff _ _).mpr hpos).symm
    | negative => exact congrArg some ((cmp_eq_lt_iff _ _).mpr (neg_lt_zero.mpr hpos)).symm
  · have hcompare := (Binary64.Canonical.of_unpack hu).compare_eq (.of_unpack hv)
    have hlow := magnitude_pos hm e
    have hhigh := magnitude_pos hn k
    cases s <;> cases t
    case positive.positive => exact congrArg some hcompare
    case positive.negative =>
      exact congrArg some ((cmp_eq_gt_iff _ _).mpr ((neg_lt_zero.mpr hhigh).trans hlow)).symm
    case negative.positive =>
      exact congrArg some ((cmp_eq_lt_iff _ _).mpr ((neg_lt_zero.mpr hlow).trans hhigh)).symm
    case negative.negative =>
      show some (Ordering.swap _) = some (cmp (-(_ : ℚ)) (-_))
      rw [hcompare, cmp_swap, StrictAnti.cmp_map_eq fun _ _ h => neg_lt_neg h]

/-- **The machine orders finite doubles as their exact values.** -/
theorem le_iff_rational {a b : Float} {x y : ℚ} (ha : rational? a = some x)
    (hb : rational? b = some y) : a ≤ b ↔ x ≤ y := by
  rw [le_iff_compare, compare_eq ha hb, Option.any_some, Ordering.isLE_iff_ne_gt,
    cmp_eq_gt_iff, not_lt]

/-- And so they are where equality is not allowed. -/
theorem lt_iff_rational {a b : Float} {x y : ℚ} (ha : rational? a = some x)
    (hb : rational? b = some y) : a < b ↔ x < y := by
  rw [lt_iff_compare, compare_eq ha hb, Option.some.injEq, cmp_eq_lt_iff]

/-- Zero is exactly zero. -/
theorem rational?_zero : rational? 0.0 = some 0 := by
  have hzero : Binary64.ofFloat 0.0 = .finite false 0 (-1074) := by decide +kernel
  rw [rational?_of_ofFloat hzero]
  simp [signed]

/-! ### Between finite doubles -/

/-- A finite double is above the negative infinity and below the positive one. -/
theorem compare_infinity {a : Float} {x : ℚ} (ha : rational? a = some x) (sign : Sign) :
    a.toModel.unpack.compare (.infinity sign) = some (if sign == .negative then .gt else .lt) ∧
      UnpackedFloat.compare (.infinity sign) a.toModel.unpack =
        some (if sign == .negative then .lt else .gt) := by
  obtain ⟨s, hu, -⟩ | ⟨s, m, e, hm, hu, -⟩ := rational?_cases ha <;> rw [hu] <;>
    cases sign <;> exact ⟨rfl, rfl⟩

/-- **What stands between finite doubles is finite.** -/
theorem exists_rational?_of_between {u v w : Float} {x y : ℚ} (hv : rational? v = some x)
    (hw : rational? w = some y) (hlow : v ≤ u) (hhigh : u ≤ w) : ∃ z, rational? u = some z := by
  refine exists_rational? ?_
  show u.toModel.unpack.isFinite = true
  -- the comparisons rule out what is not a number and both infinities
  rw [le_iff_compare] at hlow hhigh
  cases hu : u.toModel.unpack with
  | zero | finite => rfl
  | notANumber =>
    rw [hu] at hhigh
    cases hhigh
  | infinity sign =>
    rw [hu, (compare_infinity hv sign).1] at hlow
    rw [hu, (compare_infinity hw sign).2] at hhigh
    cases sign with
    | negative => cases hlow
    | positive => cases hhigh

end RobotMotion.Decimal
