import RobotMotion.Decimal.Fixed

/-!
# Doubles that compare as equal

The machine takes a zero for equal to a zero of the other sign, and a value that is not
a number for different from itself. Everything else compares as equal to itself only.
Hence texts and quotients do not tell apart what compares as equal
(`fixed_of_beq`, `div_eq`).

The core library compares and divides unpacked doubles. `Binary64.ofFloat_eq` says that
the exact value that is read off the bits here is that of the unpacked double.
-/

namespace RobotMotion.Decimal

open Float.Model (UnpackedFloat)
open Float.Model.UnpackedFloat

namespace Binary64

/-! ### The value of an unpacked double -/

/-- The value of an unpacked double. -/
def ofUnpacked : UnpackedFloat → Binary64
  | .notANumber => .nan
  | .infinity sign => .infinite (sign == .negative)
  | .zero sign => .finite (sign == .negative) 0 (-1074)
  | .finite sign mantissa exponent _ => .finite (sign == .negative) mantissa exponent

/-- The mantissa is in the lowest 52 bits. -/
theorem toNat_unpackMantissa (b : BitVec 64) :
    (@unpackMantissa .binary64 b).toNat = b.toNat % Nat.pow 2 52 := by
  simp [unpackMantissa]

/-- The exponent is in the 11 bits above. -/
theorem toNat_unpackExponent (b : BitVec 64) :
    (@unpackExponent .binary64 b).toNat = b.toNat / Nat.pow 2 52 % Nat.pow 2 11 := by
  simp [unpackExponent, Nat.shiftRight_eq_div_pow]

/-- The sign is the highest bit. -/
theorem toNat_unpackSign (b : BitVec 64) :
    (@unpackSign .binary64 b).toNat = b.toNat / Nat.pow 2 63 := by
  have hlt := b.isLt
  have hsign : @unpackSign .binary64 b = b.extractLsb 63 63 := rfl
  simp [hsign, Nat.shiftRight_eq_div_pow]
  omega

/-- A sign is negative just where its bit is one. -/
theorem ofBitVec_beq_negative (v : BitVec 1) :
    (Sign.ofBitVec v == .negative) = (v.toNat == 1) := by
  revert v
  decide

/-- The leading bit that a normal double leaves out. -/
theorem toNat_append_leadingBit (v : BitVec 52) : (1#1 ++ v).toNat = Nat.pow 2 52 + v.toNat := by
  rw [BitVec.toNat_append, ← Nat.shiftLeft_add_eq_or_of_lt v.isLt]
  rfl

/-- Exponents are compared as numbers. -/
theorem unpackExponent_eq_iff {b : BitVec 64} {n : Nat} (hn : n < Nat.pow 2 11) :
    @unpackExponent .binary64 b = BitVec.ofNat 11 n ↔
      (@unpackExponent .binary64 b).toNat = n := by
  have hmod : n % 2 ^ 11 = n := Nat.mod_eq_of_lt hn
  rw [← BitVec.toNat_inj, BitVec.toNat_ofNat, hmod]

/-- So is a mantissa with zero. -/
theorem unpackMantissa_eq_zero_iff {b : BitVec 64} :
    @unpackMantissa .binary64 b = 0#52 ↔ (@unpackMantissa .binary64 b).toNat = 0 := by
  rw [← BitVec.toNat_inj]
  rfl

/-- The fields of a bit pattern and its unpacked form have the same value. -/
theorem ofFields_eq (b : BitVec 64) :
    ofFields (b.toNat / Nat.pow 2 63 == 1) (b.toNat / Nat.pow 2 52 % Nat.pow 2 11)
      (b.toNat % Nat.pow 2 52) = ofUnpacked (unpack .binary64 b) := by
  rw [← toNat_unpackMantissa, ← toNat_unpackExponent, ← toNat_unpackSign,
    ← ofBitVec_beq_negative, ofFields]
  delta unpack
  -- the greatest exponent is for what is not finite
  by_cases hones : (@unpackExponent .binary64 b).toNat = 2047
  · have hexponent : @unpackExponent .binary64 b = -1#11 :=
      (unpackExponent_eq_iff (by decide)).mpr hones
    rw [if_pos hones, if_pos hexponent]
    by_cases hzero : (@unpackMantissa .binary64 b).toNat = 0
    · rw [if_pos hzero, if_pos (unpackMantissa_eq_zero_iff.mpr hzero)]
      rfl
    · rw [if_neg hzero, if_neg (mt unpackMantissa_eq_zero_iff.mp hzero)]
      rfl
  · have hexponent : @unpackExponent .binary64 b ≠ -1#11 :=
      mt (unpackExponent_eq_iff (by decide)).mp hones
    rw [if_neg hones, if_neg hexponent]
    by_cases hfirst : (@unpackExponent .binary64 b).toNat = 0
    · rw [if_pos hfirst, if_pos ((unpackExponent_eq_iff (by decide)).mpr hfirst)]
      by_cases hzero : (@unpackMantissa .binary64 b).toNat = 0
      · rw [dif_pos (unpackMantissa_eq_zero_iff.mpr hzero), hzero]
        rfl
      · rw [dif_neg (mt unpackMantissa_eq_zero_iff.mp hzero), hfirst]
        rfl
    · rw [if_neg hfirst, if_neg (mt (unpackExponent_eq_iff (by decide)).mp hfirst),
        ← toNat_append_leadingBit]
      rfl

/-- **The value of a double is that of its unpacked form.** -/
theorem ofFloat_eq (x : Float) : ofFloat x = ofUnpacked x.toModel.unpack :=
  ofFields_eq x.toModel.toBits.toBitVec

/-! ### Comparing -/

/-- Unpacked doubles that compare as equal are the same, or both are zeros. -/
theorem eq_or_zeros_of_compare {u v : UnpackedFloat} (h : u.compare v = some .eq) :
    u = v ∨ ∃ s t, u = .zero s ∧ v = .zero t := by
  -- kind by kind: values of two kinds never compare as equal, save for zeros of two signs
  cases u with
  | notANumber => cases v <;> cases h
  | infinity s =>
    cases v with
    | infinity t => cases s <;> cases t <;> first | exact .inl rfl | cases h
    | _ => cases s <;> cases h
  | zero s =>
    cases v with
    | zero t => exact .inr ⟨s, t, rfl, rfl⟩
    | infinity t => cases t <;> cases h
    | notANumber => cases h
    | finite t n k hn => cases t <;> cases h
  | finite s m e hm =>
    cases v with
    | finite t n k hn =>
      left
      have hsame (h : (Ord.compare e k).then (Ord.compare m n) = .eq) : e = k ∧ m = n := by
        simpa using h
      cases s <;> cases t
      · obtain ⟨rfl, rfl⟩ := hsame (Ordering.swap_eq_eq.mp (Option.some.inj h))
        rfl
      · cases h
      · cases h
      · obtain ⟨rfl, rfl⟩ := hsame (Option.some.inj h)
        rfl
    | infinity t => cases s <;> cases t <;> cases h
    | zero t => cases s <;> cases h
    | notANumber => cases s <;> cases h

end Binary64

/-- **What compares as equal is the same, or both are zeros.** -/
theorem eq_or_zeros_of_beq {a b : Float} (h : (a == b) = true) :
    a.toModel.unpack = b.toModel.unpack ∨
      ∃ s t, a.toModel.unpack = .zero s ∧ b.toModel.unpack = .zero t :=
  Binary64.eq_or_zeros_of_compare (beq_iff_eq.mp h)

/-- A fixed number of places does not show the sign of a zero. -/
theorem fixed_of_beq {a b : Float} (h : (a == b) = true) (places : Nat) :
    fixed a places = fixed b places := by
  rw [fixed, fixed, Binary64.ofFloat_eq, Binary64.ofFloat_eq]
  rcases eq_or_zeros_of_beq h with hsame | ⟨s, t, hs, ht⟩
  · rw [hsame]
  · have hzero (s : Sign) : Binary64.ofUnpacked (.zero s) = .finite (s == .negative) 0 (-1074) :=
      rfl
    rw [hs, ht, hzero, hzero]
    simp [fixedUnits, binaryNumerator, roundDiv, binaryDenominator_pos]

/-- A quotient is that of the unpacked doubles. -/
theorem div_eq (a b : Float) :
    a / b = .ofModel (.pack (UnpackedFloat.div .binary64 a.toModel.unpack b.toModel.unpack)) :=
  rfl

/-- A thousandth does not show the sign of a zero either. -/
theorem fixed_thousandth_of_beq {a b : Float} (h : (a == b) = true) (places : Nat) :
    fixed (a / 1000.0) places = fixed (b / 1000.0) places := by
  rcases eq_or_zeros_of_beq h with hsame | ⟨s, t, hs, ht⟩
  · rw [div_eq, div_eq, hsame]
  -- a thousandth of a zero is a zero of the same sign
  · have hzeros : (a / 1000.0 == b / 1000.0) = true := by
      rw [div_eq, div_eq, hs, ht]
      cases s <;> cases t <;> decide +kernel
    exact fixed_of_beq hzeros places

/-- What compares as equal does so the other way round. -/
theorem beq_symm {a b : Float} (h : (a == b) = true) : (b == a) = true := by
  have hcompare : a.toModel.unpack.compare b.toModel.unpack = some .eq := beq_iff_eq.mp h
  show (b.toModel.unpack.compare a.toModel.unpack == some .eq) = true
  rcases eq_or_zeros_of_beq h with hsame | ⟨s, t, hs, ht⟩
  · rw [hsame] at hcompare ⊢
    rw [hcompare]
    rfl
  · rw [hs, ht]
    rfl

/-- The order of doubles is that of the unpacked ones. -/
theorem lt_iff_compare {a b : Float} :
    a < b ↔ a.toModel.unpack.compare b.toModel.unpack = some .lt :=
  decide_eq_true_iff.trans beq_iff_eq

/-- And so it is where equality is allowed. -/
theorem le_iff_compare {a b : Float} :
    a ≤ b ↔ (a.toModel.unpack.compare b.toModel.unpack).any Ordering.isLE = true :=
  decide_eq_true_iff

/-- Whether a double is less than another does not show the sign of a zero. -/
theorem lt_congr_of_beq {a b : Float} (h : (a == b) = true) (x : Float) : x < a ↔ x < b := by
  rw [lt_iff_compare, lt_iff_compare]
  rcases eq_or_zeros_of_beq h with hsame | ⟨s, t, hs, ht⟩
  · rw [hsame]
  · rw [hs, ht]
    cases x.toModel.unpack with
    | finite s => cases s <;> rfl
    | infinity s => cases s <;> rfl
    | _ => rfl

/-- Doubles that compare as equal compare alike to every other. -/
theorem beq_trans {a b c : Float} (hab : (a == b) = true) (hbc : (b == c) = true) :
    (a == c) = true := by
  have hcompare : b.toModel.unpack.compare c.toModel.unpack = some .eq := beq_iff_eq.mp hbc
  show (a.toModel.unpack.compare c.toModel.unpack == some .eq) = true
  rcases eq_or_zeros_of_beq hab with hsame | ⟨s, t, hs, ht⟩
  · rw [hsame, hcompare]
    rfl
  · -- what compares as equal to a zero is a zero
    rcases eq_or_zeros_of_beq hbc with hsame | ⟨-, u, -, hu⟩
    · rw [hs, ← hsame, ht]
      rfl
    · rw [hs, hu]
      rfl

/-- The same double, or one that compares as equal. They differ for values that are not
numbers, which are the same but do not compare as equal. -/
def Same (a b : Float) : Prop := a = b ∨ (a == b) = true

/-- What is the same as the same is the same. -/
theorem Same.trans {a b c : Float} (hab : Same a b) (hbc : Same b c) : Same a c := by
  rcases hab with rfl | hab
  · exact hbc
  · rcases hbc with rfl | hbc
    · exact .inr hab
    · exact .inr (beq_trans hab hbc)

end RobotMotion.Decimal
