import RobotMotion.Proofs.Decimal.Equality
import Mathlib.Algebra.Order.Ring.Int

/-!
# Mantissas and exponents of doubles

The mantissa of a double has all its digits, unless the exponent is the least
(`Binary64.Canonical`). So a value has one mantissa and one exponent, and packing keeps both,
as long as the exponent is not too large (`Binary64.ofFloat_pack`).
-/

namespace RobotMotion.Decimal

open Float.Model (UnpackedFloat)
open Float.Model.UnpackedFloat

namespace Binary64

/-! ### Canonical mantissas -/

/-- What a double has for a mantissa and an exponent: a mantissa has 53 digits, unless the
exponent is the least. -/
structure Canonical (m : Nat) (e : Int) : Prop where
  mantissa : m < 2 ^ 53
  exponent : -1074 ≤ e
  leading : e = -1074 ∨ 2 ^ 52 ≤ m

theorem canonical_of_ofFields {negative sign : Bool} {field fraction m : Nat} {e : Int}
    (hfraction : fraction < 2 ^ 52) (h : ofFields sign field fraction = .finite negative m e) :
    Canonical m e := by
  rw [ofFields] at h
  split at h
  · split at h <;> cases h
  · split at h
    · cases h
      exact ⟨hfraction.trans (by decide), le_rfl, .inl rfl⟩
    · cases h
      have hmantissa : 2 ^ 52 + fraction < 2 ^ 53 := by omega
      exact ⟨hmantissa, by omega, .inr (Nat.le_add_right _ _)⟩

theorem canonical_zero : Canonical 0 (-1074) := ⟨by decide, le_rfl, .inl rfl⟩

/-- **Doubles are canonical.** -/
theorem canonical {x : Float} {negative : Bool} {m : Nat} {e : Int}
    (h : ofFloat x = .finite negative m e) : Canonical m e :=
  canonical_of_ofFields (Nat.mod_lt _ (Nat.two_pow_pos 52)) h

theorem Canonical.of_unpack {x : Float} {s : Sign} {m : Nat} {e : Int} {hm : 0 < m}
    (h : x.toModel.unpack = .finite s m e hm) : Canonical m e := by
  have hvalue := ofFloat_eq x
  rw [h] at hvalue
  exact canonical hvalue

/-- No finite double has an exponent above that of the greatest. -/
theorem exponent_le {x : Float} {negative : Bool} {m : Nat} {e : Int}
    (h : ofFloat x = .finite negative m e) : e ≤ 971 := by
  have hfield : x.toBits.toNat / Nat.pow 2 52 % Nat.pow 2 11 < 2 ^ 11 :=
    Nat.mod_lt _ (Nat.two_pow_pos 11)
  rw [ofFloat, ofFields] at h
  split at h
  · split at h <;> cases h
  · split at h <;>
      · cases h
        omega

/-! ### Packing -/

theorem ofBitVec_unpackSign (sign : Sign) (field : BitVec 11) (fraction : BitVec 52) :
    Sign.ofBitVec (@unpackSign .binary64 (packComponents .binary64 sign field fraction)) =
      sign := by
  have hsign : @unpackSign .binary64 (packComponents .binary64 sign field fraction) =
      (sign.toBitVec ++ field ++ fraction).extractLsb' 63 1 := rfl
  rw [hsign, BitVec.extractLsb'_append_eq_of_le (by decide),
    BitVec.extractLsb'_append_eq_of_le (by decide)]
  cases sign <;> rfl

/-- The fields that a double was packed from are those that its value is read off. -/
theorem ofUnpacked_packComponents (sign : Sign) (field : BitVec 11) (fraction : BitVec 52) :
    ofUnpacked (unpack .binary64 (packComponents .binary64 sign field fraction)) =
      ofFields (sign == .negative) field.toNat fraction.toNat := by
  rw [← ofFields_eq, ← toNat_unpackMantissa, ← toNat_unpackExponent, ← toNat_unpackSign,
    ← ofBitVec_beq_negative, unpackMantissa_packComponents, unpackExponent_packComponents,
    ofBitVec_unpackSign]

/-- The fields of a mantissa that has its leading bit. -/
theorem ofFields_normal (negative : Bool) {m : Nat} {e : Int} (h : Canonical m e)
    (hleading : 2 ^ 52 ≤ m) (he : e ≤ 971) :
    ofFields negative (BitVec.ofNat 11 (e + 1023 + 52).toNat).toNat (BitVec.ofNat 52 m).toNat =
      .finite negative m e := by
  have hlow := h.exponent
  have hhigh := h.mantissa
  have hmantissa : Nat.pow 2 52 + m % 2 ^ 52 = m := by
    show 2 ^ 52 + m % 2 ^ 52 = m
    omega
  have hexponent : (((e + 1023 + 52).toNat % 2 ^ 11 : Nat) : Int) - 1075 = e := by omega
  rw [BitVec.toNat_ofNat, BitVec.toNat_ofNat, ofFields, if_neg (by omega), if_neg (by omega),
    hmantissa, hexponent]

/-- The fields of a mantissa that has no leading bit. -/
theorem ofFields_subnormal (negative : Bool) {m : Nat} (h : m < 2 ^ 52) :
    ofFields negative (0#11).toNat (BitVec.ofNat 52 m).toNat = .finite negative m (-1074) := by
  show ofFields negative 0 (m % 2 ^ 52) = _
  rw [Nat.mod_eq_of_lt h]
  rfl

/-- **Packing keeps the value of a canonical double**, unless its exponent is too large. -/
theorem ofFloat_pack {u : UnpackedFloat} {negative : Bool} {m : Nat} {e : Int}
    (hu : ofUnpacked u = .finite negative m e) (h : Canonical m e) :
    ofFloat (.ofModel (.pack u)) =
      if e ≤ 971 then .finite negative m e else .infinite negative := by
  rw [ofFloat_eq]
  show ofUnpacked (unpack .binary64 (pack .binary64 u)) = _
  cases u with
  | notANumber => cases hu
  | infinity s => cases hu
  | zero s =>
    cases hu
    cases s <;> decide +kernel
  | finite s m' e' hm =>
    cases hu
    have hlow := h.exponent
    have hpack : pack .binary64 (.finite s m e hm) =
        if 2 ^ 11 ≤ (e + 1023 + 52).toNat + 1 then packedInfinity .binary64 s
        else if m.log2 + 1 = 53 then
          packComponents .binary64 s (BitVec.ofNat 11 (e + 1023 + 52).toNat) (BitVec.ofNat 52 m)
        else packComponents .binary64 s 0#11 (BitVec.ofNat 52 m) := rfl
    rw [hpack]
    by_cases hgreat : e ≤ 971
    · rw [if_pos hgreat, if_neg (by omega)]
      by_cases hleading : 2 ^ 52 ≤ m
      · have hlog : m.log2 = 52 := (Nat.log2_eq_iff hm.ne').mpr ⟨hleading, h.mantissa⟩
        rw [if_pos (by omega), ofUnpacked_packComponents, ofFields_normal _ h hleading hgreat]
      · have hless : m < 2 ^ 52 := Nat.lt_of_not_le hleading
        have hlog : m.log2 < 52 := (Nat.log2_lt hm.ne').mpr hless
        rw [if_neg (by omega), ofUnpacked_packComponents, ofFields_subnormal _ hless,
          h.leading.resolve_right hleading]
    · rw [if_neg hgreat, if_pos (by omega), packedInfinity, ofUnpacked_packComponents]
      rfl

end Binary64

end RobotMotion.Decimal
