import RobotMotion.Proofs.Decimal.Exact
import RobotMotion.Proofs.Decimal.NearestDouble

/-!
# Products of doubles

The machine multiplies mantissas, shifts the product down to the exponent of its size, rounds
what is shifted out, and packs the result. All of this together takes the exact product to the
double nearest to it (`roundsTo_mul`), or to an infinity if no double reaches it. So products
with a factor keep the order, and what stands between finite products is finite, too
(`exists_mul_of_between`).
-/

namespace RobotMotion.Decimal

open Float.Model (Format UnpackedFloat totalExponent)
open Float.Model.UnpackedFloat

variable {x y p q : ℚ}

/-! ### Mantissas -/

namespace Binary64

theorem mantissa_shiftRight (em : ExtendedMantissa) (k : ℕ) :
    (em >>> k).mantissa = em.mantissa / 2 ^ k := by
  induction k with
  | zero => exact (Nat.div_one _).symm
  | succ k ih =>
    show (em >>> k).mantissa / 2 = _
    rw [ih, Nat.div_div_eq_div_mul, Nat.pow_succ]

/-- What is left of a mantissa that is shifted: the quotient, the last bit that is shifted out,
and whether there is anything behind that bit. -/
theorem shiftRight_succ (m k : ℕ) : (⟨m, false, false⟩ : ExtendedMantissa) >>> (k + 1) =
    ⟨m / 2 ^ (k + 1), m / 2 ^ k % 2 != 0, m % 2 ^ k != 0⟩ := by
  induction k with
  | zero =>
    show ExtendedMantissa.mk (m / 2) (m % 2 != 0) false = _
    simp [Nat.mod_one]
  | succ k ih =>
    show ExtendedMantissa.shiftRightOne ((⟨m, false, false⟩ : ExtendedMantissa) >>> (k + 1)) = _
    have hrest : (m / 2 ^ k % 2 != 0 || m % 2 ^ k != 0) = (m % 2 ^ (k + 1) != 0) := by
      rw [Nat.mod_pow_succ]
      have hpos := Nat.two_pow_pos k
      rcases Nat.mod_two_eq_zero_or_one (m / 2 ^ k) with h | h <;> rw [h] <;> simp
    rw [ih, ExtendedMantissa.shiftRightOne]
    dsimp only
    rw [hrest, Nat.div_div_eq_div_mul, ← Nat.pow_succ]

/-- **A shifted mantissa is rounded as a quotient.** -/
theorem roundedMantissa_shiftRight (m k : ℕ) :
    ((⟨m, false, false⟩ : ExtendedMantissa) >>> k).roundedMantissa = roundDiv .even m (2 ^ k) := by
  cases k with
  | zero =>
    show m = _
    simp [roundDiv, Nat.mod_one]
  | succ k =>
    have hpos := Nat.two_pow_pos k
    have hlt := Nat.mod_lt m hpos
    have hsplit : m % 2 ^ (k + 1) = m % 2 ^ k + 2 ^ k * (m / 2 ^ k % 2) := Nat.mod_pow_succ
    rw [shiftRight_succ, roundDiv]
    rw [Nat.pow_succ] at hsplit ⊢
    rw [hsplit]
    -- the last bit that is shifted out is worth half of the divisor
    rcases Nat.mod_two_eq_zero_or_one (m / 2 ^ k) with hbit | hbit
    · rw [hbit, if_pos (by omega)]
      cases hmore : m % 2 ^ k != 0 <;> rfl
    · rw [hbit, if_neg (by omega)]
      cases hmore : m % 2 ^ k != 0 with
      | true =>
        have := bne_iff_ne.mp hmore
        rw [if_pos (by omega)]
        rfl
      | false =>
        have := bne_eq_false_iff_eq.mp hmore
        rw [if_neg (by omega)]
        show m / (2 ^ k * 2) + m / (2 ^ k * 2) % 2 = _
        split <;> omega

/-- A mantissa is shifted as far as its size and the least exponent ask for. -/
theorem shiftToTargetExponent_eq {m : ℕ} {e : ℤ} {k : ℕ}
    (hk : e + k = max e (max ((m.log2 : ℤ) + 1 + e - 53) (-1074))) :
    shiftToTargetExponent .binary64 m e .exact =
      ((⟨m, false, false⟩ : ExtendedMantissa) >>> k, e + k) := by
  have hshift : (max ((m.log2 : ℤ) + 1 + e - 53) (-1074) - e).toNat = k := by omega
  exact congrArg (fun k : ℕ => ((⟨m, false, false⟩ : ExtendedMantissa) >>> k, e + k)) hshift

/-- The exponent that a mantissa of any size is brought to is that of its number. -/
theorem scale_of_log2 {m : ℕ} (hm : 0 < m) {e t : ℤ}
    (ht : t = max ((m.log2 : ℤ) + 1 + e - 53) (-1074)) : Scale (m * 2 ^ e) t := by
  have hlow : (2 : ℚ) ^ (m.log2 : ℤ) ≤ m := by
    rw [zpow_natCast]
    exact_mod_cast Nat.log2_self_le hm.ne'
  have hhigh : (m : ℚ) < 2 ^ ((m.log2 : ℤ) + 1) := by
    have hlog : (m : ℚ) < 2 ^ (m.log2 + 1) := by exact_mod_cast Nat.lt_log2_self
    exact_mod_cast hlog
  have hpower := two_zpow_pos e
  have habs : |(m : ℚ) * 2 ^ e| = m * 2 ^ e := abs_of_nonneg (by positivity)
  refine ⟨by omega, ?_, ?_⟩
  · rw [habs]
    calc (m : ℚ) * 2 ^ e < 2 ^ ((m.log2 : ℤ) + 1) * 2 ^ e := mul_lt_mul_of_pos_right hhigh hpower
      _ = 2 ^ ((m.log2 : ℤ) + 1 + e) := (zpow_add₀ two_ne_zero _ _).symm
      _ ≤ 2 ^ (53 + t) := zpow_le_zpow_right₀ one_le_two (by omega)
      _ = 2 ^ 53 * 2 ^ t := zpow_add₀ two_ne_zero _ _
  · rcases eq_or_ne t (-1074) with hleast | hleast
    · exact .inl hleast
    · right
      rw [habs]
      calc (2 : ℚ) ^ 52 * 2 ^ t = 2 ^ (52 + t) := (zpow_add₀ two_ne_zero _ _).symm
        _ = 2 ^ ((m.log2 : ℤ) + e) := by
          congr 1
          omega
        _ = 2 ^ (m.log2 : ℤ) * 2 ^ e := zpow_add₀ two_ne_zero _ _
        _ ≤ m * 2 ^ e := mul_le_mul_of_nonneg_right hlow hpower.le

/-- A mantissa that has at most one digit too many keeps its number. -/
theorem exists_shiftToTargetExponent {r : ℕ} {t : ℤ} (ht : -1074 ≤ t) (hr : r ≤ 2 ^ 53)
    (hleading : t = -1074 ∨ 2 ^ 52 ≤ r) :
    ∃ em e, shiftToTargetExponent .binary64 r t .exact = (em, e) ∧ Canonical em.mantissa e ∧
      (em.mantissa : ℚ) * 2 ^ e = r * 2 ^ t := by
  rcases hr.eq_or_lt with rfl | hlt
  · have hshift : shiftToTargetExponent .binary64 (2 ^ 53) t .exact =
        ((⟨2 ^ 53, false, false⟩ : ExtendedMantissa) >>> 1, t + (1 : ℕ)) :=
      shiftToTargetExponent_eq (by rw [Nat.log2_two_pow]; omega)
    refine ⟨_, _, hshift, ?_⟩
    rw [mantissa_shiftRight]
    refine ⟨⟨by decide, by omega, .inr (by decide)⟩, ?_⟩
    rw [Nat.cast_one, zpow_add_one₀ two_ne_zero]
    norm_num
    ring
  · have hlog : r.log2 ≤ 52 := by
      rcases Nat.eq_zero_or_pos r with rfl | hpos
      · decide
      · exact Nat.le_of_lt_succ ((Nat.log2_lt hpos.ne').mpr hlt)
    have hshift : shiftToTargetExponent .binary64 r t .exact =
        ((⟨r, false, false⟩ : ExtendedMantissa) >>> 0, t + (0 : ℕ)) :=
      shiftToTargetExponent_eq (by omega)
    refine ⟨_, _, hshift, ?_⟩
    rw [mantissa_shiftRight, pow_zero, Nat.div_one, Nat.cast_zero, add_zero]
    exact ⟨⟨hlt, ht, hleading⟩, rfl⟩

/-- **A number is rounded to the nearest double**, as far as its exponent goes. -/
theorem exists_roundWithAccuracy {m : ℕ} (hm : 0 < m) {e : ℤ}
    (he : e ≤ max ((m.log2 : ℤ) + 1 + e - 53) (-1074)) (sign : Sign) :
    ∃ m' e', ofUnpacked (roundWithAccuracy .binary64 sign m e .exact) =
        .finite (sign == .negative) m' e' ∧
      Canonical m' e' ∧ RoundsTo (m * 2 ^ e) (m' * 2 ^ e') := by
  obtain ⟨k, hk⟩ : ∃ k : ℕ, e + k = max ((m.log2 : ℤ) + 1 + e - 53) (-1074) :=
    ⟨(max ((m.log2 : ℤ) + 1 + e - 53) (-1074) - e).toNat, by omega⟩
  have hscale : Scale (m * 2 ^ e) (e + k) := scale_of_log2 hm hk
  have hvalue : (m : ℚ) / (2 ^ k : ℕ) * 2 ^ (e + k) = m * 2 ^ e := by
    rw [zpow_add₀ two_ne_zero, zpow_natCast]
    push_cast
    field_simp
  have hnearest : Nearest (2 ^ (e + k)) (m * 2 ^ e) (roundDiv .even m (2 ^ k)) := by
    rw [← hvalue]
    exact nearest_roundDiv (two_zpow_pos _) m (Nat.two_pow_pos k)
  have hshift := shiftToTargetExponent_eq (m := m) (e := e) (k := k) (by omega)
  -- rounding may carry over into a digit too many, which a second shift takes away
  have hgreatest : roundDiv .even m (2 ^ k) ≤ 2 ^ 53 := by
    exact_mod_cast hscale.nearest_le hnearest
  have hleading : e + k = -1074 ∨ 2 ^ 52 ≤ roundDiv .even m (2 ^ k) := by
    refine or_iff_not_imp_left.mpr fun hleast => ?_
    exact_mod_cast hscale.le_nearest hnearest (by positivity) hleast
  obtain ⟨em, e', hshift', hcanonical, hsame⟩ :=
    exists_shiftToTargetExponent hscale.least hgreatest hleading
  rw [← roundedMantissa_shiftRight] at hshift'
  refine ⟨em.mantissa, e', ?_, hcanonical, _, _, hscale, hnearest, by exact_mod_cast hsame⟩
  rw [roundWithAccuracy, hshift]
  dsimp only
  rw [hshift']
  dsimp only
  by_cases hzero : em.mantissa = 0
  · -- nothing but a double with the least exponent has a mantissa of zero
    have hleast : e' = -1074 := hcanonical.leading.resolve_right (by omega)
    rw [dif_pos hzero, hzero, hleast]
    rfl
  · rw [dif_neg hzero]
    rfl

/-- A mantissa that is shifted up before it is rounded may be of any size. -/
theorem exists_round {m : ℕ} (hm : 0 < m) (e : ℤ) (sign : Sign) :
    ∃ m' e', ofUnpacked (UnpackedFloat.round .binary64 sign m e) =
        .finite (sign == .negative) m' e' ∧
      Canonical m' e' ∧ RoundsTo (m * 2 ^ e) (m' * 2 ^ e') := by
  obtain ⟨s, hs⟩ : ∃ s, s = (e - max ((m.log2 : ℤ) + 1 + e - 53) (-1074)).toNat := ⟨_, rfl⟩
  have hround : UnpackedFloat.round .binary64 sign m e =
      roundWithAccuracy .binary64 sign (m <<< s) (e - s) .exact := by
    rw [hs]
    rfl
  have hlog : (m <<< s).log2 = m.log2 + s := by
    rw [Nat.log2_eq_iff (Nat.shiftLeft_pos_iff.mpr hm).ne', Nat.shiftLeft_eq, Nat.add_right_comm]
    rw [Nat.pow_add, Nat.pow_add]
    exact ⟨Nat.mul_le_mul_right _ (Nat.log2_self_le hm.ne'),
      Nat.mul_lt_mul_of_pos_right Nat.lt_log2_self (Nat.two_pow_pos s)⟩
  have hvalue : ((m <<< s : ℕ) : ℚ) * 2 ^ (e - s) = m * 2 ^ e := by
    rw [Nat.shiftLeft_eq, zpow_sub₀ two_ne_zero, zpow_natCast]
    push_cast
    field_simp
  rw [hround, ← hvalue]
  exact exists_roundWithAccuracy (Nat.shiftLeft_pos_iff.mpr hm) (by omega) sign

/-! ### Products -/

/-- The product of two mantissas is not too short for its exponent. -/
theorem Canonical.exponent_mul_le {m n : ℕ} {e k : ℤ} (hm : Canonical m e) (hn : Canonical n k)
    (hmpos : 0 < m) (hnpos : 0 < n) :
    e + k ≤ max (((m * n).log2 : ℤ) + 1 + (e + k) - 53) (-1074) := by
  have hlog (h : 2 ^ 52 ≤ m * n) : 52 ≤ (m * n).log2 :=
    (Nat.le_log2 (Nat.mul_ne_zero hmpos.ne' hnpos.ne')).mpr h
  rcases hm.leading with he | hlarge
  · rcases hn.leading with hk | hlarge
    · omega
    · have := hlog (hlarge.trans (Nat.le_mul_of_pos_left n hmpos))
      omega
  · have := hlog (hlarge.trans (Nat.le_mul_of_pos_right m hnpos))
    omega

end Binary64

/-- A product is that of the unpacked doubles. -/
theorem mul_eq (a b : Float) :
    a * b = .ofModel (.pack (UnpackedFloat.mul .binary64 a.toModel.unpack b.toModel.unpack)) :=
  rfl

theorem RoundsTo.signed (h : RoundsTo x p) (negative : Bool) :
    RoundsTo (signed negative x) (signed negative p) := by
  cases negative with
  | false => exact h
  | true => exact h.neg

theorem signed_mul (σ τ : Sign) (x y : ℚ) :
    signed (σ == .negative) x * signed (τ == .negative) y =
      signed (σ * τ == .negative) (x * y) := by
  cases σ <;> cases τ
  · exact neg_mul_neg x y
  · exact neg_mul x y
  · exact mul_neg x y
  · rfl

/-- **The exact product is rounded to the nearest double**, before it is packed. -/
theorem exists_unpacked_mul {a b : Float} (ha : rational? a = some x) (hb : rational? b = some y) :
    ∃ negative m e, Binary64.ofUnpacked
        (UnpackedFloat.mul .binary64 a.toModel.unpack b.toModel.unpack) = .finite negative m e ∧
      Binary64.Canonical m e ∧ RoundsTo (x * y) (signed negative (m * 2 ^ e)) := by
  have hzero (negative : Bool) {z : ℚ} (hz : z = 0) :
      RoundsTo z (signed negative ((0 : ℕ) * 2 ^ (-1074 : ℤ))) := by
    rw [hz, Nat.cast_zero, zero_mul, signed_zero]
    exact roundsTo_zero
  obtain ⟨σ, hu, rfl⟩ | ⟨σ, m, e, hm, hu, rfl⟩ := rational?_cases ha <;>
    obtain ⟨τ, hv, rfl⟩ | ⟨τ, n, k, hn, hv, rfl⟩ := rational?_cases hb <;> rw [hu, hv]
  case inl.inl => exact ⟨_, 0, -1074, rfl, Binary64.canonical_zero, hzero _ (zero_mul _)⟩
  case inl.inr => exact ⟨_, 0, -1074, rfl, Binary64.canonical_zero, hzero _ (zero_mul _)⟩
  case inr.inl => exact ⟨_, 0, -1074, rfl, Binary64.canonical_zero, hzero _ (mul_zero _)⟩
  case inr.inr =>
    obtain ⟨m', e', hvalue, hcanonical, hrounds⟩ := Binary64.exists_roundWithAccuracy
      (Nat.mul_pos hm hn)
      ((Binary64.Canonical.of_unpack hu).exponent_mul_le (.of_unpack hv) hm hn) (σ * τ)
    refine ⟨_, m', e', hvalue, hcanonical, ?_⟩
    have hexact : ((m * n : ℕ) : ℚ) * 2 ^ (e + k) = m * 2 ^ e * (n * 2 ^ k) := by
      rw [zpow_add₀ two_ne_zero]
      push_cast
      ring
    rw [hexact] at hrounds
    rw [signed_mul]
    exact hrounds.signed _

/-- **A product of doubles is the exact product, rounded to the nearest double**, or infinite
where that has too large an exponent. -/
theorem exists_ofFloat_mul {a b : Float} (ha : rational? a = some x) (hb : rational? b = some y) :
    ∃ negative m e, Binary64.Canonical m e ∧ RoundsTo (x * y) (signed negative (m * 2 ^ e)) ∧
      Binary64.ofFloat (a * b) =
        if e ≤ 971 then .finite negative m e else .infinite negative := by
  obtain ⟨negative, m, e, hvalue, hcanonical, hrounds⟩ := exists_unpacked_mul ha hb
  refine ⟨negative, m, e, hcanonical, hrounds, ?_⟩
  rw [mul_eq]
  exact Binary64.ofFloat_pack hvalue hcanonical

/-- A finite product is correctly rounded. -/
theorem roundsTo_mul {a b : Float} (ha : rational? a = some x) (hb : rational? b = some y)
    (hp : rational? (a * b) = some p) : RoundsTo (x * y) p := by
  obtain ⟨negative, m, e, -, hrounds, hvalue⟩ := exists_ofFloat_mul ha hb
  rw [rational?, hvalue] at hp
  split at hp
  · obtain rfl := Option.some.inj hp
    exact hrounds
  · cases hp

/-- A small whole number does not have too large an exponent. -/
theorem Binary64.Canonical.exponent_le_of_lt {negative : Bool} {m : ℕ} {e n : ℤ}
    (h : Binary64.Canonical m e) (hsame : signed negative (m * 2 ^ e) = n)
    (hn : n.natAbs < 2 ^ 53) : e ≤ 971 := by
  refine h.exponent_le_iff.mpr ?_
  rw [← abs_signed (mul_nonneg m.cast_nonneg (two_zpow_pos e).le) negative, hsame,
    ← Int.cast_abs, ← Nat.cast_natAbs]
  calc (n.natAbs : ℚ) < 2 ^ (53 : ℤ) := by exact_mod_cast hn
    _ ≤ 2 ^ (1024 : ℤ) := zpow_le_zpow_right₀ one_le_two (by decide)

/-- **A product that is a small whole number is exact.** -/
theorem rational?_mul_of_lt {a b : Float} {n : ℤ} (ha : rational? a = some x)
    (hb : rational? b = some y) (hproduct : x * y = n) (hn : n.natAbs < 2 ^ 53) :
    rational? (a * b) = some (n : ℚ) := by
  obtain ⟨negative, m, e, hcanonical, hrounds, hvalue⟩ := exists_ofFloat_mul ha hb
  rw [hproduct] at hrounds
  have hsame := hrounds.eq_of_lt hn
  rw [if_pos (hcanonical.exponent_le_of_lt hsame hn)] at hvalue
  rw [rational?_of_ofFloat hvalue, hsame]

theorem isFinite_of_pack {u : UnpackedFloat}
    (h : (unpack .binary64 (pack .binary64 u)).isFinite = true) : u.isFinite = true := by
  cases u with
  | notANumber =>
    revert h
    decide +kernel
  | infinity s =>
    cases s <;>
      · revert h
        decide +kernel
  | zero s => rfl
  | finite s m e hm => rfl

theorem isFinite_of_unpacked_mul {u v : UnpackedFloat}
    (h : (UnpackedFloat.mul .binary64 u v).isFinite = true) :
    u.isFinite = true ∧ v.isFinite = true := by
  cases u <;> cases v <;> first | exact ⟨rfl, rfl⟩ | cases h

/-- A finite product has finite factors. -/
theorem exists_rational?_of_mul {a b : Float} (hp : rational? (a * b) = some p) :
    ∃ x y, rational? a = some x ∧ rational? b = some y := by
  have hfinite : (a * b).isFinite = true :=
    isSome_rational?_iff.mp (Option.isSome_iff_exists.mpr ⟨p, hp⟩)
  obtain ⟨ha, hb⟩ := isFinite_of_unpacked_mul (isFinite_of_pack hfinite)
  obtain ⟨x, hx⟩ := exists_rational? (x := a) ha
  obtain ⟨y, hy⟩ := exists_rational? (x := b) hb
  exact ⟨x, y, hx, hy⟩

/-- **Products keep the order**, and what lies between finite products is finite. -/
theorem exists_mul_of_between {u v w factor : Float} (hlow : v ≤ u) (hhigh : u ≤ w)
    (hfactor : 0.0 < factor) (hp : rational? (v * factor) = some p)
    (hq : rational? (w * factor) = some q) :
    ∃ r, rational? (u * factor) = some r ∧ p ≤ r ∧ r ≤ q := by
  obtain ⟨x, f, hx, hf⟩ := exists_rational?_of_mul hp
  obtain ⟨z, -, hz, -⟩ := exists_rational?_of_mul hq
  obtain ⟨y, hy⟩ := exists_rational?_of_between hx hz hlow hhigh
  have hpos : 0 ≤ f := ((lt_iff_rational rational?_zero hf).mp hfactor).le
  obtain ⟨negative, m, e, hcanonical, hrounds, hvalue⟩ := exists_ofFloat_mul hy hf
  have hbelow : p ≤ signed negative (m * 2 ^ e) :=
    (roundsTo_mul hx hf hp).le_of_le hrounds
      (mul_le_mul_of_nonneg_right ((le_iff_rational hx hy).mp hlow) hpos)
  have habove : signed negative (m * 2 ^ e) ≤ q :=
    hrounds.le_of_le (roundsTo_mul hz hf hq)
      (mul_le_mul_of_nonneg_right ((le_iff_rational hy hz).mp hhigh) hpos)
  -- the size of the product is not above both of the sizes around it
  have hsize : |signed negative (m * 2 ^ e)| < 2 ^ (1024 : ℤ) :=
    (abs_le_max_abs_abs hbelow habove).trans_lt
      (max_lt (abs_lt_of_rational? hp) (abs_lt_of_rational? hq))
  rw [abs_signed (mul_nonneg m.cast_nonneg (two_zpow_pos e).le)] at hsize
  rw [if_pos (hcanonical.exponent_le_iff.mpr hsize)] at hvalue
  exact ⟨_, rational?_of_ofFloat hvalue, hbelow, habove⟩

end RobotMotion.Decimal
