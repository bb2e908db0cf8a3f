import RobotMotion.Proofs.Decimal.Exact
import RobotMotion.Proofs.Decimal.Nearest
import RobotMotion.Proofs.Decimal.Numeral

/-!
# Fixed decimal places

A text with a fixed number of decimal places stands for a rational number (`Denotes`), and
for one only (`Denotes.unique`). `Decimal.fixed` writes the multiple of the last place that
is nearest to the exact value of a double (`fixed_rounds`), so it keeps the order of doubles
(`fixed_correctly_rounded`).

A minus sign is written just where that multiple is below zero. This is to take the sign of
the double, and to take it away again in front of nothing but zeros (`toList_fixed_eq`).
-/

namespace RobotMotion.Decimal

/-- The minus sign of what is negative. -/
def signChars (negative : Bool) : List Char := if negative then ['-'] else []

/-- A point and the digits behind it, where there are any. -/
def pointed : List Char → List Char
  | [] => []
  | d :: fraction => '.' :: d :: fraction

/-- **A text with a number of decimal places, and the number that it stands for**: a minus
sign or none, digits, and a point with as many digits behind it as there are places. Without
places there is no point. -/
inductive Denotes (places : ℕ) : List Char → ℚ → Prop
  | intro (negative : Bool) {whole fraction : List Char} (hwhole : whole ≠ [])
    (hdigits : ∀ c ∈ whole ++ fraction, c.isDigit = true) (hplaces : fraction.length = places) :
    Denotes places (signChars negative ++ (whole ++ pointed fraction))
      (signed negative
        (Nat.ofDigitChars 10 whole 0 + Nat.ofDigitChars 10 fraction 0 / 10 ^ places))

variable {places units : ℕ} {s whole fraction : List Char} {p q : ℚ}

/-! ### Reading -/

/-- The digits in front of the point end at the point. -/
theorem takeWhile_isDigit_pointed (hwhole : ∀ c ∈ whole, c.isDigit = true) :
    (whole ++ pointed fraction).takeWhile Char.isDigit = whole := by
  rw [List.takeWhile_append_of_pos hwhole]
  cases fraction with
  | nil => exact List.append_nil whole
  | cons d fraction =>
    rw [pointed, List.takeWhile_cons_of_neg (by decide), List.append_nil]

/-- Where there are digits behind the point there is a point. -/
theorem pointed_of_ne_nil (h : fraction ≠ []) : pointed fraction = '.' :: fraction := by
  cases fraction with
  | nil => exact absurd rfl h
  | cons d fraction => rfl

theorem mem_pointed {c : Char} :
    c ∈ pointed fraction ↔ (c = '.' ∧ fraction ≠ []) ∨ c ∈ fraction := by
  cases fraction with
  | nil => simp [pointed]
  | cons d fraction => simp [pointed]

/-- The digits behind the point can be read off what is written. -/
theorem pointed_injective : Function.Injective pointed := by
  intro f g h
  cases f <;> cases g
  · rfl
  · cases h
  · cases h
  · exact (List.cons.inj h).2

/-- Digits do not begin with a minus sign, so it shows whether there is one in front. -/
theorem head?_eq_minus_iff {negative : Bool} (hwhole : whole ≠ [])
    (hdigits : ∀ c ∈ whole, c.isDigit = true) (rest : List Char) :
    (signChars negative ++ (whole ++ rest)).head? = some '-' ↔ negative = true := by
  cases negative with
  | true => exact iff_of_true rfl rfl
  | false =>
    refine iff_of_false (fun h => ?_) Bool.false_ne_true
    have hhead : (whole ++ rest).head? = some '-' := h
    rw [List.head?_append_of_ne_nil _ hwhole] at hhead
    cases hdigits _ (List.mem_of_mem_head? hhead)

/-- **A text stands for one number only.** -/
theorem Denotes.unique (hp : Denotes places s p) (hq : Denotes places s q) : p = q := by
  obtain ⟨negative, hwhole, hdigits, -⟩ := hp
  rename_i whole fraction
  generalize htext : signChars negative ++ (whole ++ pointed fraction) = s at hq
  obtain ⟨other, hwhole', hdigits', -⟩ := hq
  rename_i whole' fraction'
  have hfirst := (List.forall_mem_append.mp hdigits).1
  have hfirst' := (List.forall_mem_append.mp hdigits').1
  -- sign, whole digits and fraction are read off the text one after the other
  have hsign : negative = other := by
    rw [Bool.eq_iff_iff, ← head?_eq_minus_iff hwhole hfirst (pointed fraction), htext,
      head?_eq_minus_iff hwhole' hfirst']
  subst hsign
  have hrest := List.append_cancel_left htext
  have hsame : whole = whole' := by
    rw [← takeWhile_isDigit_pointed hfirst, hrest, takeWhile_isDigit_pointed hfirst']
  subst hsame
  rw [pointed_injective (List.append_cancel_left hrest)]

/-! ### Writing -/

/-- The digits behind the point. -/
def fractionDigits (places units : ℕ) : List Char :=
  if places = 0 then []
  else
    let digits := Nat.toDigits 10 (units % 10 ^ places)
    List.replicate (places - digits.length) '0' ++ digits

/-- There are as many digits behind the point as places. -/
theorem length_fractionDigits (places units : ℕ) :
    (fractionDigits places units).length = places := by
  rw [fractionDigits]
  split
  · rename_i hzero
    exact hzero.symm
  · rename_i hplaces
    -- the rest is less than the power of ten, so its digits fit the places
    have hfits : (Nat.toDigits 10 (units % 10 ^ places)).length ≤ places :=
      (Nat.length_toDigits_le_iff (by decide) (Nat.pos_of_ne_zero hplaces)).mpr
        (Nat.mod_lt _ (Nat.pow_pos (by decide)))
    rw [List.length_append, List.length_replicate, Nat.sub_add_cancel hfits]

/-- Units of the last place are written as whole digits and a fraction. -/
theorem toList_placed (places units : ℕ) : (placed places units).toList =
    Nat.toDigits 10 (units / 10 ^ places) ++ pointed (fractionDigits places units) := by
  have hlength := length_fractionDigits places units
  rw [fractionDigits] at hlength ⊢
  rw [placed]
  by_cases hplaces : places = 0
  · rw [if_pos hplaces, if_pos hplaces, natural, String.toList_ofList]
    exact (List.append_nil _).symm
  · rw [if_neg hplaces] at hlength ⊢
    rw [if_neg hplaces, pointed_of_ne_nil (List.ne_nil_of_length_pos (by omega))]
    simp [natural, zeros]

/-- Behind the point there are digits only. -/
theorem isDigit_of_mem_fractionDigits {c : Char} (h : c ∈ fractionDigits places units) :
    c.isDigit = true := by
  rw [fractionDigits] at h
  split at h
  · cases h
  · rcases List.mem_append.mp h with hzero | hdigit
    · rw [List.eq_of_mem_replicate hzero]
      rfl
    · exact isDigit_of_mem_toDigits hdigit

/-- Zeros are worth nothing. -/
theorem ofDigitChars_zeros (n : ℕ) : Nat.ofDigitChars 10 (List.replicate n '0') 0 = 0 := by
  induction n with
  | zero => rfl
  | succ n ih => exact ih

/-- Zeros in front do not change what the digits behind the point are worth. -/
theorem ofDigitChars_fractionDigits (places units : ℕ) :
    Nat.ofDigitChars 10 (fractionDigits places units) 0 = units % 10 ^ places := by
  rw [fractionDigits]
  split
  · rename_i hzero
    rw [hzero, pow_zero, Nat.mod_one]
    rfl
  · rw [Nat.ofDigitChars_append, ofDigitChars_zeros, Nat.ofDigitChars_ten_toDigits]

theorem pow_ten_pos (places : ℕ) : (0 : ℚ) < 10 ^ places := pow_pos (by norm_num) places

/-- The whole units and the rest of them. -/
theorem whole_add_fraction (places units : ℕ) :
    ((units / 10 ^ places : ℕ) : ℚ) + (units % 10 ^ places : ℕ) / 10 ^ places =
      units / 10 ^ places := by
  have hpower := pow_ten_pos places
  have hsplit : (10 : ℚ) ^ places * (units / 10 ^ places : ℕ) + (units % 10 ^ places : ℕ) = units :=
    by exact_mod_cast Nat.div_add_mod units (10 ^ places)
  field_simp
  linarith

/-- **A number of units of the last place is written as what it is.** -/
theorem denotes_placed (negative : Bool) (places units : ℕ) :
    Denotes places (signChars negative ++ (placed places units).toList)
      (signed negative (units / 10 ^ places)) := by
  have hvalue : (units / 10 ^ places : ℚ) =
      Nat.ofDigitChars 10 (Nat.toDigits 10 (units / 10 ^ places)) 0 +
        Nat.ofDigitChars 10 (fractionDigits places units) 0 / 10 ^ places := by
    rw [ofDigitChars_fractionDigits, Nat.ofDigitChars_ten_toDigits, whole_add_fraction]
  rw [toList_placed, hvalue]
  refine .intro negative Nat.toDigits_ne_nil ?_ (length_fractionDigits places units)
  exact List.forall_mem_append.mpr
    ⟨fun _ => isDigit_of_mem_toDigits, fun _ => isDigit_of_mem_fractionDigits⟩

/-! ### Rounding -/

/-- How many units of the last place are written, with a sign. -/
def signedUnits (negative : Bool) (units : ℕ) : ℤ := if negative then -units else units

/-- **The units that are written are the nearest to the exact value.** -/
theorem nearest_fixedUnits (places : ℕ) (negative : Bool) (m : ℕ) (e : ℤ) :
    Nearest (1 / 10 ^ places) (signed negative (m * 2 ^ e))
      (signedUnits negative (fixedUnits places m e)) := by
  have hpower := pow_ten_pos places
  -- the exact value is a fraction of the numerator and the denominator that are divided
  have hvalue : ((binaryNumerator m e * Nat.pow 10 places : ℕ) : ℚ) / binaryDenominator e *
      (1 / 10 ^ places) = m * 2 ^ e := by
    have hcast : ((Nat.pow 10 places : ℕ) : ℚ) = 10 ^ places := Nat.cast_pow 10 places
    rw [← binaryNumerator_div, Nat.cast_mul, hcast]
    field_simp
  have hnearest := nearest_roundDiv (one_div_pos.mpr hpower)
    (binaryNumerator m e * Nat.pow 10 places) (binaryDenominator_pos e)
  rw [hvalue] at hnearest
  cases negative with
  | false => exact hnearest
  | true => exact hnearest.neg

/-- A sign is written where the units are below zero. -/
theorem sign_iff (negative : Bool) (places units : ℕ) :
    (negative && units != 0) = true ↔ (signedUnits negative units : ℚ) / 10 ^ places < 0 := by
  rw [div_lt_iff₀ (pow_ten_pos places), zero_mul, Int.cast_lt_zero, signedUnits]
  cases negative with
  | false => simp
  | true => simp [Nat.pos_iff_ne_zero]

/-- What has no units needs no sign. -/
theorem signed_div (negative : Bool) (places units : ℕ) :
    signed (negative && units != 0) (units / 10 ^ places) =
      (signedUnits negative units : ℚ) / 10 ^ places := by
  cases negative with
  | false => rfl
  | true =>
    cases units with
    | zero => simp [signed, signedUnits]
    | succ n =>
      show -(((n + 1 : ℕ) : ℚ) / 10 ^ places) = ((-(n + 1 : ℕ) : ℤ) : ℚ) / 10 ^ places
      rw [← neg_div, Int.cast_neg, Int.cast_natCast]

/-- The text of a finite double has its sign where there are any units. -/
theorem toList_fixed {v : Float} {negative : Bool} {m : ℕ} {e : ℤ}
    (h : Binary64.ofFloat v = .finite negative m e) (places : ℕ) :
    (fixed v places).toList =
      signChars (negative && fixedUnits places m e != 0) ++
        (placed places (fixedUnits places m e)).toList := by
  rw [fixed, h]
  dsimp only
  rw [String.toList_append, signChars]
  split <;> rfl

/-- **A finite double is written as the multiple of the last place that is nearest to it**,
with a minus sign just where that is below zero. -/
theorem fixed_rounds {v : Float} (hv : v.isFinite = true) (places : ℕ) :
    ∃ x k, rational? v = some x ∧ Nearest (1 / 10 ^ places) x k ∧
      Denotes places (fixed v places).toList (k / 10 ^ places) ∧
      ((fixed v places).toList.head? = some '-' ↔ (k : ℚ) / 10 ^ places < 0) := by
  obtain ⟨negative, m, e, hvalue, hexact⟩ := exists_finite hv
  refine ⟨_, signedUnits negative (fixedUnits places m e), hexact,
    nearest_fixedUnits places negative m e, ?_, ?_⟩
  · rw [toList_fixed hvalue, ← signed_div]
    exact denotes_placed _ places _
  · rw [toList_fixed hvalue, toList_placed, ← sign_iff]
    exact head?_eq_minus_iff Nat.toDigits_ne_nil (fun _ => isDigit_of_mem_toDigits) _

/-! ### Signs -/

/-- A double with a number of decimal places and the sign that it has, also in front of
nothing but zeros. -/
def printed (x : Float) (places : ℕ) : String :=
  match Binary64.ofFloat x with
  | .nan => "NaN"
  | .infinite negative => if negative then "-inf" else "inf"
  | .finite negative mantissa exponent =>
    (if negative then "-" else "") ++ placed places (fixedUnits places mantissa exponent)

/-- Whether a character shows nothing but zero. -/
def isIdle (c : Char) : Bool := c = '0' || c = '.'

/-- A text without a minus sign in front of nothing but zeros. -/
def withoutIdleSign : List Char → List Char
  | '-' :: rest => if rest.all isIdle then rest else '-' :: rest
  | text => text

/-- Digits that show nothing but zero are worth nothing. -/
theorem ofDigitChars_of_idle (hdigits : ∀ c ∈ s, c.isDigit = true)
    (hidle : ∀ c ∈ s, isIdle c = true) : Nat.ofDigitChars 10 s 0 = 0 := by
  have hzeros : ∀ c ∈ s, c = '0' := by
    intro c hc
    rcases Bool.or_eq_true_iff.mp (hidle c hc) with hzero | hpoint
    · exact of_decide_eq_true hzero
    · obtain rfl := of_decide_eq_true hpoint
      cases hdigits '.' hc
  rw [List.eq_replicate_of_mem hzeros, ofDigitChars_zeros]

/-- No units leave zeros behind the point. -/
theorem isIdle_of_mem_fractionDigits {c : Char} (h : c ∈ fractionDigits places 0) :
    isIdle c = true := by
  rw [fractionDigits, Nat.zero_mod] at h
  split at h
  · cases h
  · rcases List.mem_append.mp h with hzero | hdigit
    · obtain rfl := List.eq_of_mem_replicate hzero
      rfl
    · obtain rfl := List.mem_singleton.mp hdigit
      rfl

/-- Nothing but zeros is written just for no units. -/
theorem all_isIdle_placed_iff : (placed places units).toList.all isIdle = true ↔ units = 0 := by
  rw [toList_placed, List.all_eq_true]
  constructor
  · intro hidle
    have hwhole : units / 10 ^ places = 0 := by
      rw [← @Nat.ofDigitChars_ten_toDigits (units / 10 ^ places)]
      exact ofDigitChars_of_idle (fun _ => isDigit_of_mem_toDigits)
        fun c hc => hidle c (List.mem_append_left _ hc)
    have hfraction : units % 10 ^ places = 0 := by
      rw [← ofDigitChars_fractionDigits]
      exact ofDigitChars_of_idle (fun _ => isDigit_of_mem_fractionDigits)
        fun c hc => hidle c (List.mem_append_right _ (mem_pointed.mpr (.inr hc)))
    rw [← Nat.div_add_mod units (10 ^ places), hwhole, hfraction, Nat.mul_zero]
  · rintro rfl c hc
    rw [Nat.zero_div] at hc
    rcases List.mem_append.mp hc with hwhole | hpointed
    · obtain rfl := List.mem_singleton.mp hwhole
      rfl
    · rcases mem_pointed.mp hpointed with ⟨rfl, -⟩ | hfraction
      · rfl
      · exact isIdle_of_mem_fractionDigits hfraction

/-- Without a minus sign there is none to take away. -/
theorem withoutIdleSign_of_head? (h : s.head? ≠ some '-') : withoutIdleSign s = s := by
  rw [withoutIdleSign]
  rintro rest rfl
  exact h rfl

/-- **A text with fixed places is what is printed without an idle sign.** -/
theorem toList_fixed_eq (x : Float) (places : ℕ) :
    (fixed x places).toList = withoutIdleSign (printed x places).toList := by
  cases hx : Binary64.ofFloat x with
  | nan =>
    simp only [fixed, printed, hx]
    decide
  | infinite negative =>
    simp only [fixed, printed, hx]
    cases negative <;> decide
  | finite negative m e =>
    rw [toList_fixed hx]
    simp only [printed, hx]
    generalize fixedUnits places m e = units
    cases negative with
    -- without a sign in front no minus can begin the text
    | false =>
      have hhead : (placed places units).toList.head? ≠ some '-' := by
        intro hminus
        rw [toList_placed] at hminus
        exact Bool.false_ne_true
          ((head?_eq_minus_iff Nat.toDigits_ne_nil (fun _ => isDigit_of_mem_toDigits) _).mp hminus)
      exact (withoutIdleSign_of_head? hhead).symm
    | true =>
      rw [if_pos rfl, String.toList_append]
      show _ = if (placed places units).toList.all isIdle = true then _ else _
      -- a sign is idle just where there are no units
      by_cases hunits : units = 0
      · rw [if_pos (all_isIdle_placed_iff.mpr hunits), hunits]
        rfl
      · rw [if_neg (mt all_isIdle_placed_iff.mp hunits), bne_iff_ne.mpr hunits]
        rfl

/-! ### Correct rounding -/

/-- **Texts with fixed places are correctly rounded.** For each finite double the text has a
minus sign or none, digits, and a point with as many digits behind it as there are places, and
it stands for the multiple of the last place that is nearest to the exact value, of two that
are as near for the even one. It has a minus sign just where that is below zero. Of two finite
doubles the larger one never has a text for a smaller number. -/
theorem fixed_correctly_rounded (places : ℕ) :
    (∀ v : Float, v.isFinite = true → ∃ x k, rational? v = some x ∧ Nearest (1 / 10 ^ places) x k ∧
      Denotes places (fixed v places).toList (k / 10 ^ places) ∧
      ((fixed v places).toList.head? = some '-' ↔ (k : ℚ) / 10 ^ places < 0)) ∧
    ∀ v w : Float, v.isFinite = true → w.isFinite = true → v ≤ w → ∀ p q,
      Denotes places (fixed v places).toList p → Denotes places (fixed w places).toList q →
        p ≤ q := by
  refine ⟨fun v hv => fixed_rounds hv places, ?_⟩
  intro v w hv hw h p q hp hq
  obtain ⟨x, k, hx, hk, hdenotes, -⟩ := fixed_rounds hv places
  obtain ⟨y, l, hy, hl, hdenotes', -⟩ := fixed_rounds hw places
  obtain rfl := hp.unique hdenotes
  obtain rfl := hq.unique hdenotes'
  -- rounding to the nearest multiple keeps the order of the exact values
  have hunits : k ≤ l :=
    hk.le_of_le (one_div_pos.mpr (pow_ten_pos places)) hl ((le_iff_rational hx hy).mp h)
  exact div_le_div_of_nonneg_right (Int.cast_le.mpr hunits) (pow_ten_pos places).le

/-- Both a negative half and two and a half go to the even whole number. -/
theorem fixed_correctly_rounded_halves :
    fixed (-0.5) 0 = "0" ∧ fixed 2.5 0 = "2" ∧
      (∃ x k, rational? 2.5 = some x ∧ Nearest (1 / 10 ^ 0) x k ∧
        Denotes 0 (fixed 2.5 0).toList (k / 10 ^ 0) ∧
        ((fixed 2.5 0).toList.head? = some '-' ↔ (k : ℚ) / 10 ^ 0 < 0)) ∧
      ∀ p q, Denotes 0 (fixed (-0.5) 0).toList p → Denotes 0 (fixed 2.5 0).toList q → p ≤ q := by
  obtain ⟨hrounds, hmono⟩ := fixed_correctly_rounded 0
  refine ⟨by decide +kernel, by decide +kernel, hrounds 2.5 (by decide +kernel), ?_⟩
  exact hmono (-0.5) 2.5 (by decide +kernel) (by decide +kernel) (by decide +kernel)

end RobotMotion.Decimal
