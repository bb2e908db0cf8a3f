import RobotMotion.Json.Printer
import RobotMotion.Proofs.Decimal.Equality
import RobotMotion.Proofs.Json.Numbers

/-!
# Doubles in JSON texts

Every finite double is written as one number of the JSON grammar
(`Token.exists_next?_saved`), whichever digits are the shortest for it. What matters is that
the shortest digits of a positive double never begin with a zero
(`Decimal.coefficient_shortest_pos`): a number with a zero in front would end after it.
-/

namespace RobotMotion

namespace Decimal

variable {b : Basin} {k : Int} {n mantissa : Nat}

/-- Rounding never goes below the quotient rounded down. -/
theorem div_le_roundDiv (tie : Tie) (num den : Nat) : num / den ≤ roundDiv tie num den := by
  simp only [roundDiv]
  split
  · exact le_rfl
  · split
    · exact Nat.le_succ _
    · cases tie
      · dsimp only
        split
        · exact le_rfl
        · exact Nat.le_succ _
      · exact Nat.le_succ _

namespace Basin

/-- The least number that reads back as a positive double is positive. -/
theorem ofBinary_below_pos (hmantissa : 0 < mantissa) (exponent : Int) :
    0 < (ofBinary mantissa exponent).below := by
  refine Nat.mul_pos ?_ (Nat.two_pow_pos _)
  split <;> omega

/-- Zero is below every number that reads back as a positive double. -/
theorem pos_of_holds (hbelow : 0 < b.below) (h : b.holds k n = true) : 0 < n := by
  by_contra hzero
  obtain rfl : n = 0 := by omega
  have hlow : 0 < b.below * Nat.pow 10 (-k).toNat :=
    Nat.mul_pos hbelow (Nat.pow_pos (by decide))
  simp only [holds, Nat.zero_mul] at h
  split at h
  · have := (of_decide_eq_true h).1
    omega
  · exact absurd (of_decide_eq_true h).1 (Nat.not_lt_zero _)

/-- So the nearest number on a grid is positive if any is near enough. -/
theorem pos_of_nearestOnGrid? {tie : Tie} (hbelow : 0 < b.below)
    (h : b.nearestOnGrid? tie k = some n) : 0 < n := by
  rw [nearestOnGrid?] at h
  split at h
  · rename_i hlow _
    obtain rfl := Option.some.inj h
    exact (pos_of_holds hbelow hlow).trans_le (div_le_roundDiv ..)
  · rename_i hlow _
    obtain rfl := Option.some.inj h
    exact pos_of_holds hbelow hlow
  · obtain rfl := Option.some.inj h
    exact Nat.succ_pos _
  · cases h

end Basin

/-- **The shortest digits of a positive double are not zero.** -/
theorem coefficient_shortest_pos (tie : Tie) (hmantissa : 0 < mantissa) (exponent : Int) :
    0 < (shortest tie mantissa exponent).coefficient := by
  have hbelow := Basin.ofBinary_below_pos hmantissa exponent
  rw [shortest]
  -- either a grid had a number near enough, or the exact value is written
  cases hsome : (List.range 18).findSome? _ with
  | none => exact Nat.mul_pos hmantissa (Nat.two_pow_pos _)
  | some d =>
    obtain ⟨i, -, hgrid⟩ := List.exists_of_findSome?_eq_some hsome
    obtain ⟨n, hn, rfl⟩ := Option.map_eq_some_iff.mp hgrid
    exact Basin.pos_of_nearestOnGrid? hbelow hn

end Decimal

namespace Json.Token

variable {rest ds : List Char}

/-- At least one digit, and nothing else. -/
def IsDigits (ds : List Char) : Prop := ds ≠ [] ∧ ∀ c ∈ ds, c.isDigit = true

/-- A natural number is written in digits. -/
theorem isDigits_toDigits (n : Nat) : IsDigits (Nat.toDigits 10 n) :=
  ⟨Nat.toDigits_ne_nil, fun _ hc => Nat.isDigit_of_mem_toDigits (by decide) (by decide) hc⟩

theorem isDigit_of_mem_zeros {n : Nat} {c : Char} (hc : c ∈ List.replicate n '0') :
    c.isDigit = true := by
  rw [List.eq_of_mem_replicate hc]
  rfl

/-- Zeros behind digits leave digits. -/
theorem IsDigits.append_zeros (h : IsDigits ds) (n : Nat) :
    IsDigits (ds ++ List.replicate n '0') :=
  ⟨List.append_ne_nil_of_left_ne_nil h.1 _,
    fun c hc => (List.mem_append.mp hc).elim (h.2 c) isDigit_of_mem_zeros⟩

/-- So do zeros in front. -/
theorem IsDigits.zeros_append (h : IsDigits ds) (n : Nat) :
    IsDigits (List.replicate n '0' ++ ds) :=
  ⟨List.append_ne_nil_of_right_ne_nil _ h.1,
    fun c hc => (List.mem_append.mp hc).elim isDigit_of_mem_zeros (h.2 c)⟩

/-- Digits are read as far as they go. -/
theorem spanDigits_of_isDigits (h : IsDigits ds) (hrest : ∀ c ∈ rest.head?, c.isDigit = false) :
    spanDigits (ds ++ rest) = (ds, rest) := by
  rw [spanDigits_append hrest, spanDigits_of_isDigit h.2, List.nil_append]

/-! ### The parts of a number -/

/-- Digits in front of a point: a zero alone, or digits that do not begin with one. -/
def IsWholePart (ds : List Char) : Prop :=
  IsDigits ds ∧ (ds = ['0'] ∨ ∀ tail, ds ≠ '0' :: tail)

/-- Nothing, or a point with digits behind it. -/
def IsFraction (s : List Char) : Prop := s = [] ∨ ∃ ds, s = '.' :: ds ∧ IsDigits ds

/-- Nothing, or a signed power of ten. -/
def IsExponent (s : List Char) : Prop :=
  s = [] ∨ ∃ sign ds, s = 'e' :: sign :: ds ∧ (sign = '-' ∨ sign = '+') ∧ IsDigits ds

/-- The text of a number without its sign. -/
def IsUnsigned (s : List Char) : Prop :=
  ∃ whole fraction exponent, s = whole ++ (fraction ++ exponent) ∧
    IsWholePart whole ∧ IsFraction fraction ∧ IsExponent exponent

/-- The digits in front of the point are read as a whole. -/
theorem scanWhole_of_isWholePart (h : IsWholePart ds)
    (hrest : ∀ c ∈ rest.head?, c.isDigit = false) : scanWhole (ds ++ rest) = some (ds, rest) := by
  obtain ⟨hdigits, rfl | hfirst⟩ := h
  · rfl
  · rw [scanWhole, spanDigits_of_isDigits hdigits hrest]
    · simp [hdigits.1]
    · intro tail heq
      cases ds with
      | nil => exact hdigits.1 rfl
      | cons c ds => exact hfirst ds (by rw [(List.cons.inj heq).1])

/-- What may follow the digits of a number is no digit. -/
theorem head?_of_isExponent {s : List Char} (h : IsExponent s) :
    ∀ c ∈ s.head?, c.isDigit = false ∧ c ≠ '.' := by
  intro c hc
  rcases h with rfl | ⟨sign, ds, rfl, -, -⟩
  · cases hc
  · obtain rfl := Option.some.inj hc
    decide

/-- What follows the digits in front of the point is no digit either. -/
theorem head?_of_isFraction {s t : List Char} (hs : IsFraction s) (ht : IsExponent t) :
    ∀ c ∈ (s ++ t).head?, c.isDigit = false := by
  intro c hc
  rcases hs with rfl | ⟨ds, rfl, -⟩
  · exact (head?_of_isExponent ht c hc).1
  · obtain rfl := Option.some.inj hc
    decide

/-- A fraction is read to its end. -/
theorem exists_scanFraction {s t : List Char} (hs : IsFraction s) (ht : IsExponent t) :
    ∃ digits, scanFraction (s ++ t) = some (digits, t) := by
  rcases hs with rfl | ⟨ds, rfl, hdigits⟩
  · refine ⟨[], ?_⟩
    rw [List.nil_append, scanFraction]
    rintro tail rfl
    exact (head?_of_isExponent ht '.' rfl).2 rfl
  · refine ⟨ds, ?_⟩
    rw [List.cons_append, scanFraction,
      spanDigits_of_isDigits hdigits fun c hc => (head?_of_isExponent ht c hc).1]
    simp [hdigits.1]

/-- So is a power of ten. -/
theorem exists_scanExponent {s : List Char} (h : IsExponent s) :
    ∃ power, scanExponent s = some (power, []) := by
  rcases h with rfl | ⟨sign, ds, rfl, hsign, hdigits⟩
  · exact ⟨none, rfl⟩
  · have hspan : spanDigits ds = (ds, []) := spanDigits_of_isDigit hdigits.2
    -- both signs are read alike
    rcases hsign with rfl | rfl
    · simp [scanExponent, hspan, hdigits.1]
    · simp [scanExponent, hspan, hdigits.1]

/-- **The text of a number is scanned to its end.** -/
theorem exists_scanUnsigned {s : List Char} (h : IsUnsigned s) (negative : Bool) :
    ∃ j, scanUnsigned negative s = some (j, []) := by
  obtain ⟨whole, fraction, exponent, rfl, hwhole, hfraction, hexponent⟩ := h
  obtain ⟨digits, hdigits⟩ := exists_scanFraction hfraction hexponent
  obtain ⟨power, hpower⟩ := exists_scanExponent hexponent
  rw [scanUnsigned, scanWhole_of_isWholePart hwhole (head?_of_isFraction hfraction hexponent)]
  simp only [Option.bind_eq_bind, Option.bind_some, hdigits, hpower, pure]
  exact ⟨_, rfl⟩

/-! ### The texts of doubles -/

/-- A positive number does not begin with a zero, nor does it with more zeros behind. -/
theorem isWholePart_toDigits {n : Nat} (hn : 0 < n) (zeros : Nat) :
    IsWholePart (Nat.toDigits 10 n ++ List.replicate zeros '0') := by
  refine ⟨(isDigits_toDigits n).append_zeros zeros, .inr fun tail heq => ?_⟩
  cases hdigits : Nat.toDigits 10 n with
  | nil => exact Nat.toDigits_ne_nil hdigits
  | cons c ds =>
    rw [hdigits, List.cons_append] at heq
    exact toDigits_ne_zero_cons hn ds (by rw [hdigits, (List.cons.inj heq).1])

/-- Its first digits do not either. -/
theorem isWholePart_take_toDigits {n places : Nat} (hn : 0 < n) (hplaces : 0 < places) :
    IsWholePart ((Nat.toDigits 10 n).take places) := by
  cases hdigits : Nat.toDigits 10 n with
  | nil => exact absurd hdigits Nat.toDigits_ne_nil
  | cons c ds =>
    obtain ⟨more, rfl⟩ := Nat.exists_eq_add_of_lt hplaces
    have hall := (isDigits_toDigits n).2
    rw [hdigits] at hall
    refine ⟨⟨by simp, fun d hd => hall d (List.mem_of_mem_take hd)⟩, .inr fun tail heq => ?_⟩
    rw [Nat.zero_add, List.take_succ_cons] at heq
    exact toDigits_ne_zero_cons hn ds (by rw [hdigits, (List.cons.inj heq).1])

/-- The digits that are left over are some. -/
theorem isDigits_drop_toDigits {n places : Nat} (h : places < (Nat.toDigits 10 n).length) :
    IsDigits ((Nat.toDigits 10 n).drop places) :=
  ⟨fun hnil => by simp at hnil; omega,
    fun c hc => (isDigits_toDigits n).2 c (List.mem_of_mem_drop hc)⟩

/-- Digits written positionally are a number. -/
theorem isUnsigned_positional {d : Decimal.Digits} (hd : 0 < d.coefficient) :
    IsUnsigned (d.positional true).toList := by
  rw [Decimal.Digits.positional]
  -- the point stands behind all digits, among them or in front of them
  cases d.exponent with
  | ofNat zeros =>
    refine ⟨_, ['.', '0'], [], ?_, isWholePart_toDigits hd zeros,
      .inr ⟨['0'], rfl, isDigits_toDigits 0⟩, .inl rfl⟩
    simp [Decimal.zeros]
  | negSucc places =>
    dsimp only
    split
    · rename_i hplaces
      refine ⟨_, _, [], ?_, isWholePart_take_toDigits hd (Nat.sub_pos_of_lt hplaces),
        .inr ⟨_, rfl, isDigits_drop_toDigits (Nat.sub_lt_self (Nat.succ_pos places) hplaces.le)⟩,
        .inl rfl⟩
      simp
    · have hdigits := (isDigits_toDigits d.coefficient).zeros_append
        (places + 1 - (Nat.toDigits 10 d.coefficient).length)
      refine ⟨['0'], _, [], ?_, ⟨isDigits_toDigits 0, .inl rfl⟩, .inr ⟨_, rfl, hdigits⟩, .inl rfl⟩
      simp [Decimal.zeros]

/-- A power of ten is written with its sign. -/
theorem isExponent_power (power : Int) :
    IsExponent ('e' :: (if power < 0 then '-' else '+') :: Nat.toDigits 10 power.natAbs) := by
  refine .inr ⟨_, _, rfl, ?_, isDigits_toDigits _⟩
  split
  · exact .inl rfl
  · exact .inr rfl

/-- Digits written with a power of ten are a number. -/
theorem isUnsigned_scientific {d : Decimal.Digits} (hd : 0 < d.coefficient) :
    IsUnsigned d.scientific.toList := by
  have hwhole := isWholePart_take_toDigits hd Nat.one_pos
  have hexponent :=
    isExponent_power (d.exponent + (Nat.toDigits 10 d.coefficient).length - 1)
  have hsign (power : Int) :
      (if power < 0 then "-" else "+").toList = [if power < 0 then '-' else '+'] := by
    split <;> rfl
  rw [Decimal.Digits.scientific]
  split
  · refine ⟨_, [], _, ?_, hwhole, .inl rfl, hexponent⟩
    simp only [Decimal.natural, String.toList_append, String.toList_ofList, hsign]
    simp
  · rename_i hmore
    have hdrop := isDigits_drop_toDigits (Nat.lt_of_not_le hmore)
    refine ⟨_, _, _, ?_, hwhole, .inr ⟨_, rfl, hdrop⟩, hexponent⟩
    simp only [Decimal.natural, String.toList_append, String.toList_ofList, hsign]
    simp

/-- The first character of a number is a digit. -/
theorem next?_of_isUnsigned {s : List Char} (h : IsUnsigned s) :
    next? s = (scanUnsigned false s).map fun (j, rest) => (.scalar j, rest) := by
  obtain ⟨whole, fraction, exponent, rfl, ⟨⟨hsome, hdigits⟩, -⟩, -, -⟩ := h
  cases whole with
  | nil => exact absurd rfl hsome
  | cons c tail => exact next?_of_isDigit (hdigits c List.mem_cons_self) _

/-- A number, perhaps with a minus sign in front, is one token. -/
theorem exists_next?_of_isUnsigned {s : List Char} (h : IsUnsigned s) (negative : Bool) :
    ∃ j, next? ((if negative then ['-'] else []) ++ s) = some (.scalar j, []) := by
  obtain ⟨j, hj⟩ := exists_scanUnsigned h negative
  refine ⟨j, ?_⟩
  cases negative with
  | true =>
    show (scanUnsigned true s).map _ = _
    rw [hj]
    rfl
  | false =>
    show next? s = _
    rw [next?_of_isUnsigned h, hj]
    rfl

/-- **A finite double is written as one number.** -/
theorem exists_next?_saved {x : Float} (hfinite : x.isFinite = true) :
    ∃ j, next? (Decimal.saved x).toList = some (.scalar j, []) := by
  have hunpacked : x.toModel.unpack.isFinite = true := hfinite
  rw [Decimal.saved, Decimal.Binary64.ofFloat_eq]
  -- a finite double is zero or has a positive mantissa
  cases hx : x.toModel.unpack with
  | notANumber =>
    rw [hx] at hunpacked
    cases hunpacked
  | infinity sign =>
    rw [hx] at hunpacked
    cases hunpacked
  | zero sign => cases sign <;> exact ⟨_, rfl⟩
  | finite sign mantissa exponent hmantissa =>
    obtain ⟨m, rfl⟩ := Nat.exists_eq_succ_of_ne_zero hmantissa.ne'
    have hcoefficient := Decimal.coefficient_shortest_pos .even hmantissa exponent
    have hsign (negative : Bool) :
        (if negative then "-" else "").toList = if negative then ['-'] else [] := by
      cases negative <;> rfl
    show ∃ j, next? (String.toList (_ ++ ite _ _ _)) = _
    rw [String.toList_append, hsign]
    refine exists_next?_of_isUnsigned ?_ _
    split
    · exact isUnsigned_positional hcoefficient
    · exact isUnsigned_scientific hcoefficient

/-- A whole number of any size is one token. -/
theorem exists_next?_integer (n : Int) :
    ∃ j, next? (Decimal.integer n).toList = some (.scalar j, []) := by
  have hdigits : IsUnsigned (Nat.toDigits 10 n.natAbs) := by
    refine ⟨_, [], [], (List.append_nil _).symm, ⟨isDigits_toDigits _, ?_⟩, .inl rfl, .inl rfl⟩
    rcases Nat.eq_zero_or_pos n.natAbs with hzero | hpos
    · exact .inl (by rw [hzero]; rfl)
    · exact .inr (toDigits_ne_zero_cons hpos)
  have hsign : (if n < 0 then "-" else "").toList = if decide (n < 0) then ['-'] else [] := by
    by_cases hn : n < 0 <;> simp [hn]
  rw [Decimal.integer, Decimal.natural, String.toList_append, hsign, String.toList_ofList]
  exact exists_next?_of_isUnsigned hdigits _

end Json.Token

end RobotMotion
