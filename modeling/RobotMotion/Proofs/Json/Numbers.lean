import RobotMotion.Decimal.Layout
import RobotMotion.Json.Token
import Mathlib.Data.List.Basic
import Mathlib.Data.List.TakeWhile
import Mathlib.Tactic.IntervalCases

/-!
# Numbers in JSON texts

The scanner of numbers stops at the first character that cannot go on with a number
(`Token.EndsNumber`), so a text that is a number by itself is read as that number in front of
anything that ends it (`Token.next?_append`). A whole number of at most 64 bits is one token
that stands for itself (`Token.next?_integer`). Whether a double reads back from its text is
a matter of that text alone (`ReadsBack`).
-/

namespace RobotMotion.Json

namespace Token

/-- Whether a number ends in front of a text: nothing there would go on with it. -/
def EndsNumber (rest : List Char) : Prop :=
  ∀ c ∈ rest.head?, c.isDigit = false ∧ c ≠ '.' ∧ c ≠ 'e' ∧ c ≠ 'E'

theorem endsNumber_nil : EndsNumber [] := by
  intro c hc
  cases hc

/-- A number ends in front of a character that does not go on with it. -/
theorem endsNumber_cons {c : Char} {rest : List Char}
    (h : c.isDigit = false ∧ c ≠ '.' ∧ c ≠ 'e' ∧ c ≠ 'E') : EndsNumber (c :: rest) := by
  intro d hd
  obtain rfl := Option.some.inj hd
  exact h

variable {s t w rest digits : List Char}

/-- What ends a number is no digit. -/
theorem EndsNumber.not_isDigit (hrest : EndsNumber rest) :
    ∀ c ∈ rest.head?, c.isDigit = false := fun c hc => (hrest c hc).1

/-! ### What stops a scanner -/

/-- Digits are read to where they end, whatever follows. -/
theorem spanDigits_append (hrest : ∀ c ∈ rest.head?, c.isDigit = false) (s : List Char) :
    spanDigits (s ++ rest) = ((spanDigits s).1, (spanDigits s).2 ++ rest) := by
  induction s with
  | nil =>
    cases rest with
    | nil => rfl
    | cons c tail =>
      have hc := hrest c rfl
      simp [spanDigits, hc]
  | cons c s ih =>
    simp only [spanDigits, Prod.mk.injEq] at ih
    cases hc : c.isDigit with
    | false => simp [spanDigits, hc]
    | true => simp [spanDigits, hc, ih.1, ih.2]

/-- The digits in front of the point stop where a number ends. -/
theorem scanWhole_append (h : scanWhole s = some (digits, t)) (hrest : EndsNumber rest) :
    scanWhole (s ++ rest) = some (digits, t ++ rest) := by
  -- a leading zero stands alone, so it is a case of its own
  by_cases hzero : ∃ tail, s = '0' :: tail
  · obtain ⟨tail, rfl⟩ := hzero
    obtain ⟨rfl, rfl⟩ := Prod.mk.inj (Option.some.inj h)
    rfl
  · have hzero' : ∀ tail, s ++ rest = '0' :: tail → False := by
      intro tail heq
      cases s with
      | nil => simp [scanWhole, spanDigits] at h
      | cons c s => exact hzero ⟨s, by rw [(List.cons.inj heq).1]⟩
    rw [scanWhole] at h ⊢
    · rw [spanDigits_append hrest.not_isDigit]
      dsimp only at h ⊢
      split at h
      · cases h
      · rename_i hsome
        obtain ⟨rfl, rfl⟩ := Prod.mk.inj (Option.some.inj h)
        rw [if_neg hsome]
    · exact hzero'
    · exact fun tail heq => hzero ⟨tail, heq⟩

/-- The digits behind the point stop there too. -/
theorem scanFraction_append (h : scanFraction s = some (digits, t)) (hrest : EndsNumber rest) :
    scanFraction (s ++ rest) = some (digits, t ++ rest) := by
  by_cases hpoint : ∃ tail, s = '.' :: tail
  · obtain ⟨tail, rfl⟩ := hpoint
    rw [scanFraction] at h
    rw [List.cons_append, scanFraction, spanDigits_append hrest.not_isDigit]
    dsimp only at h ⊢
    split at h
    · cases h
    · rename_i hsome
      obtain ⟨rfl, rfl⟩ := Prod.mk.inj (Option.some.inj h)
      rw [if_neg hsome]
  -- without a point in the number there is none after it: a point would go on with it
  · have hpoint' : ∀ tail, s ++ rest = '.' :: tail → False := by
      intro tail heq
      cases s with
      | nil => exact (hrest '.' (by rw [← List.nil_append rest, heq]; rfl)).2.1 rfl
      | cons c s => exact hpoint ⟨s, by rw [(List.cons.inj heq).1]⟩
    rw [scanFraction] at h ⊢
    · obtain ⟨rfl, rfl⟩ := Prod.mk.inj (Option.some.inj h)
      rfl
    · exact hpoint'
    · exact fun tail heq => hpoint ⟨tail, heq⟩

/-- The digits of an exponent stop where a number ends. -/
theorem exponentDigits_append {f : Nat → Int} {exponent : Option Int}
    (h : (if (spanDigits s).1.isEmpty = true then none
        else some (digitsValue (spanDigits s).1, (spanDigits s).2)).map
      (fun x => (some (f x.1), x.2)) = some (exponent, t)) (hrest : EndsNumber rest) :
    (if (spanDigits (s ++ rest)).1.isEmpty = true then none
        else some (digitsValue (spanDigits (s ++ rest)).1, (spanDigits (s ++ rest)).2)).map
      (fun x => (some (f x.1), x.2)) = some (exponent, t ++ rest) := by
  rw [spanDigits_append hrest.not_isDigit]
  split at h
  · cases h
  · rename_i hsome
    obtain ⟨rfl, rfl⟩ := Prod.mk.inj (Option.some.inj h)
    rw [if_neg hsome]
    rfl

/-- So does a power of ten. -/
theorem scanExponent_append {exponent : Option Int} (h : scanExponent s = some (exponent, t))
    (hrest : EndsNumber rest) : scanExponent (s ++ rest) = some (exponent, t ++ rest) := by
  cases s with
  | nil =>
    obtain ⟨rfl, rfl⟩ := Prod.mk.inj (Option.some.inj h)
    cases rest with
    | nil => rfl
    | cons c tail =>
      obtain ⟨-, -, he, hE⟩ := hrest c rfl
      simp [scanExponent, he, hE]
  | cons c s =>
    by_cases hc : c = 'e' ∨ c = 'E'
    · simp only [scanExponent, hc, if_true, List.cons_append] at h ⊢
      -- the sign decides which of the three readings is taken
      rcases s with _ | ⟨sign, s⟩
      · cases h
      · by_cases hminus : sign = '-'
        · subst hminus
          exact exponentDigits_append (f := fun n => -(n : Int)) h hrest
        · by_cases hplus : sign = '+'
          · subst hplus
            exact exponentDigits_append (f := Int.ofNat) h hrest
          · have hsign : ∀ tail, (∀ r, sign :: tail = '-' :: r → False) ∧
                ∀ r, sign :: tail = '+' :: r → False := fun tail =>
              ⟨fun r heq => hminus (List.cons.inj heq).1, fun r heq => hplus (List.cons.inj heq).1⟩
            split at h
            · rename_i heq
              exact ((hsign _).1 _ heq).elim
            · rename_i heq
              exact ((hsign _).2 _ heq).elim
            · split
              · rename_i heq
                exact ((hsign _).1 _ heq).elim
              · rename_i heq
                exact ((hsign _).2 _ heq).elim
              · exact exponentDigits_append (f := Int.ofNat) h hrest
    · simp only [scanExponent, hc, if_false, List.cons_append] at h ⊢
      obtain ⟨rfl, rfl⟩ := Prod.mk.inj (Option.some.inj h)
      rfl

/-- **A number is read in front of anything that ends it.** -/
theorem scanUnsigned_append {negative : Bool} {j : Json}
    (h : scanUnsigned negative s = some (j, [])) (hrest : EndsNumber rest) :
    scanUnsigned negative (s ++ rest) = some (j, rest) := by
  simp only [scanUnsigned, Option.bind_eq_bind, Option.bind_eq_some_iff, Prod.exists, pure,
    Option.some.injEq, Prod.mk.injEq] at h ⊢
  obtain ⟨whole, s₁, hwhole, fraction, s₂, hfraction, exponent, s₃, hexponent, hj, rfl⟩ := h
  exact ⟨whole, _, scanWhole_append hwhole hrest, fraction, _, scanFraction_append hfraction hrest,
    exponent, _, scanExponent_append hexponent hrest, hj, rfl⟩

/-! ### Numbers as tokens -/

/-- What is scanned as a whole number begins with a digit. -/
theorem isDigit_of_scanWhole (h : scanWhole s = some (digits, t)) :
    ∃ c tail, s = c :: tail ∧ c.isDigit = true := by
  cases s with
  | nil => simp [scanWhole, spanDigits] at h
  | cons c tail =>
    refine ⟨c, tail, rfl, ?_⟩
    by_contra hc
    rw [Bool.not_eq_true] at hc
    have hzero : ∀ r, c :: tail = '0' :: r → False := by
      intro r heq
      rw [(List.cons.inj heq).1] at hc
      revert hc
      decide
    rw [scanWhole] at h
    · simp [spanDigits, hc] at h
    · exact hzero

/-- A text that begins with a digit is scanned as a number. -/
theorem next?_of_isDigit {c : Char} (hc : c.isDigit = true) (tail : List Char) :
    next? (c :: tail) =
      (scanUnsigned false (c :: tail)).map fun (j, rest) => (.scalar j, rest) := by
  have hne {d : Char} (hd : d.isDigit = false) : c ≠ d := by
    rintro rfl
    rw [hc] at hd
    cases hd
  rw [next?]
  all_goals
    · intros
      rename_i heq
      exact hne (by decide) (List.cons.inj heq).1

/-- **A number is the same token in front of anything that ends it**, and so is a word. -/
theorem next?_append {j : Json} (h : next? w = some (.scalar j, [])) (hrest : EndsNumber rest) :
    next? (w ++ rest) = some (.scalar j, rest) := by
  have hnumber {negative : Bool} {w : List Char}
      (h : (scanUnsigned negative w).map (fun (j, rest) => (Token.scalar j, rest)) =
        some (.scalar j, [])) :
      (scanUnsigned negative (w ++ rest)).map (fun (j, rest) => (Token.scalar j, rest)) =
        some (.scalar j, rest) := by
    obtain ⟨⟨value, tail⟩, hscan, heq⟩ := Option.map_eq_some_iff.mp h
    obtain ⟨hvalue, rfl⟩ := Prod.mk.inj heq
    obtain rfl := Token.scalar.inj hvalue
    rw [scanUnsigned_append hscan hrest]
    rfl
  -- a token is a mark, a word, a text or a number; marks and texts are no values
  rw [next?.eq_def] at h
  split at h
  case h_1 | h_2 | h_3 | h_4 | h_5 | h_6 => cases h
  case h_7 | h_8 | h_9 =>
    obtain ⟨hvalue, rfl⟩ := Prod.mk.inj (Option.some.inj h)
    obtain rfl := Token.scalar.inj hvalue
    rfl
  case h_10 =>
    obtain ⟨_, -, heq⟩ := Option.map_eq_some_iff.mp h
    cases (Prod.mk.inj heq).1
  case h_11 => exact hnumber h
  case h_12 =>
    obtain ⟨⟨value, tail⟩, hscan, -⟩ := Option.map_eq_some_iff.mp h
    simp only [scanUnsigned, Option.bind_eq_bind, Option.bind_eq_some_iff, Prod.exists] at hscan
    obtain ⟨whole, rest', hwhole, -⟩ := hscan
    obtain ⟨c, tail, rfl, hc⟩ := isDigit_of_scanWhole hwhole
    rw [List.cons_append, next?_of_isDigit hc, ← List.cons_append]
    exact hnumber h

/-! ### Whole numbers -/

/-- The digits of a number are worth the number. -/
theorem digitsValue_toDigits (n : Nat) : digitsValue (Nat.toDigits 10 n) = n :=
  Nat.ofDigitChars_eq_foldl.symm.trans Nat.ofDigitChars_ten_toDigits

/-- The digits of a positive number do not begin with zero. -/
theorem toDigits_ne_zero_cons {n : Nat} (hn : 0 < n) (tail : List Char) :
    Nat.toDigits 10 n ≠ '0' :: tail := by
  -- a number of several digits begins as its tenth does
  induction n using Nat.strong_induction_on generalizing tail with
  | _ n ih =>
    rw [Nat.toDigits_eq_if (by decide)]
    split
    · rename_i hsmall
      intro heq
      have hchar := (List.cons.inj heq).1
      interval_cases n <;> revert hchar <;> decide
    · rename_i hlarge
      intro heq
      cases hmore : Nat.toDigits 10 (n / 10) with
      | nil => exact Nat.toDigits_ne_nil hmore
      | cons c digits =>
        rw [hmore, List.cons_append] at heq
        rw [(List.cons.inj heq).1] at hmore
        exact ih (n / 10) (Nat.div_lt_self hn (by decide))
          (Nat.div_pos (Nat.le_of_not_lt hlarge) (by decide)) digits hmore

/-- Where there are digits only, all are read. -/
theorem spanDigits_of_isDigit (h : ∀ c ∈ digits, c.isDigit = true) :
    spanDigits digits = (digits, []) := by
  rw [spanDigits, Prod.mk.injEq, List.takeWhile_eq_self_iff, List.dropWhile_eq_nil_iff]
  exact ⟨h, h⟩

/-- The digits of a natural number are read as a whole. -/
theorem scanWhole_toDigits (n : Nat) :
    scanWhole (Nat.toDigits 10 n) = some (Nat.toDigits 10 n, []) := by
  rcases Nat.eq_zero_or_pos n with rfl | hn
  · rfl
  · have hdigits : ∀ c ∈ Nat.toDigits 10 n, c.isDigit = true := fun c hc =>
      Nat.isDigit_of_mem_toDigits (by decide) (by decide) hc
    have hsome : (Nat.toDigits 10 n).isEmpty = false :=
      List.isEmpty_eq_false_iff.mpr Nat.toDigits_ne_nil
    rw [scanWhole]
    · rw [spanDigits_of_isDigit hdigits]
      simp [hsome]
    · exact fun tail heq => toDigits_ne_zero_cons hn tail heq

/-- They are a number without fraction and exponent. -/
theorem scanUnsigned_toDigits (negative : Bool) (n : Nat) :
    scanUnsigned negative (Nat.toDigits 10 n) =
      some (Numeral.value ⟨negative, n, 0, true⟩, []) := by
  simp only [scanUnsigned, scanWhole_toDigits, scanFraction, scanExponent, List.append_nil,
    digitsValue_toDigits, Option.bind_eq_bind, Option.bind_some]
  rfl

/-- A whole number of at most 64 bits, with or without a sign. -/
def IsWhole (n : Int) : Prop := -2 ^ 63 ≤ n ∧ n < 2 ^ 64

/-- **A whole number stands for itself.** -/
theorem next?_integer {n : Int} (h : IsWhole n) :
    next? (Decimal.integer n).toList = some (.scalar (.integer n), []) := by
  obtain ⟨hlow, hhigh⟩ := h
  rw [Decimal.integer, Decimal.natural, String.toList_append, String.toList_ofList]
  split
  · rename_i hnegative
    -- the limits of 64 bits differ for the two signs
    have hvalue : Numeral.value ⟨true, n.natAbs, 0, true⟩ = .integer n := by
      have hrange : 0 < n.natAbs ∧ n.natAbs ≤ Nat.pow 2 63 := by
        rw [show Nat.pow 2 63 = 2 ^ 63 from rfl]
        omega
      simp only [Numeral.value, Bool.not_true, Bool.false_eq_true, false_and, and_false, if_false,
        hrange, and_self, if_true]
      exact congrArg Json.integer (by omega)
    show (scanUnsigned true (Nat.toDigits 10 n.natAbs)).map _ = _
    rw [scanUnsigned_toDigits, hvalue]
    rfl
  · rename_i hnonnegative
    have hvalue : Numeral.value ⟨false, n.natAbs, 0, true⟩ = .integer n := by
      have hrange : n.natAbs < Nat.pow 2 64 := by
        rw [show Nat.pow 2 64 = 2 ^ 64 from rfl]
        omega
      simp only [Numeral.value, Bool.not_false, hrange, and_self, if_true]
      exact congrArg Json.integer (by omega)
    obtain ⟨c, tail, heq, hc⟩ := isDigit_of_scanWhole (scanWhole_toDigits n.natAbs)
    show next? (Nat.toDigits 10 n.natAbs) = _
    rw [heq, next?_of_isDigit hc, ← heq, scanUnsigned_toDigits, hvalue]
    rfl

end Token

/-- Whether a double reads back from its text. -/
def ReadsBack (x : Float) : Prop :=
  Token.next? (Decimal.saved x).toList = some (.scalar (.real x), [])

end RobotMotion.Json
