import RobotMotion.Decimal.Fixed
import RobotMotion.Decimal.Trimmed

/-!
# The characters of a number

Whatever a double is, not a number and the infinities included, its text holds nothing but
letters, digits, points and minus signs (`Decimal.numeral_fixed`). So no character that
separates or ends something can come from a number. Nor is that text ever empty
(`Decimal.trimmed_ne_empty`).
-/

namespace RobotMotion.Decimal

/-- Whether a character can stand in the text of a number. -/
def isNumeral (c : Char) : Bool := c.isAlphanum || c == '.' || c == '-'

/-- A text of such characters. -/
def Numeral (s : String) : Prop := ∀ c ∈ s.toList, isNumeral c = true

instance (s : String) : Decidable (Numeral s) :=
  decidable_of_iff (s.toList.all isNumeral = true) List.all_eq_true

namespace Numeral

variable {s t : String}

/-- Two such texts make one. -/
theorem append (hs : Numeral s) (ht : Numeral t) : Numeral (s ++ t) := by
  intro c hc
  rw [String.toList_append] at hc
  exact (List.mem_append.mp hc).elim (hs c) (ht c)

/-- What cannot stand in the text of a number does not. -/
theorem not_mem (hs : Numeral s) {c : Char} (hc : isNumeral c = false) : c ∉ s.toList := by
  intro hmem
  rw [hs c hmem] at hc
  cases hc

end Numeral

/-- Digits stand in the texts of numbers. -/
theorem isNumeral_of_isDigit {c : Char} (h : c.isDigit = true) : isNumeral c = true := by
  simp [isNumeral, Char.isAlphanum, h]

/-- The digits of a number. -/
theorem isDigit_of_mem_toDigits {n : Nat} {c : Char} (h : c ∈ Nat.toDigits 10 n) :
    c.isDigit = true :=
  Nat.isDigit_of_mem_toDigits (by decide) (by decide) h

theorem isNumeral_of_mem_toDigits {n : Nat} {c : Char} (h : c ∈ Nat.toDigits 10 n) :
    isNumeral c = true :=
  isNumeral_of_isDigit (isDigit_of_mem_toDigits h)

/-- Digits one after the other are the text of a number. -/
theorem numeral_toDigits (n : Nat) : Numeral (String.ofList (Nat.toDigits 10 n)) := by
  intro c hc
  rw [String.toList_ofList] at hc
  exact isNumeral_of_mem_toDigits hc

theorem numeral_natural (n : Nat) : Numeral (natural n) := numeral_toDigits n

/-- So are zeros. -/
theorem numeral_zeros (n : Nat) : Numeral (zeros n) := by
  intro c hc
  rw [zeros, String.toList_ofList] at hc
  rw [List.eq_of_mem_replicate hc]
  rfl

/-- So are digits with a point among them. -/
theorem numeral_placed (places units : Nat) : Numeral (placed places units) := by
  have hpoint : Numeral "." := by decide
  rw [placed]
  split
  · exact numeral_natural _
  · exact (((numeral_natural _).append hpoint).append (numeral_zeros _)).append (numeral_toDigits _)

/-- **The text of a double with fixed places, whatever the double is.** -/
theorem numeral_fixed (x : Float) (places : Nat) : Numeral (fixed x places) := by
  rw [fixed]
  split
  · decide
  · rename_i negative _
    cases negative <;> decide
  · refine Numeral.append ?_ (numeral_placed _ _)
    split <;> decide

/-- A whole number is digits behind a sign or none. -/
theorem numeral_integer (n : Int) : Numeral (integer n) := by
  refine Numeral.append ?_ (numeral_natural _)
  split <;> decide

/-- **Digits are written positionally without any other character.** -/
theorem numeral_positional (d : Digits) (pointed : Bool) : Numeral (d.positional pointed) := by
  -- whichever of the digits stand on one side of the point
  have hdigits (part : List Char) (h : ∀ c ∈ part, c ∈ Nat.toDigits 10 d.coefficient) :
      Numeral (String.ofList part) := by
    intro c hc
    rw [String.toList_ofList] at hc
    exact isNumeral_of_mem_toDigits (h c hc)
  have hpoint : Numeral "." := by decide
  have hzero : Numeral "0." := by decide
  rw [Digits.positional]
  split
  · refine ((numeral_toDigits _).append (numeral_zeros _)).append ?_
    cases pointed <;> decide
  · dsimp only
    split
    · exact ((hdigits _ fun c hc => List.mem_of_mem_take hc).append hpoint).append
        (hdigits _ fun c hc => List.mem_of_mem_drop hc)
    · exact (hzero.append (numeral_zeros _)).append (numeral_toDigits _)

/-- So is every double, be it a number or not. -/
theorem numeral_text_plain (x : Binary64) : Numeral (x.text .plain) := by
  cases x with
  | nan => decide
  | infinite negative => cases negative <;> decide
  | finite negative mantissa exponent =>
    cases mantissa with
    | zero =>
      show Numeral ((if negative then "-0" else "0") ++ "")
      cases negative <;> decide
    | succ m =>
      have hsign : Numeral (if negative then "-" else "") := by cases negative <;> decide
      exact hsign.append (numeral_positional _ _)

/-- **The shortest digits of a double, without an exponent.** -/
theorem numeral_plain (x : Float) : Numeral (plain x) := numeral_text_plain _

/-- And every double with what is idle taken off. -/
theorem numeral_trimmed (x : Float) : Numeral (trimmed x) := by
  rw [trimmed]
  split
  · decide
  · exact numeral_plain _

/-! ### Never empty -/

/-- A natural number has at least one digit. -/
theorem natural_ne_empty (n : Nat) : natural n ≠ "" := by
  simp [natural, Nat.toDigits_ne_nil]

/-- Digits written positionally are some. -/
theorem positional_ne_empty (d : Digits) (pointed : Bool) : d.positional pointed ≠ "" := by
  rw [Digits.positional]
  split
  · simp [Nat.toDigits_ne_nil]
  · dsimp only
    split <;> simp

/-- Every double is written as something, be it a number or not. -/
theorem text_plain_ne_empty (x : Binary64) : x.text .plain ≠ "" := by
  cases x with
  | nan => decide
  | infinite negative => cases negative <;> decide
  | finite negative mantissa exponent =>
    cases mantissa with
    | zero =>
      show (if negative then "-0" else "0") ++ "" ≠ ""
      cases negative <;> decide
    | succ m =>
      intro hempty
      exact positional_ne_empty _ _ (String.append_eq_empty_iff.mp hempty).2

/-- **A number has a text**, whatever the double is. -/
theorem trimmed_ne_empty (x : Float) : trimmed x ≠ "" := by
  rw [trimmed]
  split
  · decide
  · exact text_plain_ne_empty _

end RobotMotion.Decimal
