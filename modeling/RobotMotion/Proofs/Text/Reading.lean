import RobotMotion.Text.Numeral
import RobotMotion.Text.Quoted

/-!
# Texts that read back

The decimal digits of a number read back as the number (`Text.digits?_toDigits`). Nothing
but digits is read as a number, apart from a plus in front (`Text.natural?_eq_some_iff`).

A quoted text reads back as well. Reading goes through it character by character, takes
what follows a backslash as it is, and stops at the first double quote that no backslash
takes in. Whatever the text holds, that is the quote that closes it
(`Text.readLiteral?_quoted_append`), so reading goes on exactly behind it.
-/

namespace RobotMotion.Text

/-- The digits of a number read back. -/
theorem digits?_toDigits (n : Nat) : digits? (Nat.toDigits 10 n) = some n := by
  have hsome : (Nat.toDigits 10 n).isEmpty = false :=
    List.isEmpty_eq_false_iff.mpr Nat.toDigits_ne_nil
  have hdigits : (Nat.toDigits 10 n).all Char.isDigit = true :=
    List.all_eq_true.mpr fun _ => Nat.isDigit_of_mem_toDigits (by decide) (by decide)
  rw [digits?, hsome, hdigits]
  exact congrArg some (Nat.ofDigitChars_eq_foldl.symm.trans Nat.ofDigitChars_ten_toDigits)

/-- Digits are read for the number that they make, and nothing else is. -/
theorem digits?_eq_some_iff {s : List Char} {n : Nat} : digits? s = some n ↔
    (s ≠ [] ∧ ∀ c ∈ s, c.isDigit = true) ∧ Nat.ofDigitChars 10 s 0 = n := by
  rw [digits?, Nat.ofDigitChars_eq_foldl]
  by_cases h : s ≠ [] ∧ ∀ c ∈ s, c.isDigit = true
  · have hdigits : (!s.isEmpty && s.all Char.isDigit) = true := by simpa using h
    rw [if_pos hdigits, Option.some.injEq]
    exact (and_iff_right h).symm
  · have hno : ¬ (!s.isEmpty && s.all Char.isDigit) = true := by simpa using h
    rw [if_neg hno]
    exact ⟨nofun, fun hn => absurd hn.1 h⟩

/-- **A number is read in digits, with a plus in front or without.** -/
theorem natural?_eq_some_iff {s : List Char} {n : Nat} : natural? s = some n ↔
    ∃ sign digits, s = sign ++ digits ∧ (sign = [] ∨ sign = ['+']) ∧ digits? digits = some n := by
  constructor
  · intro h
    rw [natural?.eq_def] at h
    split at h
    · exact ⟨['+'], _, rfl, .inr rfl, h⟩
    · exact ⟨[], s, rfl, .inl rfl, h⟩
  · rintro ⟨sign, digits, rfl, rfl | rfl, h⟩
    · rw [List.nil_append, natural?.eq_def]
      split
      · -- a plus is no digit
        have hplus := (digits?_eq_some_iff.mp h).1.2 '+' List.mem_cons_self
        cases hplus
      · exact h
    · exact h

/-! ### Quoted texts -/

/-- The text up to the double quote that closes it, and what follows that quote. -/
def readBody? : List Char → Option (List Char × List Char)
  | [] => none
  | '"' :: rest => some ([], rest)
  | '\\' :: c :: rest => (readBody? rest).map (Prod.map (c :: ·) id)
  | c :: rest => (readBody? rest).map (Prod.map (c :: ·) id)

/-- The quoted text in front, and what follows it. -/
def readLiteral? : List Char → Option (List Char × List Char)
  | '"' :: rest => readBody? rest
  | _ => none

theorem readBody?_char {c : Char} (hc : needsEscape c = false) (rest : List Char) :
    readBody? (c :: rest) = (readBody? rest).map (Prod.map (c :: ·) id) := by
  rw [readBody?]
  · rintro rfl
    cases hc
  · rintro d more rfl
    cases hc

/-- **An escaped text is taken in whole**, and reading goes on behind it. -/
theorem readBody?_escape_append (s rest : List Char) :
    readBody? (escape s ++ rest) = (readBody? rest).map (Prod.map (s ++ ·) id) := by
  induction s with
  | nil => exact (congrFun Option.map_id (readBody? rest)).symm
  | cons c s ih =>
    have hmore : (readBody? (escape s ++ rest)).map (Prod.map (c :: ·) id) =
        (readBody? rest).map (Prod.map (c :: s ++ ·) id) := by
      rw [ih, Option.map_map]
      rfl
    cases hc : needsEscape c with
    | true =>
      rw [escape, if_pos hc]
      exact hmore
    | false =>
      rw [escape, if_neg (by simp [hc]), List.cons_append, readBody?_char hc]
      exact hmore

/-- **A quoted text is read to its closing quote**, whatever follows. -/
theorem readLiteral?_quoted_append (s : String) (rest : List Char) :
    readLiteral? ((quoted s).toList ++ rest) = some (s.toList, rest) := by
  have hquoted : (quoted s).toList ++ rest = '"' :: (escape s.toList ++ '"' :: rest) := by
    simp [toList_quoted]
  rw [hquoted, readLiteral?, readBody?_escape_append]
  simp [readBody?]

/-- A text that ends in a backslash is closed by the quote behind two of them. -/
example : readLiteral? ((quoted "a, \"b\\").toList ++ ", 1);".toList) =
    some ("a, \"b\\".toList, ", 1);".toList) := by
  decide

end RobotMotion.Text
