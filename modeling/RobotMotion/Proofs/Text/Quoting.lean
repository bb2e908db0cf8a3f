import RobotMotion.Proofs.Text.Reading
import Mathlib.Algebra.Ring.Parity
import Mathlib.Data.List.Induction

/-!
# Quoted texts as literals

A backslash takes in the character behind it, another backslash included. So of backslashes
in a row it is their number that tells whether what follows is escaped (`Escapes`). In an
escaped text every double quote is (`escapes_of_escape_eq`), and the quote behind the text is
not (`not_escapes_escape`), however many backslashes the text ends in. A quoted text is thus a
literal that ends at its last character (`literal_quoted`).
-/

namespace RobotMotion.Text

/-! ### What is escaped -/

/-- How many backslashes stand in a row at the end of a text. -/
def closingBackslashes (s : List Char) : ℕ := (s.reverse.takeWhile (· = '\\')).length

/-- Backslashes in a row take each other in, so that what follows them is escaped if they are
odd in number. -/
def Escapes (before : List Char) : Prop := Odd (closingBackslashes before)

theorem closingBackslashes_concat (s : List Char) (c : Char) :
    closingBackslashes (s ++ [c]) = if c = '\\' then closingBackslashes s + 1 else 0 := by
  rw [closingBackslashes, List.reverse_append, List.reverse_singleton, List.singleton_append,
    List.takeWhile_cons]
  by_cases hc : c = '\\'
  · simp [hc, closingBackslashes]
  · simp [hc]

theorem escape_append (s t : List Char) : escape (s ++ t) = escape s ++ escape t := by
  rw [escape_eq_replaced, escape_eq_replaced s, escape_eq_replaced t, replaced_append,
    replaced_append]

/-- Nothing behind an escaped text is escaped by it. -/
theorem not_escapes_escape (s : List Char) : ¬ Escapes (escape s) := by
  rw [Escapes, Nat.not_odd_iff_even]
  induction s using List.reverseRecOn with
  | nil => exact Even.zero
  | append_singleton s c ih =>
    rw [escape_append]
    by_cases hc : needsEscape c = true
    · have hpair : escape s ++ escape [c] = (escape s ++ ['\\']) ++ [c] := by
        simp [escape, hc]
      rw [hpair, closingBackslashes_concat, closingBackslashes_concat, if_pos rfl]
      split
      · exact ih.add even_two
      · exact Even.zero
    · have hplain : c ≠ '\\' := by
        rintro rfl
        exact hc rfl
      have hsingle : escape [c] = [c] := by simp [escape, hc]
      rw [hsingle, closingBackslashes_concat, if_neg hplain]
      exact Even.zero

/-- A double quote in an escaped text is one of the text, behind its backslash. -/
theorem exists_of_escape_eq {s before after : List Char} (h : escape s = before ++ '"' :: after) :
    ∃ first rest, s = first ++ '"' :: rest ∧ before = escape first ++ ['\\'] := by
  induction s generalizing before with
  | nil => exact absurd h (by simp [escape])
  | cons c s ih =>
    rw [escape] at h
    by_cases hc : needsEscape c = true
    · rw [if_pos hc] at h
      rcases before with _ | ⟨d, _ | ⟨e, before⟩⟩
      · cases h
      · obtain ⟨rfl, rfl, -⟩ := by simpa using h
        exact ⟨[], s, rfl, rfl⟩
      · obtain ⟨rfl, rfl, hrest⟩ := by simpa using h
        obtain ⟨first, rest, rfl, rfl⟩ := ih hrest
        exact ⟨c :: first, rest, rfl, by simp [escape, hc]⟩
    · rw [if_neg hc] at h
      rcases before with _ | ⟨d, before⟩
      · obtain ⟨rfl, -⟩ := by simpa using h
        exact absurd rfl hc
      · obtain ⟨rfl, hrest⟩ := by simpa using h
        obtain ⟨first, rest, rfl, rfl⟩ := ih hrest
        exact ⟨c :: first, rest, rfl, by simp [escape, hc]⟩

/-- **Every double quote in an escaped text is escaped.** -/
theorem escapes_of_escape_eq {s before after : List Char}
    (h : escape s = before ++ '"' :: after) : Escapes before := by
  obtain ⟨first, -, -, rfl⟩ := exists_of_escape_eq h
  rw [Escapes, closingBackslashes_concat, if_pos rfl]
  exact (Nat.not_odd_iff_even.mp (not_escapes_escape first)).add_one

/-! ### Literals -/

/-- What makes a literal a good one for a text. -/
structure Literal (text literal : List Char) : Prop where
  /-- It stands between double quotes, and in between there is none that is not escaped. -/
  body : ∃ body, literal = '"' :: (body ++ ['"']) ∧
    (∀ before after, body = before ++ '"' :: after → Escapes before) ∧ ¬ Escapes body ∧
    unescape body = text
  /-- Before anything else it is read to its last character, and gives the text. -/
  reads : ∀ rest, readLiteral? (literal ++ rest) = some (text, rest)

/-- **A quoted text is a literal for it.** -/
theorem literal_quoted (s : String) : Literal s.toList (quoted s).toList where
  body := ⟨escape s.toList, toList_quoted s, fun _ _ => escapes_of_escape_eq,
    not_escapes_escape _, unescape_escape _⟩
  reads := readLiteral?_quoted_append s

end RobotMotion.Text
