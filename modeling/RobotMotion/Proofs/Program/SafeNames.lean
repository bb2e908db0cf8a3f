import RobotMotion.Program.Rapid
import RobotMotion.Proofs.Text.Blanks

/-!
# Names that every dialect takes

A name is safe (`IsSafe`) if it is not empty, made of letters, digits and underscores, and
does not begin with a digit. `safeName` makes a safe name of every text (`isSafe_safeName`)
and leaves a safe name as it is (`IsSafe.safeName_eq`), so doing it twice changes nothing more.

A safe name is an identifier of RAPID unless it begins with an underscore. That is mended in
no name, so the name made of a text is no identifier where the text begins with an underscore,
or with a character that is replaced by one (`safeName_isIdentifier_iff`).
-/

namespace RobotMotion.Program

/-- What stands in a name for a character. -/
def safeChar (c : Char) : Char := if isNameChar c then c else '_'

/-- A name that may stand as it is. -/
structure IsSafe (s : String) : Prop where
  nonempty : s.toList ≠ []
  nameChars : ∀ c ∈ s.toList, isNameChar c = true
  first : ∀ c, s.toList.head? = some c → c.isDigit = false

variable {s : String} {c : Char}

/-! ### Characters -/

theorem safeChar_of_isNameChar (h : isNameChar c = true) : safeChar c = c := if_pos h

theorem safeChar_of_not_isNameChar (h : isNameChar c = false) : safeChar c = '_' :=
  if_neg (by rw [h]; exact Bool.false_ne_true)

/-- What stands in a name for a character may stand in a name. -/
theorem isNameChar_safeChar (c : Char) : isNameChar (safeChar c) = true := by
  cases h : isNameChar c with
  | true => rwa [safeChar_of_isNameChar h]
  | false =>
    rw [safeChar_of_not_isNameChar h]
    rfl

theorem isNameChar_of_isDigit (h : c.isDigit = true) : isNameChar c = true := by
  rw [isNameChar, Char.isAlphanum, h, Bool.or_true, Bool.true_or]

/-- No other character is replaced by a digit. -/
theorem isDigit_safeChar (c : Char) : (safeChar c).isDigit = c.isDigit := by
  cases h : isNameChar c with
  | true => rw [safeChar_of_isNameChar h]
  | false =>
    have hdigit : c.isDigit = false :=
      Bool.eq_false_iff.mpr fun hdigit => by simp [isNameChar_of_isDigit hdigit] at h
    rw [safeChar_of_not_isNameChar h, hdigit]
    rfl

/-- All but letters and digits become underscores. -/
theorem safeChar_ne_underscore_iff : safeChar c ≠ '_' ↔ c.isAlphanum = true := by
  cases h : isNameChar c with
  | true =>
    rw [safeChar_of_isNameChar h]
    constructor
    · intro hother
      simpa [isNameChar, hother] using h
    · rintro halphanum rfl
      cases halphanum
  | false =>
    rw [safeChar_of_not_isNameChar h, (Bool.or_eq_false_iff.mp h).1]
    simp

/-- What may stand in a name is no blank. -/
theorem isBlank_of_isNameChar (h : isNameChar c = true) : Text.isBlank c = false := by
  rcases Bool.or_eq_true_iff.mp h with halphanum | hunderscore
  · rcases Bool.or_eq_true_iff.mp halphanum with halpha | hdigit
    · rcases Bool.or_eq_true_iff.mp halpha with hupper | hlower
      · obtain ⟨hlow, hhigh⟩ := of_decide_eq_true hupper
        exact Text.isBlank_of_between (le_trans (by decide) hlow) (le_trans hhigh (by decide))
      · obtain ⟨hlow, hhigh⟩ := Bool.and_eq_true_iff.mp hlower
        exact Text.isBlank_of_between (le_trans (by decide) (of_decide_eq_true hlow))
          (le_trans (of_decide_eq_true hhigh) (by decide))
    · exact Text.isBlank_of_isDigit hdigit
  · obtain rfl := of_decide_eq_true hunderscore
    decide

/-! ### Names -/

/-- **The three cases of a name**: a blank text is replaced, a text that begins with a digit
is prefixed, and any other is kept, apart from blanks around it and characters that may not
stand in a name. -/
theorem safeName_cases (name : String) :
    (Text.trimmed name.toList = [] ∧ safeName name = "Program") ∨
      ∃ c rest, Text.trimmed name.toList = c :: rest ∧
        (c.isDigit = true ∧
            (safeName name).toList = 'P' :: '_' :: safeChar c :: rest.map safeChar ∨
          c.isDigit = false ∧ (safeName name).toList = safeChar c :: rest.map safeChar) := by
  have hmapped : ((Text.trimmed name.toList).map fun c => if isNameChar c then c else '_') =
      (Text.trimmed name.toList).map safeChar := rfl
  rw [safeName, hmapped]
  -- blanks around the text are off, so a blank text is an empty one
  cases htext : Text.trimmed name.toList with
  | nil => exact .inl ⟨rfl, rfl⟩
  | cons c rest =>
    refine .inr ⟨c, rest, rfl, ?_⟩
    simp only [List.map_cons, isDigit_safeChar]
    cases c.isDigit with
    | true => exact .inl ⟨rfl, by simp⟩
    | false =>
      refine .inr ⟨rfl, ?_⟩
      rw [if_neg Bool.false_ne_true, String.toList_ofList]

/-- A name is safe by its characters, of which the first is no digit. -/
theorem IsSafe.of_toList {rest : List Char} (h : s.toList = c :: rest)
    (hchars : ∀ d ∈ c :: rest, isNameChar d = true) (hdigit : c.isDigit = false) : IsSafe s where
  nonempty := by
    rw [h]
    exact List.cons_ne_nil c rest
  nameChars := by rwa [h]
  first d hd := by
    rw [h] at hd
    obtain rfl := Option.some.inj hd
    exact hdigit

/-- **What is made of a text is a safe name.** -/
theorem isSafe_safeName (name : String) : IsSafe (safeName name) := by
  have hreplaced (text : List Char) : ∀ d ∈ text.map safeChar, isNameChar d = true := by
    intro d hd
    obtain ⟨c, -, rfl⟩ := List.mem_map.mp hd
    exact isNameChar_safeChar c
  obtain ⟨-, hname⟩ | ⟨c, rest, -, ⟨-, hname⟩ | ⟨hdigit, hname⟩⟩ := safeName_cases name
  · have hprogram : "Program".toList = 'P' :: "rogram".toList := rfl
    rw [hname]
    exact .of_toList hprogram (List.all_eq_true.mp (by decide)) rfl
  · refine .of_toList hname ?_ rfl
    exact List.forall_mem_cons.mpr
      ⟨rfl, List.forall_mem_cons.mpr ⟨rfl, hreplaced (c :: rest)⟩⟩
  · exact .of_toList hname (hreplaced (c :: rest)) ((isDigit_safeChar c).trans hdigit)

/-- A safe name is kept. -/
theorem IsSafe.safeName_eq (h : IsSafe s) : safeName s = s := by
  have hunspaced : Text.Unspaced s.toList := fun c hc => isBlank_of_isNameChar (h.nameChars c hc)
  have hkept : s.toList.map safeChar = s.toList := by
    rw [List.map_congr_left fun c hc => safeChar_of_isNameChar (h.nameChars c hc), List.map_id']
  obtain ⟨hblank, -⟩ | ⟨c, rest, htext, ⟨hdigit, -⟩ | ⟨-, hname⟩⟩ := safeName_cases s
  · rw [hunspaced.tight.trimmed_eq] at hblank
    exact absurd hblank h.nonempty
  · rw [hunspaced.tight.trimmed_eq] at htext
    rw [h.first c (by rw [htext]; rfl)] at hdigit
    cases hdigit
  · rw [hunspaced.tight.trimmed_eq] at htext
    apply String.toList_inj.mp
    rw [hname, ← List.map_cons, ← htext, hkept]

/-! ### Identifiers -/

/-- **A safe name is an identifier of RAPID unless it begins with an underscore.** -/
theorem IsSafe.isIdentifier_iff (h : IsSafe s) :
    Rapid.isIdentifier s = true ↔ s.toList.head? ≠ some '_' := by
  obtain ⟨hne, hchars, hfirst⟩ := h
  rw [Rapid.isIdentifier]
  cases htext : s.toList with
  | nil => exact absurd htext hne
  | cons c rest =>
    rw [htext] at hchars hfirst
    obtain ⟨hc, hrest⟩ := List.forall_mem_cons.mp hchars
    have hdigit : c.isDigit = false := hfirst c rfl
    -- what may stand in a name and is no digit is a letter or an underscore
    have hletter : c.isAlpha = true ↔ c ≠ '_' := by
      constructor
      · rintro halpha rfl
        cases halpha
      · intro hother
        simpa [isNameChar, Char.isAlphanum, hdigit, hother] using hc
    simp only [Bool.and_eq_true, Rapid.isLetter, hletter, List.all_eq_true.mpr hrest, and_true,
      List.head?_cons, ne_eq, Option.some.injEq]

/-- **What is made of a text is a safe name, and stays as it is from then on. It is an
identifier of RAPID just where the text is blank or begins with a letter or a digit**, after
the blanks in front of it. -/
theorem safeName_isIdentifier_iff (name : String) :
    (Rapid.isIdentifier (safeName name) = true ↔
      (Text.trimmed name.toList).head?.all Char.isAlphanum = true) ∧
    IsSafe (safeName name) ∧ safeName (safeName name) = safeName name := by
  refine ⟨?_, isSafe_safeName name, (isSafe_safeName name).safeName_eq⟩
  rw [(isSafe_safeName name).isIdentifier_iff]
  obtain ⟨htext, hname⟩ | ⟨c, rest, htext, ⟨hdigit, hname⟩ | ⟨-, hname⟩⟩ := safeName_cases name
  · rw [htext, hname]
    exact iff_of_true (by decide) rfl
  · rw [htext, hname]
    refine iff_of_true (by simp) ?_
    exact Bool.or_eq_true_iff.mpr (.inr hdigit)
  · rw [htext, hname, List.head?_cons, List.head?_cons, Option.all_some, ne_eq, Option.some_inj]
    exact safeChar_ne_underscore_iff

/-- **An underscore in front is left there**, and RAPID takes no such identifier. -/
theorem not_isIdentifier_underscore : Rapid.isIdentifier (safeName "_job") = false := by
  decide

end RobotMotion.Program
