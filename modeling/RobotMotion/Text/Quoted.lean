/-!
# Quoted texts

A text between double quotes. Its backslashes are doubled first, and then its double quotes
get a backslash. What comes of the two replacements is a text in which a backslash stands
before every double quote and every backslash (`escape_eq_replaced`), and taking these away
gives the text back (`unescape_escape`).
-/

namespace RobotMotion.Text

/-- A text with a character replaced wherever it stands. -/
def replaced (c : Char) (new : List Char) (s : List Char) : List Char :=
  s.flatMap fun d => if d = c then new else [d]

/-- A text in double quotes. -/
def quoted (s : String) : String :=
  "\"" ++ String.ofList (replaced '"' ['\\', '"'] (replaced '\\' ['\\', '\\'] s.toList)) ++ "\""

/-! ### Escaping -/

/-- Whether a character is written with a backslash in front. -/
def needsEscape (c : Char) : Bool := c = '"' || c = '\\'

/-- A backslash before every double quote and every backslash. -/
def escape : List Char → List Char
  | [] => []
  | c :: rest => if needsEscape c then '\\' :: c :: escape rest else c :: escape rest

/-- A backslash followed by a character stands for that character. -/
def unescape : List Char → List Char
  | [] => []
  | '\\' :: c :: rest => c :: unescape rest
  | c :: rest => c :: unescape rest

/-- Escaping loses nothing. -/
theorem unescape_escape (s : List Char) : unescape (escape s) = s := by
  induction s with
  | nil => rfl
  | cons c rest ih =>
    by_cases h : needsEscape c = true
    · simp [escape, h, unescape, ih]
    · have plain : c ≠ '\\' := by
        rintro rfl
        exact h rfl
      simp [escape, h]
      rw [unescape, ih]
      · exact fun _ _ hc _ => plain hc

theorem replaced_append (c : Char) (new s t : List Char) :
    replaced c new (s ++ t) = replaced c new s ++ replaced c new t :=
  List.flatMap_append

/-- **The two replacements escape a text.** The backslashes that the second one brings in come
too late to be doubled by the first. -/
theorem escape_eq_replaced (s : List Char) :
    escape s = replaced '"' ['\\', '"'] (replaced '\\' ['\\', '\\'] s) := by
  induction s with
  | nil => rfl
  | cons c s ih =>
    have hsplit : replaced '"' ['\\', '"'] (replaced '\\' ['\\', '\\'] (c :: s)) =
        replaced '"' ['\\', '"'] (replaced '\\' ['\\', '\\'] [c]) ++ escape s := by
      rw [ih, ← replaced_append, ← replaced_append]
      rfl
    rw [hsplit, escape]
    by_cases hquote : c = '"'
    · subst hquote
      rfl
    · by_cases hbackslash : c = '\\'
      · subst hbackslash
        rfl
      · simp [needsEscape, replaced, hquote, hbackslash]

theorem quoted_eq (s : String) : quoted s = "\"" ++ String.ofList (escape s.toList) ++ "\"" := by
  rw [quoted, ← escape_eq_replaced]

theorem toList_quoted (s : String) : (quoted s).toList = '"' :: (escape s.toList ++ ['"']) := by
  simp [quoted_eq]

end RobotMotion.Text
