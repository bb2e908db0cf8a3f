import RobotMotion.Proofs.Action.Wording
import RobotMotion.Proofs.Program.Layout
import RobotMotion.Proofs.Program.SafeNames

/-!
# The lines of a program

`Program.text` joins the lines of a program by line breaks. Its physical lines are the
lines of the program where none of them holds a line break itself
(`Program.splitOn_text`). Whether lines are unbroken is read off the entries they are
written from: an entry is unbroken if its statements are, as they are written out, and if
the texts in its action are.
-/

namespace RobotMotion

open Text (Unbroken unbroken_append)

namespace Program

/-- **The physical lines of a program file are the lines of the program**, provided that
these are unbroken. -/
theorem splitOn_text {p : Program} (hsome : p.lines ≠ [])
    (h : ∀ line ∈ p.lines, Unbroken line) :
    p.text.toList.splitOn '\n' = p.lines.map String.toList ++ [[]] :=
  Text.splitOn_intercalate_newline hsome h

/-- A line that holds a line break is more than one line of the file. -/
theorem splitOn_text_ne {p : Program} {line : String} (hline : line ∈ p.lines)
    (h : '\n' ∈ line.toList) : p.text.toList.splitOn '\n' ≠ p.lines.map String.toList ++ [[]] := by
  intro hlines
  refine Text.notMem_of_mem_splitOn p.text.toList line.toList ?_ h
  rw [hlines]
  exact List.mem_append_left _ (List.mem_map_of_mem hline)

/-! ### Names and headers -/

/-- No character of a name breaks a line. -/
theorem isBreak_of_isNameChar {c : Char} (h : isNameChar c = true) : Text.isBreak c = false := by
  rw [Text.isBreak, Bool.or_eq_false_iff, beq_eq_false_iff_ne, beq_eq_false_iff_ne]
  constructor <;>
    · rintro rfl
      revert h
      decide

/-- **A name that every dialect takes stands on one line**, whatever it is made from. -/
@[simp] theorem unbroken_safeName (name : String) : Unbroken (safeName name) :=
  fun c hc => isBreak_of_isNameChar ((isSafe_safeName name).nameChars c hc)

theorem unbroken_replicate (n : Nat) {c : Char} (h : Text.isBreak c = false) :
    Unbroken (String.ofList (List.replicate n c)) := by
  rw [Text.unbroken_ofList]
  intro d hd
  rw [List.eq_of_mem_replicate hd]
  exact h

/-- Padding adds blanks only. -/
theorem unbroken_padded {s : String} (h : Unbroken s) (width : Nat) : Unbroken (padded width s) :=
  unbroken_append.mpr ⟨h, unbroken_replicate _ (by decide)⟩

/-- **The header is unbroken** where the time, the name and the dialect are. -/
theorem unbroken_header {time comment name dialect : String} (htime : Unbroken time)
    (hcomment : Unbroken comment) (hname : Unbroken name) (hdialect : Unbroken dialect) :
    ∀ line ∈ header time comment name dialect, Unbroken line := by
  have hrule : Unbroken (String.ofList (List.replicate headerWidth '-')) :=
    unbroken_replicate _ (by decide)
  -- each row is a rule, a fixed text or one of the given texts between fixed ones
  have hrows : ∀ row ∈
      [ String.ofList (List.replicate headerWidth '-'),
        "Program \"" ++ name ++ "\" (" ++ dialect ++ ")",
        "Generated by rmachina 0.1.0 on " ++ time ++ " UTC",
        "Review this program before running it on a real device.",
        String.ofList (List.replicate headerWidth '-') ], Unbroken row := by
    simp only [List.forall_mem_cons, unbroken_append, htime, hname, hdialect, hrule, and_true,
      true_and]
    decide
  have hblank : Unbroken " " := by decide
  intro line hline
  obtain ⟨row, hrow, rfl⟩ := List.mem_map.mp hline
  simp only [unbroken_append, hcomment, hblank, unbroken_padded (hrows row hrow), and_self]

/-! ### Entries -/

/-- Whether the message of a diagnostic stands on one line. -/
def Diagnostic.Unbroken : Diagnostic → Prop
  | .error message => Text.Unbroken message
  | _ => True

/-- Whether an entry stands on one line for each of its statements. -/
def Entry.Unbroken {σ : Type} (render : σ → String) : Entry σ → Prop
  | .code action statements =>
    action.command.Unbroken ∧ ∀ s ∈ statements, Text.Unbroken (render s)
  | .diagnostic action what => action.command.Unbroken ∧ what.Unbroken
  | .plain statement => Text.Unbroken (render statement)
  | .blank => True

namespace Look

variable {look : Look}

/-- A line of a section is empty, or what is written there after the indentation begins with
the comment mark or with a statement. -/
theorem mem_lines {σ : Type} {render : σ → String} {entries : List (Entry σ)} {line : String}
    (h : line ∈ look.lines render entries) :
    line = "" ∨ ∃ text rest, line = look.indented (text ++ rest) ∧
      (text = look.comment ∨ ∃ s, text = render s) := by
  obtain ⟨e, -, hline⟩ := List.mem_flatMap.mp h
  cases e with
  | code action statements =>
    cases statements with
    | nil => cases hline
    | cons first more =>
      right
      -- only the first line is annotated
      rcases List.mem_cons.mp hline with rfl | hmore
      · exact ⟨render first, look.annotation action, rfl, .inr ⟨first, rfl⟩⟩
      · obtain ⟨text, htext, rfl⟩ := List.mem_map.mp hmore
        obtain ⟨s, -, rfl⟩ := List.mem_map.mp htext
        exact ⟨render s, "", by rw [String.append_empty], .inr ⟨s, rfl⟩⟩
  | diagnostic action what =>
    obtain rfl := List.mem_singleton.mp hline
    exact .inr ⟨look.comment, _, rfl, .inl rfl⟩
  | plain statement =>
    obtain rfl := List.mem_singleton.mp hline
    exact .inr ⟨render statement, "", by rw [String.append_empty], .inr ⟨statement, rfl⟩⟩
  | blank => exact .inl (List.mem_singleton.mp hline)

/-- Indentation breaks no line. -/
theorem unbroken_indented (look : Look) {s : String} (h : Unbroken s) :
    Unbroken (look.indented s) :=
  unbroken_append.mpr ⟨unbroken_replicate _ (by decide), h⟩

/-- An annotation is as unbroken as the texts of its action. -/
theorem unbroken_annotation (hcomment : Unbroken look.comment) {action : Action Float}
    (h : action.command.Unbroken) : Unbroken (look.annotation action) := by
  unfold annotation
  split
  · decide
  · simp only [unbroken_append, hcomment, Command.unbroken_description h, and_true]
    decide
  · simp only [unbroken_append, hcomment, Text.unbroken_natural, and_true]
    decide

/-- So is a diagnostic. -/
theorem unbroken_diagnosticLine (hcomment : Unbroken look.comment)
    (hdialect : Unbroken look.dialect) {action : Action Float} (h : action.command.Unbroken)
    {what : Diagnostic} (hwhat : what.Unbroken) :
    Unbroken (look.diagnosticLine action what) := by
  have hcall := Command.unbroken_instruction h
  refine look.unbroken_indented (unbroken_append.mpr ⟨hcomment, ?_⟩)
  cases what with
  | failed =>
    simp only [unbroken_append, hcall, and_true]
    decide
  | unsupported =>
    simp only [unbroken_append, hcall, hdialect, and_true]
    decide
  | error message =>
    have hmessage : Unbroken message := hwhat
    simp only [unbroken_append, hcall, hmessage, and_true]
    decide

/-- **The lines of unbroken entries are unbroken.** -/
theorem unbroken_lines {σ : Type} {render : σ → String} (hcomment : Unbroken look.comment)
    (hdialect : Unbroken look.dialect) {entries : List (Entry σ)}
    (h : ∀ e ∈ entries, e.Unbroken render) :
    ∀ line ∈ look.lines render entries, Unbroken line := by
  intro line hline
  obtain ⟨e, he, hline⟩ := List.mem_flatMap.mp hline
  have hentry := h e he
  cases e with
  | code action statements =>
    obtain ⟨haction, hstatements⟩ := hentry
    cases statements with
    | nil => cases hline
    | cons first rest =>
      rcases List.mem_cons.mp hline with rfl | hline
      · exact look.unbroken_indented (unbroken_append.mpr
          ⟨hstatements first List.mem_cons_self, unbroken_annotation hcomment haction⟩)
      · obtain ⟨text, htext, rfl⟩ := List.mem_map.mp hline
        obtain ⟨s, hs, rfl⟩ := List.mem_map.mp htext
        exact look.unbroken_indented (hstatements s (List.mem_cons_of_mem _ hs))
  | diagnostic action what =>
    rw [List.mem_singleton.mp hline]
    exact unbroken_diagnosticLine hcomment hdialect hentry.1 hentry.2
  | plain statement =>
    rw [List.mem_singleton.mp hline]
    exact look.unbroken_indented hentry
  | blank =>
    rw [List.mem_singleton.mp hline]
    decide

end Look

/-! ### What the dialects share -/

/-- What holds of all members holds of them with one more. -/
theorem forall_mem_concat {β : Type} {p : β → Prop} {xs : List β} {x : β} (h : ∀ y ∈ xs, p y)
    (hx : p x) : ∀ y ∈ xs ++ [x], p y :=
  List.forall_mem_append.mpr ⟨h, List.forall_mem_singleton.mpr hx⟩

/-- What every step keeps holds of a whole draft. -/
theorem foldl_invariant {δ ν : Type} {step : δ → ν → δ} (inv : δ → Prop) (p : ν → Prop)
    (hstep : ∀ draft, inv draft → ∀ v, p v → inv (step draft v)) {draft : δ} (h : inv draft)
    {vs : List ν} (hvs : ∀ v ∈ vs, p v) : inv (vs.foldl step draft) := by
  induction vs generalizing draft with
  | nil => exact h
  | cons v rest ih =>
    exact ih (hstep draft h v (hvs v List.mem_cons_self)) fun w hw =>
      hvs w (List.mem_cons_of_mem _ hw)

@[simp] theorem unbroken_targetName (index : Nat) : Unbroken (targetName index) := by
  simp only [targetName, unbroken_append, Text.unbroken_natural, and_true]
  decide

@[simp] theorem unbroken_secondsText (millis : Nat) : Unbroken (secondsText millis) :=
  Text.unbroken_fixed _ _

@[simp] theorem unbroken_pinText (n : Int) : Unbroken (pinText n) := Text.unbroken_integer n

/-- Numbers in a list stand on one line. -/
theorem unbroken_map_fixed (values : List Float) (places : Nat) :
    ∀ t ∈ values.map (Decimal.fixed · places), Unbroken t := by
  intro t ht
  obtain ⟨x, -, rfl⟩ := List.mem_map.mp ht
  exact Text.unbroken_fixed x places

/-- External axes are rendered number by number. -/
theorem unbroken_externalTexts (axes : Option (ExternalAxes Float)) {render : Option Float → String}
    (h : ∀ v, Unbroken (render v)) : ∀ t ∈ externalTexts axes render, Unbroken t := by
  intro t ht
  obtain ⟨v, -, rfl⟩ := List.mem_map.mp ht
  exact h v

end Program

end RobotMotion
