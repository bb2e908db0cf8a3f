import RobotMotion.Proofs.Program.Lines

/-!
# G-code programs on unbroken lines

Numbers and pins are unbroken whatever the state of the device is, so a program is unbroken
where the texts in its actions are (`GCode.unbroken_draft`).
-/

namespace RobotMotion

open Program (Entry Place)
open Text (unbroken_append)

namespace GCode

namespace Statement

/-- A word with its value. -/
theorem unbroken_word {word value : String} (hword : Text.Unbroken word)
    (hvalue : Text.Unbroken value) : Text.Unbroken (word ++ value) :=
  unbroken_append.mpr ⟨hword, hvalue⟩

/-- A motion is unbroken where its words are. -/
theorem unbroken_moveText {code x y z feedRate : String} {extrusion : Option String}
    (hcode : Text.Unbroken code) (hx : Text.Unbroken x) (hy : Text.Unbroken y)
    (hz : Text.Unbroken z) (hextrusion : ∀ e, extrusion = some e → Text.Unbroken e)
    (hfeedRate : Text.Unbroken feedRate) :
    Text.Unbroken (moveText code x y z extrusion feedRate) := by
  cases extrusion with
  | none =>
    dsimp only [moveText]
    simp only [unbroken_append, hcode, hx, hy, hz, hfeedRate, and_true, true_and]
    decide
  | some e =>
    have he := hextrusion e rfl
    dsimp only [moveText]
    simp only [unbroken_append, hcode, hx, hy, hz, he, hfeedRate, and_true, true_and]
    decide

/-- The values of a move are numbers. -/
theorem unbroken_move (d : Decimals) (settings : Settings Float) (position : Vector3 Float)
    (extrusion : Option Float) :
    Text.Unbroken (Draft.move d settings position extrusion).text := by
  have hfixed := Text.unbroken_fixed
  have hwork : Text.Unbroken "G1" := by decide
  have htravel : Text.Unbroken "G0" := by decide
  rw [Draft.move]
  split
  · dsimp only [Statement.text]
    refine unbroken_moveText hwork (hfixed _ _) (hfixed _ _) (hfixed _ _) (fun e he => ?_)
      (hfixed _ _)
    obtain ⟨x, -, rfl⟩ := Option.map_eq_some_iff.mp he
    exact hfixed _ _
  · dsimp only [Statement.text]
    refine unbroken_moveText htravel (hfixed _ _) (hfixed _ _) (hfixed _ _) (fun e he => ?_)
      (hfixed _ _)
    cases he

/-- Heating is written with numbers alone. -/
theorem unbroken_temperature (part : HeatedPart) (waits : Bool) (value : Float) (places : Nat) :
    Text.Unbroken (temperature part waits (Decimal.fixed value places)).text := by
  have hcode : Text.Unbroken (temperatureCode part waits) := by
    cases part <;> cases waits <;> decide
  have hword : Text.Unbroken " S" := by decide
  exact unbroken_word (unbroken_word hcode hword) (Text.unbroken_fixed _ _)

theorem unbroken_acceleration (value : Float) (places : Nat) :
    Text.Unbroken (acceleration (Decimal.fixed value places)).text :=
  unbroken_word (by decide) (Text.unbroken_fixed _ _)

/-- The value of a pin may come in any unbroken spelling. -/
theorem unbroken_setPin (pin : Int) {value : String} (h : Text.Unbroken value) :
    Text.Unbroken (setPin pin value).text := by
  dsimp only [Statement.text]
  simp only [unbroken_append, Program.unbroken_pinText, h, and_true]
  decide

theorem unbroken_dwell (millis : Nat) : Text.Unbroken (dwell millis).text :=
  unbroken_word (by decide) (Text.unbroken_natural millis)

/-- A message reaches G-code as it is, so it has to be unbroken itself. -/
theorem unbroken_message {text : String} (h : Text.Unbroken text) :
    Text.Unbroken (message text).text :=
  unbroken_word (by decide) h

/-- So does a comment. -/
theorem unbroken_comment {text : String} (h : Text.Unbroken text) :
    Text.Unbroken (comment text).text :=
  unbroken_word (by decide) h

end Statement

namespace Draft

/-- **The entries that say what became of an action are unbroken if its texts are.** -/
theorem unbroken_bodyEntries (d : Decimals) (origin : Float) {v : Visit Float}
    (haction : v.action.command.Unbroken) :
    ∀ e ∈ bodyEntries d origin v, e.Unbroken Statement.text := by
  have hcode {s : Statement} (hs : Text.Unbroken s.text) :
      ∀ e ∈ [(.code v.action [s] : Entry Statement)], e.Unbroken Statement.text :=
    List.forall_mem_singleton.mpr ⟨haction, List.forall_mem_singleton.mpr hs⟩
  have hdiagnostic {what : Program.Diagnostic} (hwhat : what.Unbroken) :
      ∀ e ∈ [(.diagnostic v.action what : Entry Statement)], e.Unbroken Statement.text :=
    List.forall_mem_singleton.mpr ⟨haction, hwhat⟩
  have herror {message : String} (hmessage : Text.Unbroken message) :
      ∀ e ∈ [(.diagnostic v.action (.error message) : Entry Statement)],
        e.Unbroken Statement.text := hdiagnostic hmessage
  have hbadPin {pin : String} (h : Text.Unbroken pin) :
      Text.Unbroken ("pin \"" ++ pin ++ "\" is not in 0..255") := by
    simp only [unbroken_append, h, and_true]
    decide
  cases ha : v.applied with
  | false =>
    simp only [bodyEntries, ha, Bool.not_false, if_true]
    exact hdiagnostic trivial
  | true =>
    simp only [bodyEntries, ha, Bool.not_true, Bool.false_eq_true, if_false]
    -- the texts of an action are those of its command, which differ from case to case
    generalize hc : v.action.command = command at haction
    cases command
    case translation | transformation =>
      dsimp only
      split
      · exact herror (by decide)
      · exact hcode (Statement.unbroken_move d _ _ _)
    case extrusion => exact hcode (by decide)
    case temperature part value waits relative =>
      exact hcode (Statement.unbroken_temperature part waits _ _)
    case setting which value relative =>
      cases which with
      | acceleration => exact hcode (Statement.unbroken_acceleration _ _)
      | speed | precision | extrusionRate => exact List.forall_mem_nil _
    case popSettings =>
      dsimp only
      split
      · split
        · exact hcode (Statement.unbroken_acceleration _ _)
        · exact List.forall_mem_nil _
      · exact List.forall_mem_nil _
    case writeDigital pin on toolPin =>
      have hpin : Text.Unbroken pin := haction pin List.mem_cons_self
      have hvalue : Text.Unbroken (if on then "255" else "0") := by cases on <;> decide
      dsimp only
      split
      · exact hcode (Statement.unbroken_setPin _ hvalue)
      · exact herror (hbadPin hpin)
    case writeAnalog pin value toolPin =>
      have hpin : Text.Unbroken pin := haction pin List.mem_cons_self
      dsimp only
      split
      · exact herror (hbadPin hpin)
      · split
        · exact hcode (Statement.unbroken_setPin _ (Text.unbroken_fixed _ _))
        · exact herror (by decide)
    case wait millis => exact hcode (Statement.unbroken_dwell millis)
    case message text =>
      exact hcode (Statement.unbroken_message (haction text List.mem_cons_self))
    case comment text =>
      exact hcode (Statement.unbroken_comment (haction text List.mem_cons_self))
    case initialization on => exact hcode (by cases on <;> decide)
    case customCode text isDeclaration =>
      cases isDeclaration with
      | true => exact List.forall_mem_nil _
      | false => exact hcode (haction text List.mem_cons_self)
    case rotation | axes | externalAxis | defineTool | attachTool | detachTool =>
      exact hdiagnostic trivial
    case motionMode | referenceFrame | pushSettings => exact List.forall_mem_nil _

/-- The preamble holds custom code, which is a text of the action. -/
theorem unbroken_preambleEntries {v : Visit Float} (haction : v.action.command.Unbroken) :
    ∀ e ∈ preambleEntries v, e.Unbroken Statement.text := by
  rw [preambleEntries]
  split
  · rename_i text _ hc
    have htext : Text.Unbroken text := by
      rw [hc] at haction
      exact haction text List.mem_cons_self
    exact List.forall_mem_singleton.mpr ⟨haction, List.forall_mem_singleton.mpr htext⟩
  · exact List.forall_mem_nil _

/-- Whether everything in a program stands on one line. -/
structure Unbroken (draft : Draft) : Prop where
  preamble : ∀ e ∈ draft.preamble, e.Unbroken Statement.text
  body : ∀ e ∈ draft.body, e.Unbroken Statement.text

/-- At the start nothing is written. -/
theorem unbroken_start (origin : Float) : (start origin).Unbroken :=
  ⟨List.forall_mem_nil _, List.forall_mem_nil _⟩

/-- **A step writes unbroken lines for an action with unbroken texts.** -/
theorem unbroken_step {draft : Draft} (h : draft.Unbroken) (d : Decimals) {v : Visit Float}
    (haction : v.action.command.Unbroken) : (step d draft v).Unbroken where
  preamble := List.forall_mem_append.mpr ⟨h.preamble, unbroken_preambleEntries haction⟩
  body := List.forall_mem_append.mpr ⟨h.body, unbroken_bodyEntries d _ haction⟩

end Draft

/-- Programs of actions with unbroken texts are unbroken. -/
theorem unbroken_draft (d : Decimals) (origin : Float) {visits : List (Visit Float)}
    (h : ∀ v ∈ visits, v.action.command.Unbroken) : (draft d origin visits).Unbroken :=
  Program.foldl_invariant Draft.Unbroken (·.action.command.Unbroken)
    (fun _ hdraft _ hv => Draft.unbroken_step hdraft d hv) (Draft.unbroken_start origin) h

end GCode

end RobotMotion
