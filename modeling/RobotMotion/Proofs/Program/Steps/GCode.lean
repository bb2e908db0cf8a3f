import RobotMotion.Proofs.Program.Origin

/-!
# Steps of a G-code program

G-code writes its targets in place, so there are no declarations of them. A step writes at
most one entry into the body and at most one in front of the program, each about its visit
(`Draft.step_body`, `Draft.step_preamble`).
-/

namespace RobotMotion.GCode.Draft

open Program (Entry Share share_nil)

theorem share_bodyEntries (d : Decimals) (origin : Float) (v : Visit Float) :
    Share v (bodyEntries d origin v) := by
  have hdiagnostic (what : Program.Diagnostic) :
      Share v [(.diagnostic v.action what : Entry Statement)] := (Entry.About.diagnostic what).share
  cases ha : v.applied with
  | false =>
    simp only [bodyEntries, ha, Bool.not_false, if_true]
    exact hdiagnostic .failed
  | true =>
    have hcode (s : Statement) : Share v [(.code v.action [s] : Entry Statement)] :=
      (Entry.About.code ha _).share
    simp only [bodyEntries, ha, Bool.not_true, Bool.false_eq_true, if_false]
    generalize v.action.command = command
    cases command
    case translation | transformation =>
      cases v.state.position with
      | none => exact hdiagnostic _
      | some position => exact hcode _
    case setting which value relative =>
      cases which with
      | acceleration => exact hcode _
      | speed | precision | extrusionRate => exact share_nil v
    case popSettings =>
      dsimp only
      split
      · split
        · exact hcode _
        · exact share_nil v
      · exact share_nil v
    case writeDigital pin on toolPin =>
      dsimp only
      split
      · exact hcode _
      · exact hdiagnostic _
    case writeAnalog pin value toolPin =>
      dsimp only
      split
      · exact hdiagnostic _
      · split
        · exact hcode _
        · exact hdiagnostic _
    case customCode text isDeclaration =>
      cases isDeclaration with
      | true => exact share_nil v
      | false => exact hcode _
    case extrusion | temperature | wait | message | comment | initialization => exact hcode _
    case rotation | axes | externalAxis | defineTool | attachTool | detachTool =>
      exact hdiagnostic _
    case motionMode | referenceFrame | pushSettings => exact share_nil v

theorem share_preambleEntries (v : Visit Float) : Share v (preambleEntries v) := by
  rw [preambleEntries]
  split
  · rename_i text happlied _
    exact (Entry.About.code happlied _).share
  · exact share_nil v

/-- **What a step writes is about its visit.** -/
theorem step_body (d : Decimals) (draft : Draft) (v : Visit Float) :
    ∃ added, (step d draft v).body = draft.body ++ added ∧ Share v added :=
  ⟨_, rfl, share_bodyEntries d draft.origin v⟩

/-- So is what it puts in front of the program. -/
theorem step_preamble (d : Decimals) (draft : Draft) (v : Visit Float) :
    ∃ added, (step d draft v).preamble = draft.preamble ++ added ∧ Share v added :=
  ⟨_, rfl, share_preambleEntries v⟩

end RobotMotion.GCode.Draft
