import RobotMotion.Proofs.Cursor.Rehearsal
import RobotMotion.Proofs.Program.Steps.Krl
import RobotMotion.Proofs.Program.Steps.Rapid
import RobotMotion.Proofs.Program.Steps.UrScript

/-!
# Programs with named targets

Whether targets are named or written in place, the program of a cursor is the same, in
each of the three dialects that can do both (`Cursor.targets_alike`).
-/

namespace RobotMotion

open Program (Part)

/-- **Named targets and targets in place describe the same program.** In each dialect the
targets are those of the motions that are carried out, one for each, in their order. The
program with named targets declares these, numbered from zero, and no others; its motions
are those of the program with targets in place, each with the name of its target in the
place of the text that is declared under this name. All other lines of the bodies are the
same, and so is whatever else is declared. This is so for any cursor, in use or not. -/
theorem Cursor.targets_alike (c : Cursor Float) (d : Decimals) (blockOnly : Bool)
    (comments : CommentMode) (time name : String) :
    let visits := c.visits blockOnly
    let motions := (visits.filter fun v => v.applied && v.action.command.isMotion).map (·.action)
    let options (inlineTargets : Bool) : ProgramOptions := ⟨blockOnly, inlineTargets, comments⟩
    let lines (dialect : Dialect) (inlineTargets : Bool) : List String :=
      (dialect.program d time name (options inlineTargets) c).lines
    (let goals := (Rapid.targeting d).goals visits
      let draft (inlineTargets : Bool) := Rapid.draft d inlineTargets visits
      goals.map Prod.fst = motions ∧
        (Rapid.targeting d).Alike goals (draft true).sheet (draft false).sheet ∧
        (draft false).rest = (draft true).rest ∧
        ∀ inlineTargets, lines .rapid inlineTargets =
          (Rapid.parts time (Program.safeName name) (options inlineTargets)
            (draft inlineTargets)).flatMap Part.lines) ∧
      (let goals := (Krl.targeting d).goals visits
        let draft (inlineTargets : Bool) :=
          Krl.draft d inlineTargets c.device.state.settings visits
        goals.map Prod.fst = motions ∧
          (Krl.targeting d).Alike goals (draft true).sheet (draft false).sheet ∧
          ∀ inlineTargets, lines .krl inlineTargets =
            (Krl.parts time (Program.safeName name) (options inlineTargets)
              (draft inlineTargets)).flatMap Part.lines) ∧
      (let goals := (UrScript.targeting d).goals visits
        let draft (inlineTargets : Bool) := UrScript.draft d inlineTargets visits
        goals.map Prod.fst = motions ∧
          (UrScript.targeting d).Alike goals (draft true).sheet (draft false).sheet ∧
          ∀ inlineTargets, lines .urscript inlineTargets =
            (UrScript.parts time (Program.safeName name) (options inlineTargets)
              (draft inlineTargets)).flatMap Part.lines) := by
  intro visits motions options lines
  have hgoals {σ δ τ : Type} (T : Program.Targeting σ δ τ) :
      (T.goals visits).map Prod.fst = motions := by
    simp only [visits, motions, c.visits_eq_rehearsal]
    exact T.map_fst_goals _ _
  have hlines (dialect : Dialect) (inlineTargets : Bool) :
      lines dialect inlineTargets =
        (dialect.parts d time name (options inlineTargets) c).flatMap Part.lines :=
    dialect.lines_program d time name (options inlineTargets) c
  refine ⟨⟨hgoals _, ?_, ?_, hlines .rapid⟩, ⟨hgoals _, ?_, hlines .krl⟩,
    ⟨hgoals _, ?_, hlines .urscript⟩⟩
  · exact (Rapid.alike_draft d visits).1
  · exact (Rapid.alike_draft d visits).2
  · exact Krl.alike_draft d c.device.state.settings visits
  · exact UrScript.alike_draft d visits

end RobotMotion
