import RobotMotion.Proofs.Cursor.Rehearsal
import RobotMotion.Proofs.Fleet.Run
import RobotMotion.Proofs.Program.Declarations
import RobotMotion.Proofs.Program.Registers
import RobotMotion.Proofs.Program.Steps.Rapid

/-!
# Acceleration in RAPID and G-code

Neither dialect passes an acceleration with a motion. A program sets it where it is chosen
and where settings are taken back of which it differs, which is where visits tell it
(`Visit.retuned?`). So from the first time that it is set it is that of the device at every
motion, and before that the device still has the acceleration of the start
(`Cursor.acceleration_followed`).

Nothing is set at the start. A cursor that starts with no acceleration leaves it to the
controller, as the program does; one that starts with another moves without it
(`Fleet.not_accelerationStated_startedFast`).
-/

namespace RobotMotion

open Decimal (Same)
open Program (AtMotions Entry Register)

/-! ### RAPID -/

namespace Rapid

/-- The limit for accelerations that a module sets. -/
def limit (d : Decimals) : Register Statement Float where
  setting := accelerationLimit d
  sets := fun
    | .accelerationLimit _ => true
    | _ => false

variable {d : Decimals}

theorem accelerationLimit_of_same {a b : Float} (h : Same a b) :
    accelerationLimit d a = accelerationLimit d b := by
  rcases h with rfl | h
  · rfl
  · have hpositive : a > 0.0 ↔ b > 0.0 := Decimal.lt_congr_of_beq h 0.0
    simp only [accelerationLimit, Decimal.fixed_thousandth_of_beq h, hpositive]

/-- A motion sets no limit. -/
theorem settings_limit_motion (draft : Draft) (inlineTargets : Bool) (v : Visit Float)
    (kind : MoveKind) (target? : Option Target) :
    (limit d).settings (draft.motion d inlineTargets v kind target?).body =
      (limit d).settings draft.body := by
  cases target? with
  | none => exact Register.settings_concat_of_nil rfl
  | some target =>
    simp only [Draft.motion, Draft.speedName, Draft.zoneName_eq]
    cases inlineTargets <;> exact Register.settings_concat_of_nil rfl

/-- **A step sets the limit to the acceleration that its visit tells.** -/
theorem settings_limit_step (inlineTargets : Bool) (draft : Draft) (v : Visit Float) :
    (limit d).settings (draft.step d inlineTargets v).body =
      (limit d).settings draft.body ++
        ((v.retuned? .acceleration).map (accelerationLimit d)).toList := by
  cases ha : v.applied with
  | false =>
    simp only [Draft.step, ha, Bool.not_false, if_true, Visit.retuned?_of_rejected ha]
    exact Register.settings_concat rfl
  | true =>
    simp only [Draft.step, ha, Bool.not_true, Bool.false_eq_true, if_false]
    rw [Visit.retuned?_of_applied ha]
    generalize hc : v.action.command = command
    cases command <;> dsimp only
    case translation | rotation | transformation | axes =>
      rw [settings_limit_motion]
      exact (List.append_nil _).symm
    case setting which value relative =>
      cases which with
      | acceleration => exact Register.settings_concat rfl
      | extrusionRate => exact Register.settings_concat rfl
      | speed | precision => exact (List.append_nil _).symm
    case popSettings =>
      cases v.device.stack.beforePop with
      | none => exact (List.append_nil _).symm
      | some before =>
        dsimp only
        by_cases hchanged : (before.acceleration != v.state.settings.acceleration) = true
        · rw [if_pos hchanged, if_pos (by exact hchanged)]
          exact Register.settings_concat rfl
        · rw [if_neg hchanged, if_neg (by exact hchanged)]
          exact (List.append_nil _).symm
    case writeDigital pin on toolPin =>
      split <;> exact Register.settings_concat rfl
    case writeAnalog pin value toolPin =>
      split <;> exact Register.settings_concat rfl
    case customCode text isDeclaration =>
      cases isDeclaration with
      | true => exact (List.append_nil _).symm
      | false => exact Register.settings_concat rfl
    case wait | comment | message | temperature | extrusion | initialization =>
      exact Register.settings_concat rfl
    case motionMode | referenceFrame | pushSettings | externalAxis | defineTool | attachTool
        | detachTool =>
      exact (List.append_nil _).symm

/-- The limit of a module follows the acceleration of the device. -/
theorem limit_follows (d : Decimals) (inlineTargets : Bool) (device : Device Float)
    (actions : List (Action Float)) :
    AtMotions (targeting d).moves (fun visits => (draft d inlineTargets visits).body)
      (device.visits actions)
      ((limit d).Follows (.setting .acceleration) device.state.settings.acceleration) :=
  Register.follows (settings_limit_step inlineTargets) (fun _ _ => accelerationLimit_of_same) rfl
    (Program.Targeting.atMotions (Draft.step_sheetWrites d) rfl inlineTargets _)

/-- At each motion of the module of some visits the acceleration is limited to that of the
device. A module that did not set a limit yet left the acceleration to the controller, as
for zero. -/
def AccelerationStated (d : Decimals) (inlineTargets : Bool) (visits : List (Visit Float)) :
    Prop :=
  AtMotions (targeting d).moves (fun visits => (draft d inlineTargets visits).body) visits
    fun before s => (limit d).inForce 0.0 before = (limit d).setting s.settings.acceleration

end Rapid

/-! ### G-code -/

namespace GCode

/-- The acceleration that a program sets. -/
def acceleration (d : Decimals) : Register Statement Float where
  setting x := .acceleration (Decimal.fixed x d.mm)
  sets := fun
    | .acceleration _ => true
    | _ => false

/-- Whether a statement is a move. -/
def Statement.isMove : Statement → Bool
  | .work .. | .travel .. => true
  | _ => false

variable {d : Decimals}

theorem acceleration_of_same {a b : Float} (h : Same a b) :
    (acceleration d).setting a = (acceleration d).setting b := by
  rcases h with rfl | h
  · rfl
  · exact congrArg Statement.acceleration (Decimal.fixed_of_beq h d.mm)

/-- **The code of a visit sets the acceleration that the visit tells.** -/
theorem settings_bodyEntries (origin : Float) (v : Visit Float) :
    (acceleration d).settings (Draft.bodyEntries d origin v) =
      ((v.retuned? .acceleration).map (acceleration d).setting).toList := by
  cases ha : v.applied with
  | false =>
    simp only [Draft.bodyEntries, ha, Bool.not_false, if_true, Visit.retuned?_of_rejected ha]
    rfl
  | true =>
    simp only [Draft.bodyEntries, ha, Bool.not_true, Bool.false_eq_true, if_false]
    rw [Visit.retuned?_of_applied ha]
    generalize hc : v.action.command = command
    cases command <;> dsimp only
    case translation | transformation =>
      cases v.state.position with
      | none => rfl
      | some position =>
        dsimp only [Draft.move]
        cases v.state.settings.motion <;> rfl
    case setting which value relative => cases which <;> rfl
    case popSettings =>
      cases v.device.stack.beforePop with
      | none => rfl
      | some before =>
        dsimp only
        by_cases hchanged : (before.acceleration != v.state.settings.acceleration) = true
        · rw [if_pos hchanged, if_pos (by exact hchanged)]
          rfl
        · rw [if_neg hchanged, if_neg (by exact hchanged)]
          rfl
    case writeDigital pin on toolPin => split <;> rfl
    case writeAnalog pin value toolPin =>
      split
      · rfl
      · split <;> rfl
    case initialization on => cases on <;> rfl
    case customCode text isDeclaration => cases isDeclaration <;> rfl
    all_goals rfl

/-- **A move is written for a motion that was carried out, and nothing else is.** For other
visits no move is written. -/
theorem bodyEntries_cases (origin : Float) (v : Visit Float) :
    (v.applied = true ∧ v.action.command.isMotion = true ∧
        ∃ statement, Draft.bodyEntries d origin v = [.code v.action [statement]]) ∨
      (Draft.bodyEntries d origin v).any (·.statements.any Statement.isMove) = false := by
  cases ha : v.applied with
  | false =>
    simp only [Draft.bodyEntries, ha, Bool.not_false, if_true]
    exact .inr rfl
  | true =>
    simp only [Draft.bodyEntries, ha, Bool.not_true, Bool.false_eq_true, if_false]
    generalize hc : v.action.command = command
    cases command
    case translation | transformation =>
      cases v.state.position with
      | none => exact .inr rfl
      | some position => exact .inl ⟨trivial, rfl, _, rfl⟩
    case setting which value relative => cases which <;> exact .inr rfl
    case popSettings =>
      dsimp only
      split
      · split <;> exact .inr rfl
      · exact .inr rfl
    case writeDigital pin on toolPin =>
      dsimp only
      split <;> exact .inr rfl
    case writeAnalog pin value toolPin =>
      dsimp only
      split
      · exact .inr rfl
      · split <;> exact .inr rfl
    case initialization on => cases on <;> exact .inr rfl
    case customCode text isDeclaration => cases isDeclaration <;> exact .inr rfl
    all_goals exact .inr rfl

theorem bodyEntries_eq_of_isMove {origin : Float} {v : Visit Float} {e : Entry Statement}
    (he : e ∈ Draft.bodyEntries d origin v) (hmove : e.statements.any Statement.isMove = true) :
    Draft.bodyEntries d origin v = [e] ∧ v.applied = true ∧ v.action.command.isMotion = true ∧
      ∃ statement, e = .code v.action [statement] := by
  rcases bodyEntries_cases (d := d) origin v with ⟨happlied, hmotion, statement, hbody⟩ | hnone
  · rw [hbody] at he ⊢
    obtain rfl := List.mem_singleton.mp he
    exact ⟨rfl, happlied, hmotion, statement, rfl⟩
  · exact absurd hmove (List.any_eq_false.mp hnone e he)

/-- The acceleration of a program follows that of the device. -/
theorem acceleration_follows (d : Decimals) (origin : Float) (device : Device Float)
    (actions : List (Action Float)) :
    AtMotions Statement.isMove (fun visits => (draft d origin visits).body)
      (device.visits actions)
      ((acceleration d).Follows (.setting .acceleration) device.state.settings.acceleration) := by
  refine Register.follows (fun draft v => ?_) (fun _ _ => acceleration_of_same) rfl ?_
  · rw [Draft.step, Register.settings_append, settings_bodyEntries]
    rfl
  -- a move stands alone in what its visit adds, so it is that of a visit
  · intro before entry after hbody hmoves
    obtain ⟨past, v, future, hvisits, hbefore, happlied, hmotion, statement, hentry⟩ :=
      Program.exists_visit_of_entry Draft.body (·.statements.any Statement.isMove = true)
        (fun v e => v.applied = true ∧ v.action.command.isMotion = true ∧
          ∃ statement, e = .code v.action [statement])
        (fun draft v => ⟨_, rfl, fun e he => bodyEntries_eq_of_isMove he⟩)
        (fun e he => absurd he List.not_mem_nil) hbody hmoves
    exact ⟨past, v, future, statement, hvisits, happlied, hmotion, hbefore, hentry, trivial⟩

/-- Code that goes in front of a program sets no acceleration. -/
theorem settings_preamble (d : Decimals) (origin : Float) (visits : List (Visit Float)) :
    (acceleration d).settings (draft d origin visits).preamble = [] := by
  induction visits using List.reverseRecOn with
  | nil => rfl
  | append_singleton past v ih =>
    have hadded : (acceleration d).settings (Draft.preambleEntries v) = [] := by
      rw [Draft.preambleEntries]
      split <;> rfl
    rw [draft, List.foldl_concat, Draft.step, Register.settings_append, hadded, List.append_nil]
    exact ih

/-- At each move of the program of some visits the acceleration is that of the device. A
program that did not set it yet left it to the controller, as zero does. -/
def AccelerationStated (d : Decimals) (origin : Float) (visits : List (Visit Float)) : Prop :=
  AtMotions Statement.isMove (fun visits => (draft d origin visits).body) visits
    fun before s =>
      (acceleration d).inForce 0.0 before = (acceleration d).setting s.settings.acceleration

end GCode

/-! ### Both -/

/-- **Acceleration follows the device from where it is set first.** A module and a G-code
program consist of the lines that are listed. Take any motion in the main procedure of the
module, or any move in the body of the G-code program. It is that of a visit, and the last
acceleration that is set before it is the one that this visit has. None is set before it only
where the present acceleration is still the same as at the start. So if the program starts with
an acceleration that is set as zero is, which leaves it to the controller, the acceleration is
right at every motion. -/
theorem Cursor.acceleration_followed (c : Cursor Float) (d : Decimals) (time name : String)
    (options : ProgramOptions) :
    let start := c.device.state.settings.acceleration
    let visits := c.visits options.blockOnly
    (let written := Rapid.draft d options.inlineTargets visits
      let body (visits : List (Visit Float)) := (Rapid.draft d options.inlineTargets visits).body
      let look (indent : Nat) : Program.Look :=
        ⟨Rapid.comment, Rapid.dialect, options.comments, indent⟩
      (Dialect.rapid.program d time name options c).lines =
        Program.header time Rapid.comment (Program.safeName name) Rapid.dialect ++
          ["", "MODULE " ++ Program.safeName name, ""] ++
          (written.speeds.entries.map fun e =>
            "  CONST speeddata " ++ e.1 ++ " := " ++ e.2 ++ ";") ++
          (written.zones.entries.map fun e =>
            "  CONST zonedata " ++ e.1 ++ " := " ++ e.2 ++ ";") ++
          ((visits.flatMap Visit.definedTool).map fun t =>
            "  PERS tooldata " ++ (Rapid.toolDeclaration d t).name ++ " := " ++
              (Rapid.toolDeclaration d t).data ++ ";") ++
          (look 2).lines Rapid.TargetDeclaration.text written.targets ++
          Rapid.customLines visits ++
          ["", "  PROC main()", "    ConfJ \\Off;", "    ConfL \\Off;", ""] ++
          (look 4).lines Rapid.Statement.text (body visits) ++
          ["  ENDPROC", "", "ENDMODULE"] ∧
      AtMotions (Rapid.targeting d).moves body visits
        ((Rapid.limit d).Follows (.setting .acceleration) start) ∧
      ((Rapid.limit d).setting start = (Rapid.limit d).setting 0.0 →
        Rapid.AccelerationStated d options.inlineTargets visits)) ∧
    (let origin := c.device.state.extruded
      let body (visits : List (Visit Float)) := (GCode.draft d origin visits).body
      let look : Program.Look := ⟨GCode.comment, GCode.dialect, options.comments, 0⟩
      (Dialect.gcode.program d time name options c).lines =
        Program.header time GCode.comment (Program.safeName name) GCode.dialect ++
          ["", "G21 ; millimetres", "G90 ; absolute positioning", "M82 ; absolute extrusion"] ++
          look.lines GCode.Statement.text (GCode.draft d origin visits).preamble ++ [""] ++
          look.lines GCode.Statement.text (body visits) ∧
      (GCode.acceleration d).settings (GCode.draft d origin visits).preamble = [] ∧
      AtMotions GCode.Statement.isMove body visits
        ((GCode.acceleration d).Follows (.setting .acceleration) start) ∧
      ((GCode.acceleration d).setting start = (GCode.acceleration d).setting 0.0 →
        GCode.AccelerationStated d origin visits)) := by
  intro start visits
  have hvisits : visits = c.device.visits (c.rehearsal options.blockOnly).queue.pending :=
    c.visits_eq_rehearsal options.blockOnly
  refine ⟨?_, ?_⟩
  · have hfollows := Rapid.limit_follows d options.inlineTargets c.device
      (c.rehearsal options.blockOnly).queue.pending
    rw [← hvisits] at hfollows
    refine ⟨Rapid.lines_module c d time name options, hfollows, fun hstart => ?_⟩
    exact hfollows.imp fun before s h =>
      h.inForce_eq (fun _ _ => Rapid.accelerationLimit_of_same) hstart
  · have hfollows := GCode.acceleration_follows d c.device.state.extruded c.device
      (c.rehearsal options.blockOnly).queue.pending
    rw [← hvisits] at hfollows
    refine ⟨rfl, GCode.settings_preamble d _ _, hfollows, fun hstart => ?_⟩
    exact hfollows.imp fun before s h =>
      h.inForce_eq (fun _ _ => GCode.acceleration_of_same) hstart

namespace Fleet

/-- Requests that choose an acceleration between brackets, and move within and after them. -/
def hurriedBetween : List (Operation Float) :=
  [.add "arm" false none [], .start 0 .origin .standard, .issue 0 ⟨1, .pushSettings⟩,
    .issue 0 ⟨2, .setting .acceleration 500 false⟩, .issue 0 ⟨3, .translation ⟨10, 0, 0⟩ true⟩,
    .issue 0 ⟨4, .popSettings⟩, .issue 0 ⟨5, .translation ⟨10, 0, 0⟩ true⟩]

/-- The arm starts without an acceleration, so after the brackets the limit is lifted. -/
theorem acceleration_followed_hurriedBetween :
    ∃ c, (empty.run hurriedBetween).cursor? 0 = some c ∧
      ∃ before entry after, (Rapid.draft .standard true (c.visits false)).body =
          before ++ entry :: after ∧ entry.action?.map (·.id) = some 5 ∧
        (Rapid.limit .standard).inForce 0.0 before = .accelerationLimit none := by
  have hcomputed : ((empty.run hurriedBetween).cursor? 0).map (fun c =>
      (c.device.state.settings.acceleration == 0.0,
        (Rapid.draft .standard true (c.visits false)).body.any
          (Program.isMotionOf (Rapid.targeting .standard).moves 5),
        (c.visits false).all fun v => v.action.id ≠ 5 || v.state.settings.acceleration == 0.0)) =
      some (true, true, true) := by
    decide +kernel
  obtain ⟨c, hc, hread⟩ := Option.map_eq_some_iff.mp hcomputed
  obtain ⟨hstart, hread⟩ := Prod.mk.inj hread
  obtain ⟨hany, hzero⟩ := Prod.mk.inj hread
  have hstated : Rapid.AccelerationStated .standard true (c.visits false) :=
    (c.acceleration_followed .standard "" "" .standard).1.2.2
      (Rapid.accelerationLimit_of_same (.inr hstart))
  obtain ⟨before, entry, after, hbody, hid, v, hv, hfive, hlimit⟩ := hstated.of_isMotionOf hany
  refine ⟨c, hc, before, entry, after, hbody, hid, ?_⟩
  have hlifted : (Rapid.limit .standard).setting 0.0 = .accelerationLimit none :=
    congrArg _ (if_neg (by decide))
  have hpresent := List.all_eq_true.mp hzero v hv
  rw [hfive] at hpresent
  rw [hlimit, ← hlifted]
  exact Rapid.accelerationLimit_of_same (.inr hpresent)

/-- Requests that start a cursor with an acceleration, and move. -/
def startedFast : List (Operation Float) :=
  [.add "arm" false none [], .start 0 .origin { Settings.standard with acceleration := 500 },
    .issue 0 ⟨1, .translation ⟨10, 0, 0⟩ true⟩]

/-- **An acceleration from the start is not stated**, in neither dialect: no acceleration is
set before the motion, which is made with the one of the start. -/
theorem not_accelerationStated_startedFast :
    ∃ c, (empty.run startedFast).cursor? 0 = some c ∧
      ((Dialect.rapid.program .standard "" "job" .standard c).lines.filter fun line =>
        line.startsWith "    Move" || line.startsWith "    WorldAccLim") =
          ["    MoveL [[10.000,0.000,0.000],[1.000000,0.000000,0.000000,0.000000],[0,0,0,0]," ++
            "[9E9,9E9,9E9,9E9,9E9,9E9]], vel0, zone0, tool0\\WObj:=WObj0;"] ∧
      ((Dialect.gcode.program GCode.decimals "" "job" .standard c).lines.filter fun line =>
        line.startsWith "G1 " || line.startsWith "M204") =
          ["G1 X10.000 Y0.000 Z0.000 F1200"] ∧
      ¬ Rapid.AccelerationStated .standard true (c.visits false) ∧
      ¬ GCode.AccelerationStated GCode.decimals c.device.state.extruded (c.visits false) := by
  have hprograms : ((empty.run startedFast).cursor? 0).map (fun c =>
      ((Dialect.rapid.program .standard "" "job" .standard c).lines.filter (fun line =>
          line.startsWith "    Move" || line.startsWith "    WorldAccLim"),
        (Dialect.gcode.program GCode.decimals "" "job" .standard c).lines.filter (fun line =>
          line.startsWith "G1 " || line.startsWith "M204"))) =
      some (["    MoveL [[10.000,0.000,0.000],[1.000000,0.000000,0.000000,0.000000],[0,0,0,0]," ++
          "[9E9,9E9,9E9,9E9,9E9,9E9]], vel0, zone0, tool0\\WObj:=WObj0;"],
        ["G1 X10.000 Y0.000 Z0.000 F1200"]) := by
    decide +kernel
  have hcomputed : ((empty.run startedFast).cursor? 0).map (fun c =>
      let rapid := (Rapid.draft .standard true (c.visits false)).body
      let gcode := (GCode.draft GCode.decimals c.device.state.extruded (c.visits false)).body
      (rapid.any (·.statements.any (Rapid.targeting .standard).moves),
        ((Rapid.limit .standard).settings rapid).length,
        gcode.any (·.statements.any GCode.Statement.isMove),
        ((GCode.acceleration GCode.decimals).settings gcode).length,
        (c.visits false).all (·.state.settings.acceleration == 500.0))) =
      some (true, 0, true, 0, true) := by
    decide +kernel
  obtain ⟨c, hc, hread⟩ := Option.map_eq_some_iff.mp hcomputed
  simp only [Prod.mk.injEq, List.length_eq_zero_iff] at hread
  obtain ⟨hrapid, hnolimit, hgcode, hnone, hfast⟩ := hread
  have hpresent {v : Visit Float} (hv : v ∈ c.visits false) :
      Same v.state.settings.acceleration 500.0 := .inr (List.all_eq_true.mp hfast v hv)
  rw [hc] at hprograms
  obtain ⟨hmodule, hmoves⟩ := Prod.mk.inj (Option.some.inj hprograms)
  refine ⟨c, hc, hmodule, hmoves, fun hstated => ?_, fun hstated => ?_⟩
  · obtain ⟨v, hv, hzero⟩ := Register.setting_eq_of_unset hstated hrapid hnolimit
    have hsame := hzero.trans (Rapid.accelerationLimit_of_same (hpresent hv))
    exact absurd (congrArg Rapid.Statement.text hsame) (by decide +kernel)
  · obtain ⟨v, hv, hzero⟩ := Register.setting_eq_of_unset hstated hgcode hnone
    have hsame := hzero.trans (GCode.acceleration_of_same (hpresent hv))
    exact absurd (congrArg GCode.Statement.text hsame) (by decide +kernel)

end Fleet

end RobotMotion
