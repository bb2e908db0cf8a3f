import RobotMotion.Proofs.Cursor.Rehearsal
import RobotMotion.Proofs.Fleet.Run
import RobotMotion.Proofs.Program.Registers
import RobotMotion.Proofs.Program.Steps.Krl
import RobotMotion.Proofs.Program.Steps.UrScript

/-!
# Tool frames in KRL and URScript

The targets of both dialects are poses of the tool center point, so the controller has to
know the tool. A program binds it where it is attached or detached, which is where visits
tell it (`Visit.retooled?`). So from the first time that a tool is bound it is the one
attached at every motion, and before that it is still the one of the start
(`Cursor.tool_bound`).

Nothing is bound at the start. A cursor that starts without a tool fits the null frame of
the controller; one that carries a tool already writes targets for a tool that the program
does not bind (`Fleet.not_toolBound_mountedBefore`).
-/

namespace RobotMotion

open Program (AtMotions Entry Register)

/-! ### KRL -/

namespace Krl

/-- The tool that a program binds: its frame, or the null frame. -/
def boundTool (d : Decimals) : Register Statement (Option (Tool Float)) where
  setting tool := .tool (tool.map fun t => frame d t.tcpPosition t.tcpOrientation)
  sets := fun
    | .tool _ => true
    | _ => false

variable {d : Decimals}

/-- A motion binds no tool. -/
theorem settings_boundTool_motion (draft : Draft) (inlineTargets : Bool) (v : Visit Float)
    {move : Program.Place Target → Bool → Statement}
    (hmove : move = .moveLinear ∨ move = .movePoint) (target? : Option Target) :
    (boundTool d).settings (draft.motion inlineTargets v move target?).body =
      (boundTool d).settings draft.body := by
  cases target? with
  | none => exact Register.settings_concat_of_nil rfl
  | some target =>
    obtain rfl | rfl := hmove <;> cases inlineTargets <;>
      exact Register.settings_concat_of_nil rfl

/-- Assignments of settings bind no tool. -/
theorem settings_boundTool_assign (action : Action Float) (changes : List (SettingChange Float)) :
    (boundTool d).settings [.code action (changes.filterMap (assignment? d))] = [] := by
  rw [Register.settings, List.flatMap_singleton]
  refine List.filter_eq_nil_iff.mpr fun statement hmem => ?_
  obtain ⟨change, -, hchange⟩ := List.mem_filterMap.mp hmem
  cases change with
  | quantity which value => cases which <;> cases hchange <;> exact Bool.false_ne_true
  | motion | frame => cases hchange

/-- The settings of the start bind no tool. -/
theorem settings_boundTool_start (settings : Settings Float) :
    (boundTool d).settings (Draft.start d settings).body = [] := by
  rw [Draft.start, initialChanges]
  split <;> rfl

/-- **A step binds the tool that its visit tells.** -/
theorem settings_boundTool_step (inlineTargets : Bool) (draft : Draft) (v : Visit Float) :
    (boundTool d).settings (draft.step d inlineTargets v).body =
      (boundTool d).settings draft.body ++ (v.retooled?.map (boundTool d).setting).toList := by
  cases ha : v.applied with
  | false =>
    simp only [Draft.step, ha, Bool.not_false, if_true, Visit.retooled?_of_rejected ha]
    exact Register.settings_concat rfl
  | true =>
    simp only [Draft.step, ha, Bool.not_true, Bool.false_eq_true, if_false]
    rw [Visit.retooled?_of_applied ha]
    generalize hc : v.action.command = command
    cases command <;> dsimp only
    case attachTool name =>
      cases v.state.tool <;> exact Register.settings_concat rfl
    case detachTool => exact Register.settings_concat rfl
    case translation | rotation | transformation =>
      rw [settings_boundTool_motion]
      · exact (List.append_nil _).symm
      · cases v.state.settings.motion with
        | linear => exact .inl rfl
        | joint => exact .inr rfl
    case axes =>
      rw [settings_boundTool_motion draft inlineTargets v (.inr rfl)]
      exact (List.append_nil _).symm
    case setting which value relative =>
      cases which <;> exact Register.settings_concat rfl
    case popSettings =>
      cases v.device.stack.beforePop with
      | none => exact (List.append_nil _).symm
      | some before => exact Register.settings_concat (settings_boundTool_assign _ _)
    case writeDigital pin on toolPin =>
      split <;> exact Register.settings_concat rfl
    case writeAnalog pin value toolPin =>
      split
      · exact Register.settings_concat rfl
      · split <;> exact Register.settings_concat rfl
    case customCode text isDeclaration =>
      cases isDeclaration with
      | true => exact (List.append_nil _).symm
      | false => exact Register.settings_concat rfl
    case wait | comment | message | temperature | extrusion | initialization =>
      exact Register.settings_concat rfl
    case motionMode | referenceFrame | pushSettings | externalAxis | defineTool =>
      exact (List.append_nil _).symm

/-- The bound tool of a program follows the tool of the device. -/
theorem boundTool_follows (d : Decimals) (inlineTargets : Bool) (settings : Settings Float)
    (device : Device Float) (actions : List (Action Float)) :
    AtMotions (targeting d).moves (fun visits => (draft d inlineTargets settings visits).body)
      (device.visits actions) ((boundTool d).Follows .tool device.state.tool) := by
  have hstart : (targeting d).motions (Draft.start d settings).sheet.body = [] :=
    motions_start d settings
  exact Register.follows (settings_boundTool_step inlineTargets) (fun _ _ h => by rw [h])
    (settings_boundTool_start settings)
    (Program.Targeting.atMotions (fun _ v => Draft.step_sheetWrites d v) hstart inlineTargets _)

/-- At each motion of the program of some visits the attached tool is bound. A program that
bound no tool yet has the null frame. -/
def ToolBound (d : Decimals) (inlineTargets : Bool) (settings : Settings Float)
    (visits : List (Visit Float)) : Prop :=
  AtMotions (targeting d).moves (fun visits => (draft d inlineTargets settings visits).body) visits
    fun before s => (boundTool d).inForce none before = (boundTool d).setting s.tool

end Krl

/-! ### URScript -/

namespace UrScript

/-- The tool center point that a program binds: that of a tool, or the null frame. -/
def boundTool (d : Decimals) : Register Statement (Option (Tool Float)) where
  setting
    | some tool => .setTcp (pose d tool.tcpPosition tool.tcpOrientation)
    | none => .setTcp (pose d Vector3.zero Rotation.identity)
  sets := fun
    | .setTcp _ => true
    | _ => false

variable {d : Decimals}

/-- A motion binds no tool. -/
theorem settings_boundTool_motion (draft : Draft) (inlineTargets : Bool) (v : Visit Float)
    {move : Program.Place Target → Statement}
    (hmove : (∃ blend, move = (.moveJoint · blend)) ∨
      ∃ acceleration speed blend, move = (.moveLinear · acceleration speed blend))
    (target? : Option Target) :
    (boundTool d).settings (draft.motion inlineTargets v move target?).body =
      (boundTool d).settings draft.body := by
  cases target? with
  | none => exact Register.settings_concat_of_nil rfl
  | some target =>
    obtain ⟨_, rfl⟩ | ⟨_, _, _, rfl⟩ := hmove <;> cases inlineTargets <;>
      exact Register.settings_concat_of_nil rfl

/-- **A step binds the tool that its visit tells.** -/
theorem settings_boundTool_step (inlineTargets : Bool) (draft : Draft) (v : Visit Float) :
    (boundTool d).settings (draft.step d inlineTargets v).body =
      (boundTool d).settings draft.body ++ (v.retooled?.map (boundTool d).setting).toList := by
  cases ha : v.applied with
  | false =>
    simp only [Draft.step, ha, Bool.not_false, if_true, Visit.retooled?_of_rejected ha]
    exact Register.settings_concat rfl
  | true =>
    simp only [Draft.step, ha, Bool.not_true, Bool.false_eq_true, if_false]
    rw [Visit.retooled?_of_applied ha]
    generalize hc : v.action.command = command
    cases command <;> dsimp only
    case attachTool name =>
      cases v.state.tool <;> exact Register.settings_concat rfl
    case detachTool => exact Register.settings_concat rfl
    case translation | rotation | transformation =>
      rw [settings_boundTool_motion]
      · exact (List.append_nil _).symm
      · cases v.state.settings.motion with
        | linear => exact .inr ⟨_, _, _, rfl⟩
        | joint => exact .inl ⟨_, rfl⟩
    case axes =>
      rw [settings_boundTool_motion draft inlineTargets v (.inl ⟨_, rfl⟩)]
      exact (List.append_nil _).symm
    case setting which value relative =>
      cases which with
      | extrusionRate => exact Register.settings_concat rfl
      | speed | acceleration | precision => exact (List.append_nil _).symm
    case writeDigital pin on toolPin =>
      split <;> exact Register.settings_concat rfl
    case writeAnalog pin value toolPin =>
      cases toolPin with
      | true => exact Register.settings_concat rfl
      | false =>
        dsimp only
        split
        · exact Register.settings_concat rfl
        · split <;> exact Register.settings_concat rfl
    case customCode text isDeclaration =>
      cases isDeclaration with
      | true => exact (List.append_nil _).symm
      | false => exact Register.settings_concat rfl
    case wait | comment | message | temperature | extrusion | initialization =>
      exact Register.settings_concat rfl
    case motionMode | referenceFrame | pushSettings | popSettings | externalAxis | defineTool =>
      exact (List.append_nil _).symm

/-- The bound tool of a program follows the tool of the device. -/
theorem boundTool_follows (d : Decimals) (inlineTargets : Bool) (device : Device Float)
    (actions : List (Action Float)) :
    AtMotions (targeting d).moves (fun visits => (draft d inlineTargets visits).body)
      (device.visits actions) ((boundTool d).Follows .tool device.state.tool) :=
  Register.follows (settings_boundTool_step inlineTargets) (fun _ _ h => by rw [h]) rfl
    (Program.Targeting.atMotions (fun _ v => Draft.step_sheetWrites d v) rfl inlineTargets _)

/-- At each motion of the program of some visits the attached tool is bound. A program that
bound no tool yet has the null frame. -/
def ToolBound (d : Decimals) (inlineTargets : Bool) (visits : List (Visit Float)) : Prop :=
  AtMotions (targeting d).moves (fun visits => (draft d inlineTargets visits).body) visits
    fun before s => (boundTool d).inForce none before = (boundTool d).setting s.tool

end UrScript

/-! ### Both -/

/-- **The bound tool is the attached one from where a tool is bound first.** A program consists
of the lines that are listed. Take any motion in its body. It is that of a visit, and the tool
that is bound last before it is the one attached at this visit, or the null frame where none
is. Nothing is bound before it only where the attached tool is still that of the start. So if
the program starts without a tool, or with one that is bound as the null frame is, the attached
tool is bound at every motion. -/
theorem Cursor.tool_bound (c : Cursor Float) (d : Decimals) (time name : String)
    (options : ProgramOptions) :
    let start := c.device.state.tool
    let visits := c.visits options.blockOnly
    (let settings := c.device.state.settings
      let body (visits : List (Visit Float)) :=
        (Krl.draft d options.inlineTargets settings visits).body
      let look : Program.Look := ⟨Krl.comment, Krl.dialect, options.comments, 2⟩
      let declarations := look.lines Krl.Declaration.text
        (Krl.draft d options.inlineTargets settings visits).declarations
      (Dialect.krl.program d time name options c).lines =
        ["&ACCESS RVP", "&REL 1"] ++
          Program.header time Krl.comment (Program.safeName name) Krl.dialect ++
          ["", "DEF " ++ Program.safeName name ++ "()"] ++
          (if declarations.isEmpty then [] else declarations ++ [""]) ++
          ["  BAS(#INITMOV, 0)"] ++ look.lines Krl.Statement.text (body visits) ++ ["END"] ∧
      AtMotions (Krl.targeting d).moves body visits ((Krl.boundTool d).Follows .tool start) ∧
      ((Krl.boundTool d).setting start = (Krl.boundTool d).setting none →
        Krl.ToolBound d options.inlineTargets settings visits)) ∧
    (let body (visits : List (Visit Float)) :=
        (UrScript.draft d options.inlineTargets visits).body
      let look : Program.Look := ⟨UrScript.comment, UrScript.dialect, options.comments, 2⟩
      let declarations := look.lines UrScript.Declaration.text
        (UrScript.draft d options.inlineTargets visits).declarations
      (Dialect.urscript.program d time name options c).lines =
        Program.header time UrScript.comment (Program.safeName name) UrScript.dialect ++
          ["", "def " ++ Program.safeName name ++ "():"] ++
          (if declarations.isEmpty then [] else declarations ++ [""]) ++
          look.lines UrScript.Statement.text (body visits) ++ ["end"] ∧
      AtMotions (UrScript.targeting d).moves body visits
        ((UrScript.boundTool d).Follows .tool start) ∧
      ((UrScript.boundTool d).setting start = (UrScript.boundTool d).setting none →
        UrScript.ToolBound d options.inlineTargets visits)) := by
  intro start visits
  have hvisits : visits = c.device.visits (c.rehearsal options.blockOnly).queue.pending :=
    c.visits_eq_rehearsal options.blockOnly
  refine ⟨?_, ?_⟩
  · have hfollows := Krl.boundTool_follows d options.inlineTargets c.device.state.settings
      c.device (c.rehearsal options.blockOnly).queue.pending
    rw [← hvisits] at hfollows
    refine ⟨rfl, hfollows, fun hstart => ?_⟩
    exact hfollows.imp fun before s h => h.inForce_eq (fun _ _ h => by rw [h]) hstart
  · have hfollows := UrScript.boundTool_follows d options.inlineTargets c.device
      (c.rehearsal options.blockOnly).queue.pending
    rw [← hvisits] at hfollows
    refine ⟨rfl, hfollows, fun hstart => ?_⟩
    exact hfollows.imp fun before s h => h.inForce_eq (fun _ _ h => by rw [h]) hstart

namespace Fleet

/-- The tool of the following runs. -/
def torch : Tool Float := ⟨"torch", ⟨0, 0, 100⟩, .identity, 1.5, ⟨0, 0, 50⟩⟩

/-- Requests that attach a tool, try to attach one that is not known, move, detach the tool
and move again. -/
def putDown : List (Operation Float) :=
  [.add "arm" false none [torch], .start 0 .origin .standard,
    .issue 0 ⟨1, .attachTool "torch"⟩, .issue 0 ⟨2, .attachTool "lost"⟩,
    .issue 0 ⟨3, .translation ⟨10, 0, 0⟩ true⟩, .issue 0 ⟨4, .detachTool⟩,
    .issue 0 ⟨5, .translation ⟨10, 0, 0⟩ true⟩]

/-- The first motion has the frame of the tool, in spite of the attempt that failed, and the
second one has the null frame again. -/
theorem tool_bound_putDown :
    ∃ c, (empty.run putDown).cursor? 0 = some c ∧
      let body := (Krl.draft .standard true c.device.state.settings (c.visits false)).body
      let stands (id : Nat) (tool : Option (Tool Float)) : Prop :=
        ∃ before entry after, body = before ++ entry :: after ∧
          entry.action?.map (·.id) = some id ∧
          (Krl.boundTool .standard).inForce none before = (Krl.boundTool .standard).setting tool
      stands 3 (some torch) ∧ stands 5 none := by
  have hcomputed : ((empty.run putDown).cursor? 0).map (fun c =>
      let body := (Krl.draft .standard true c.device.state.settings (c.visits false)).body
      (c.device.state.tool,
        [3, 5].map fun id => body.any (Program.isMotionOf (Krl.targeting .standard).moves id),
        (c.visits false).map fun v => (v.action.id, v.state.tool))) =
      some (none, [true, true], [(1, some torch), (2, some torch), (3, some torch),
        (4, none), (5, none)]) := by
    decide +kernel
  obtain ⟨c, hc, hread⟩ := Option.map_eq_some_iff.mp hcomputed
  obtain ⟨hstart, hread⟩ := Prod.mk.inj hread
  obtain ⟨hany, htools⟩ := Prod.mk.inj hread
  obtain ⟨hthird, hrest⟩ := List.cons.inj hany
  obtain ⟨hfifth, -⟩ := List.cons.inj hrest
  have hbound : Krl.ToolBound .standard true c.device.state.settings (c.visits false) :=
    (c.tool_bound .standard "" "" .standard).1.2.2 (by rw [hstart])
  have htool {v : Visit Float} (hv : v ∈ c.visits false) :
      (v.action.id, v.state.tool) ∈ [(1, some torch), (2, some torch), (3, some torch),
        (4, none), (5, none)] := by
    rw [← htools]
    exact List.mem_map_of_mem hv
  refine ⟨c, hc, ?_, ?_⟩
  · obtain ⟨before, entry, after, hbody, hid, v, hv, hthree, hframe⟩ :=
      hbound.of_isMotionOf hthird
    have hattached : v.state.tool = some torch := by simpa [hthree] using htool hv
    exact ⟨before, entry, after, hbody, hid, by rw [hframe, hattached]⟩
  · obtain ⟨before, entry, after, hbody, hid, v, hv, hfive, hframe⟩ :=
      hbound.of_isMotionOf hfifth
    have hdetached : v.state.tool = none := by simpa [hfive] using htool hv
    exact ⟨before, entry, after, hbody, hid, by rw [hframe, hdetached]⟩

/-- Requests that attach a tool at once, and plan a motion after that. -/
def mountedBefore : List (Operation Float) :=
  [.add "arm" false none [torch], .start 0 .origin .standard,
    .issue 0 ⟨1, .attachTool "torch"⟩, .next 0, .issue 0 ⟨2, .translation ⟨10, 0, 0⟩ true⟩]

/-- The KRL program of one motion along a line, from its title on. -/
theorem krl_lines_of_line {c : Cursor Float} {v : Visit Float} (hvisits : c.visits false = [v])
    (happlied : v.applied = true) {delta : Vector3 Float} {relative : Bool}
    (hcommand : v.action.command = .translation delta relative)
    (hstart : c.device.state.settings = Settings.standard)
    (hpresent : v.state.settings = Settings.standard) {target : Krl.Target}
    (htarget : Krl.poseTarget? .standard v.state = some target) :
    (Dialect.krl.program .standard "" "job" .standard c).lines.drop 7 =
      ["", "DEF job()", "  BAS(#INITMOV, 0)", "  $VEL.CP = 0.020", "  $APO.CDIS = 5.000", "",
        "  LIN " ++ target.text ++ " C_DIS", "END"] := by
  let look : Program.Look := ⟨Krl.comment, Krl.dialect, .none, 2⟩
  have hblended : decide ((Settings.standard : Settings Float).precision > 0.0) = true := by
    decide +kernel
  have hdraft : Krl.draft .standard true c.device.state.settings (c.visits false) =
      ⟨[], (Krl.Draft.start .standard Settings.standard).body ++
        [.code v.action [.moveLinear (.inline target) true]], 1⟩ := by
    rw [← hblended, hvisits, hstart, Krl.draft, List.foldl_cons, List.foldl_nil]
    simp only [Krl.Draft.step, happlied, hcommand, hpresent, htarget, Krl.Draft.motion]
    rfl
  have hstarting : look.lines Krl.Statement.text
      (Krl.Draft.start .standard Settings.standard).body =
        ["  $VEL.CP = 0.020", "  $APO.CDIS = 5.000", ""] := by
    decide +kernel
  have hmotion : look.lines Krl.Statement.text
      [.code v.action [.moveLinear (.inline target) true]] =
        ["  LIN " ++ target.text ++ " C_DIS"] := by
    simp [look, Program.Look.lines, Program.Look.entryLines, Program.Look.codeLines,
      Program.Look.indented, Program.Look.annotation, Krl.Statement.text, Program.Place.text,
      ← String.append_assoc]
  have hbody : look.lines Krl.Statement.text
      (Krl.draft .standard true c.device.state.settings (c.visits false)).body =
        ["  $VEL.CP = 0.020", "  $APO.CDIS = 5.000", ""] ++
          ["  LIN " ++ target.text ++ " C_DIS"] := by
    rw [hdraft, Program.Look.lines, List.flatMap_append]
    exact congrArg₂ (· ++ ·) hstarting hmotion
  have hdeclarations : (Krl.draft .standard true c.device.state.settings
      (c.visits false)).declarations = [] := by
    rw [hdraft]
  have hname : Program.safeName "job" = "job" := by decide +kernel
  rw [Dialect.program, Krl.program, hname]
  change List.drop 7 (_ ++ (if (look.lines _ (Krl.draft .standard true c.device.state.settings
    (c.visits false)).declarations).isEmpty then [] else _) ++ _ ++ look.lines _
      (Krl.draft .standard true c.device.state.settings (c.visits false)).body ++ _) = _
  rw [hbody, hdeclarations]
  rfl

/-- The URScript program of one motion along a line, from its title on. -/
theorem urscript_lines_of_line {c : Cursor Float} {v : Visit Float}
    (hvisits : c.visits false = [v]) (happlied : v.applied = true) {delta : Vector3 Float}
    {relative : Bool} (hcommand : v.action.command = .translation delta relative)
    (hpresent : v.state.settings = Settings.standard) {target : UrScript.Target}
    (htarget : UrScript.poseTarget? .standard v.state = some target) :
    (Dialect.urscript.program .standard "" "job" .standard c).lines.drop 5 =
      ["", "def job():", "  movel(" ++ target.text ++ ", v=0.020000, r=0.005000)", "end"] := by
  let look : Program.Look := ⟨UrScript.comment, UrScript.dialect, .none, 2⟩
  have hnone : ¬ (Settings.standard : Settings Float).acceleration > 0.0 := by decide +kernel
  have hspeed : UrScript.metres .standard (Settings.standard : Settings Float).speed =
      "0.020000" := by
    decide +kernel
  have hblend : UrScript.metres .standard (Settings.standard : Settings Float).precision =
      "0.005000" := by
    decide +kernel
  have hdraft : UrScript.draft .standard true (c.visits false) =
      ⟨[], [.code v.action [.moveLinear (.inline target) none "0.020000" "0.005000"]], 1⟩ := by
    rw [hvisits, UrScript.draft, List.foldl_cons, List.foldl_nil]
    simp only [UrScript.Draft.step, happlied, hcommand, hpresent, htarget, UrScript.Draft.motion,
      hspeed, hblend, if_neg hnone]
    rfl
  have hbody : look.lines UrScript.Statement.text
      (UrScript.draft .standard true (c.visits false)).body =
        ["  movel(" ++ target.text ++ ", v=0.020000, r=0.005000)"] := by
    rw [hdraft]
    simp [look, Program.Look.lines, Program.Look.entryLines, Program.Look.codeLines,
      Program.Look.indented, Program.Look.annotation, UrScript.Statement.text,
      UrScript.call_cons, UrScript.listed, Program.Place.text, ← String.append_assoc]
  have hdeclarations : (UrScript.draft .standard true (c.visits false)).declarations = [] := by
    rw [hdraft]
  have hname : Program.safeName "job" = "job" := by decide +kernel
  rw [Dialect.program, UrScript.program, hname]
  change List.drop 5 (_ ++ (if (look.lines _ (UrScript.draft .standard true
    (c.visits false)).declarations).isEmpty then [] else _) ++ look.lines _
      (UrScript.draft .standard true (c.visits false)).body ++ _) = _
  rw [hbody, hdeclarations]
  rfl

/-- **A tool that is attached before is not bound**, in neither dialect: the programs hold the
motion, made with the tool, and nothing before it that binds one. -/
theorem not_toolBound_mountedBefore :
    ∃ c, (empty.run mountedBefore).cursor? 0 = some c ∧
      (∃ target, (Dialect.krl.program .standard "" "job" .standard c).lines.drop 7 =
        ["", "DEF job()", "  BAS(#INITMOV, 0)", "  $VEL.CP = 0.020", "  $APO.CDIS = 5.000", "",
          "  LIN " ++ Krl.Target.text target ++ " C_DIS", "END"]) ∧
      (∃ target, (Dialect.urscript.program .standard "" "job" .standard c).lines.drop 5 =
        ["", "def job():",
          "  movel(" ++ UrScript.Target.text target ++ ", v=0.020000, r=0.005000)", "end"]) ∧
      ¬ Krl.ToolBound .standard true c.device.state.settings (c.visits false) ∧
      ¬ UrScript.ToolBound .standard true (c.visits false) := by
  have hplanned : ((empty.run mountedBefore).cursor? 0).map (fun c =>
      (c.device.state.settings, (c.visits false).map fun v => (v.applied, v.action.command))) =
      some (Settings.standard, [(true, .translation ⟨10, 0, 0⟩ true)]) := by
    decide +kernel
  have hpresent : ((empty.run mountedBefore).cursor? 0).map (fun c =>
      (c.visits false).all fun v => v.state.settings = Settings.standard &&
        (Krl.poseTarget? .standard v.state).isSome &&
        (UrScript.poseTarget? .standard v.state).isSome) = some true := by
    decide +kernel
  have hcomputed : ((empty.run mountedBefore).cursor? 0).map (fun c =>
      let krl := (Krl.draft .standard true c.device.state.settings (c.visits false)).body
      let urscript := (UrScript.draft .standard true (c.visits false)).body
      (krl.any (·.statements.any (Krl.targeting .standard).moves),
        ((Krl.boundTool .standard).settings krl).length,
        urscript.any (·.statements.any (UrScript.targeting .standard).moves),
        ((UrScript.boundTool .standard).settings urscript).length,
        (c.visits false).all (·.state.tool = some torch))) =
      some (true, 0, true, 0, true) := by
    decide +kernel
  obtain ⟨c, hc, hread⟩ := Option.map_eq_some_iff.mp hcomputed
  simp only [Prod.mk.injEq, List.length_eq_zero_iff] at hread
  obtain ⟨hkrl, hnotool, hurscript, hnone, hmounted⟩ := hread
  have hattached {v : Visit Float} (hv : v ∈ c.visits false) : v.state.tool = some torch :=
    of_decide_eq_true (List.all_eq_true.mp hmounted v hv)
  rw [hc] at hplanned hpresent
  obtain ⟨hsettings, hplanned⟩ := Prod.mk.inj (Option.some.inj hplanned)
  obtain ⟨v, hvisits, hread⟩ := List.map_eq_singleton_iff.mp hplanned
  obtain ⟨happlied, hcommand⟩ := Prod.mk.inj hread
  have hstate := List.all_eq_true.mp (Option.some.inj hpresent) v
    (hvisits ▸ List.mem_singleton_self v)
  simp only [Bool.and_eq_true, decide_eq_true_eq] at hstate
  obtain ⟨⟨hstandard, hframe⟩, hpose⟩ := hstate
  obtain ⟨frame, hframe⟩ := Option.isSome_iff_exists.mp hframe
  obtain ⟨pose, hpose⟩ := Option.isSome_iff_exists.mp hpose
  refine ⟨c, hc, ⟨frame, ?_⟩, ⟨pose, ?_⟩, fun hbound => ?_, fun hbound => ?_⟩
  · exact krl_lines_of_line hvisits happlied hcommand hsettings hstandard hframe
  · exact urscript_lines_of_line hvisits happlied hcommand hstandard hpose
  · obtain ⟨v, hv, hnull⟩ := Register.setting_eq_of_unset hbound hkrl hnotool
    rw [hattached hv] at hnull
    exact absurd (congrArg Krl.Statement.text hnull) (by decide +kernel)
  · obtain ⟨v, hv, hnull⟩ := Register.setting_eq_of_unset hbound hurscript hnone
    rw [hattached hv] at hnull
    exact absurd (congrArg UrScript.Statement.text hnull) (by decide +kernel)

end Fleet

end RobotMotion
