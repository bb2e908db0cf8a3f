import RobotMotion.Proofs.Program.Lines

/-!
# KRL programs on unbroken lines

Numbers, frames and targets are unbroken whatever the state of the device is, so a program
is unbroken where the texts in its actions are (`Krl.unbroken_draft`).
-/

namespace RobotMotion

open Program (Entry Place)
open Text (unbroken_append)

namespace Krl

/-- What stands between braces is unbroken if all its items are. -/
theorem unbroken_braced {items : List String} (h : ∀ t ∈ items, Text.Unbroken t) :
    Text.Unbroken (braced items) := by
  have hopen : Text.Unbroken "\x7b" := by decide
  have hclose : Text.Unbroken "\x7d" := by decide
  rw [braced]
  simp only [unbroken_append]
  exact ⟨⟨hopen, Text.unbroken_intercalate (by decide) h⟩, hclose⟩

/-- A component is a name and a value on one line. -/
theorem unbroken_component {name value : String} (hname : Text.Unbroken name)
    (hvalue : Text.Unbroken value) : Text.Unbroken (component name value) := by
  have hblank : Text.Unbroken " " := by decide
  exact unbroken_append.mpr ⟨unbroken_append.mpr ⟨hname, hblank⟩, hvalue⟩

/-- Numbering components does not break them. -/
theorem unbroken_numbered {letter : String} (hletter : Text.Unbroken letter)
    {values : List String} (h : ∀ t ∈ values, Text.Unbroken t) :
    ∀ t ∈ numbered letter values, Text.Unbroken t := by
  intro t ht
  obtain ⟨⟨value, i⟩, hvalue, rfl⟩ := List.mem_map.mp ht
  have hname : Text.Unbroken (letter ++ Decimal.natural (i + 1)) :=
    unbroken_append.mpr ⟨hletter, Text.unbroken_natural _⟩
  exact unbroken_component hname (h value (List.fst_mem_of_mem_zipIdx hvalue))

/-- **Frames are unbroken**: they are made of numbers. -/
theorem unbroken_frame (d : Decimals) (position : Vector3 Float) (rotation : Rotation Float) :
    ∀ t ∈ (frame d position rotation).components, Text.Unbroken t := by
  have hfixed {name : String} (hname : Text.Unbroken name) (x : Float) (places : Nat) :
      Text.Unbroken (component name (Decimal.fixed x places)) :=
    unbroken_component hname (Text.unbroken_fixed x places)
  simp only [Frame.components, frame, List.forall_mem_cons]
  exact ⟨hfixed (by decide) _ _, hfixed (by decide) _ _, hfixed (by decide) _ _,
    hfixed (by decide) _ _, hfixed (by decide) _ _, hfixed (by decide) _ _, nofun⟩

theorem unbroken_externalTexts (d : Decimals) (axes : Option (ExternalAxes Float)) :
    ∀ t ∈ externalTexts d axes, Text.Unbroken t :=
  Program.unbroken_externalTexts axes fun _ => Text.unbroken_fixed _ d.mm

/-- So are targets from poses. -/
theorem unbroken_poseTarget? {d : Decimals} {s : State Float} {target : Target}
    (h : poseTarget? d s = some target) : Text.Unbroken target.text := by
  obtain ⟨⟨position, rotation⟩, -, rfl⟩ := Option.map_eq_some_iff.mp h
  exact unbroken_braced (List.forall_mem_append.mpr ⟨unbroken_frame d position rotation,
    unbroken_numbered (by decide) (unbroken_externalTexts d _)⟩)

/-- And targets from joint angles. -/
theorem unbroken_jointTarget? {d : Decimals} {s : State Float} {target : Target}
    (h : jointTarget? d s = some target) : Text.Unbroken target.text := by
  obtain ⟨joints, -, rfl⟩ := Option.map_eq_some_iff.mp h
  exact unbroken_braced (List.forall_mem_append.mpr
    ⟨unbroken_numbered (by decide) (Program.unbroken_map_fixed _ _),
      unbroken_numbered (by decide) (unbroken_externalTexts d _)⟩)

/-- The settings that are assigned are numbers. -/
theorem unbroken_assignment? {d : Decimals} {change : SettingChange Float} {s : Statement}
    (h : assignment? d change = some s) : Text.Unbroken s.text := by
  have hassign {name : String} (hname : Text.Unbroken name) (x : Float) (places : Nat) :
      Text.Unbroken (name ++ Decimal.fixed x places) :=
    unbroken_append.mpr ⟨hname, Text.unbroken_fixed x places⟩
  cases change with
  | quantity which value =>
    cases which with
    | extrusionRate => cases h
    | speed | acceleration | precision =>
      obtain rfl := Option.some.inj h
      exact hassign (by decide) _ _
  | motion | frame => cases h

/-- Assignments of settings stay unbroken one after the other. -/
theorem unbroken_assignments (d : Decimals) (changes : List (SettingChange Float)) :
    ∀ s ∈ changes.filterMap (assignment? d), Text.Unbroken s.text := by
  intro s hs
  obtain ⟨change, -, hchange⟩ := List.mem_filterMap.mp hs
  exact unbroken_assignment? hchange

namespace Draft

/-- Whether everything in a program stands on one line. -/
structure Unbroken (draft : Draft) : Prop where
  declarations : ∀ e ∈ draft.declarations, e.Unbroken Declaration.text
  body : ∀ e ∈ draft.body, e.Unbroken Statement.text

/-- The settings at the start are numbers. -/
theorem unbroken_start (d : Decimals) (settings : Settings Float) :
    (start d settings).Unbroken := by
  refine ⟨List.forall_mem_nil _, Program.forall_mem_concat (fun e he => ?_) trivial⟩
  obtain ⟨s, hs, rfl⟩ := List.mem_map.mp he
  exact unbroken_assignments d _ s hs

namespace Unbroken

variable {draft : Draft}

/-- An unbroken entry keeps a program unbroken. -/
theorem write (h : draft.Unbroken) {e : Entry Statement} (he : e.Unbroken Statement.text) :
    (draft.write e).Unbroken :=
  { h with body := Program.forall_mem_concat h.body he }

/-- So does an unbroken declaration. -/
theorem declare (h : draft.Unbroken) {e : Entry Declaration} (he : e.Unbroken Declaration.text) :
    (draft.declare e).Unbroken :=
  { h with declarations := Program.forall_mem_concat h.declarations he }

/-- A target stands on one line, whether in place or declared under a name. -/
theorem placeTarget (h : draft.Unbroken) (inlineTargets : Bool) {action : Action Float}
    (haction : action.command.Unbroken) {target : Target} (htarget : Text.Unbroken target.text) :
    Text.Unbroken ((draft.placeTarget inlineTargets action target).1.text Target.text) ∧
      (draft.placeTarget inlineTargets action target).2.Unbroken := by
  cases inlineTargets with
  | true => exact ⟨htarget, { h with }⟩
  | false =>
    have htype : Text.Unbroken target.type := by
      cases target <;>
        · dsimp only [Target.type]
          decide
    have hdeclaration : Text.Unbroken (Declaration.target draft.motions target).text := by
      dsimp only [Declaration.text]
      simp only [unbroken_append, Program.unbroken_targetName, htype, htarget, and_true]
      decide
    exact ⟨Program.unbroken_targetName _, { h with
      declarations := Program.forall_mem_concat h.declarations
        ⟨haction, List.forall_mem_singleton.mpr hdeclaration⟩ }⟩

/-- A motion is written on one line if all its parts are. -/
theorem motion (h : draft.Unbroken) (inlineTargets : Bool) {v : Visit Float}
    (haction : v.action.command.Unbroken) {move : Place Target → Bool → Statement}
    (hmove : ∀ place blended, Text.Unbroken (place.text Target.text) →
      Text.Unbroken (move place blended).text) {target? : Option Target}
    (htarget : ∀ target, target? = some target → Text.Unbroken target.text) :
    (draft.motion inlineTargets v move target?).Unbroken := by
  cases target? with
  | none =>
    have hmessage : Text.Unbroken "no target available for motion" := by decide
    exact h.write ⟨haction, hmessage⟩
  | some target =>
    obtain ⟨hplace, h⟩ := h.placeTarget inlineTargets haction (htarget target rfl)
    exact h.write ⟨haction, List.forall_mem_singleton.mpr (hmove _ _ hplace)⟩

end Unbroken

/-- A linear motion is unbroken, blended or not. -/
theorem unbroken_moveLinear {place : Place Target} (h : Text.Unbroken (place.text Target.text))
    (blended : Bool) : Text.Unbroken (Statement.moveLinear place blended).text := by
  dsimp only [Statement.text]
  cases blended <;>
    · simp only [unbroken_append, h, and_true, Bool.false_eq_true, if_false, if_true]
      decide

/-- So is a motion from point to point. -/
theorem unbroken_movePoint {place : Place Target} (h : Text.Unbroken (place.text Target.text))
    (blended : Bool) : Text.Unbroken (Statement.movePoint place blended).text := by
  dsimp only [Statement.text]
  cases blended <;>
    · simp only [unbroken_append, h, and_true, Bool.false_eq_true, if_false, if_true]
      decide

/-- An output is written with the number of its pin. -/
theorem unbroken_setDigital (pin : Int) (on : Bool) :
    Text.Unbroken (Statement.setDigital pin on).text := by
  dsimp only [Statement.text]
  cases on <;>
    · simp only [unbroken_append, Program.unbroken_pinText, and_true, Bool.false_eq_true, if_false,
        if_true]
      decide

theorem unbroken_setAnalog (pin : Int) {value : String} (h : Text.Unbroken value) :
    Text.Unbroken (Statement.setAnalog pin value).text := by
  dsimp only [Statement.text]
  simp only [unbroken_append, Program.unbroken_pinText, h, and_true]
  decide

theorem unbroken_wait (millis : Nat) :
    Text.Unbroken (Statement.wait (Program.secondsText millis)).text := by
  dsimp only [Statement.text]
  simp only [unbroken_append, Program.unbroken_secondsText, and_true]
  decide

/-- A comment reaches KRL as it is. -/
theorem unbroken_comment {text : String} (h : Text.Unbroken text) :
    Text.Unbroken (Statement.comment text).text := by
  dsimp only [Statement.text]
  simp only [unbroken_append, h, and_true]
  decide

/-- The statements that announce a tool hold numbers alone. -/
theorem unbroken_toolStatements (d : Decimals) (tool : Tool Float) :
    ∀ s ∈
      [ Statement.tool (some (frame d tool.tcpPosition tool.tcpOrientation)),
        .loadMass (Decimal.fixed tool.weight d.kg),
        .loadCenter (Decimal.fixed tool.centerOfGravity.x d.mm)
          (Decimal.fixed tool.centerOfGravity.y d.mm)
          (Decimal.fixed tool.centerOfGravity.z d.mm) ], Text.Unbroken s.text := by
  have hframe := unbroken_braced (unbroken_frame d tool.tcpPosition tool.tcpOrientation)
  -- the centre of gravity is a frame that is not turned
  have hcenter : Text.Unbroken (braced (Frame.components
      ⟨Decimal.fixed tool.centerOfGravity.x d.mm, Decimal.fixed tool.centerOfGravity.y d.mm,
        Decimal.fixed tool.centerOfGravity.z d.mm, "0", "0", "0"⟩)) := by
    have hfixed {name : String} (hname : Text.Unbroken name) (x : Float) :
        Text.Unbroken (component name (Decimal.fixed x d.mm)) :=
      unbroken_component hname (Text.unbroken_fixed x d.mm)
    have hzero {name : String} (hname : Text.Unbroken name) :
        Text.Unbroken (component name "0") := unbroken_component hname (by decide)
    refine unbroken_braced ?_
    simp only [Frame.components, List.forall_mem_cons]
    exact ⟨hfixed (by decide) _, hfixed (by decide) _, hfixed (by decide) _, hzero (by decide),
      hzero (by decide), hzero (by decide), nofun⟩
  have htool : Text.Unbroken "$TOOL = " := by decide
  have hmass : Text.Unbroken "$LOAD.M = " := by decide
  have hload : Text.Unbroken "$LOAD.CM = " := by decide
  simp only [List.forall_mem_cons]
  exact ⟨unbroken_append.mpr ⟨htool, hframe⟩,
    unbroken_append.mpr ⟨hmass, Text.unbroken_fixed _ _⟩, unbroken_append.mpr ⟨hload, hcenter⟩,
    nofun⟩

/-- **A step writes unbroken lines for an action with unbroken texts.** -/
theorem unbroken_step {draft : Draft} (h : draft.Unbroken) (d : Decimals) (inlineTargets : Bool)
    {v : Visit Float} (haction : v.action.command.Unbroken) :
    (step d inlineTargets draft v).Unbroken := by
  have hcode {statements : List Statement}
      (hs : ∀ s ∈ statements, Text.Unbroken s.text) :
      (draft.write (.code v.action statements)).Unbroken := h.write ⟨haction, hs⟩
  have hdiagnostic {what : Program.Diagnostic} (hwhat : what.Unbroken) :
      (draft.write (.diagnostic v.action what)).Unbroken := h.write ⟨haction, hwhat⟩
  have herror {message : String} (hmessage : Text.Unbroken message) :
      (draft.write (.diagnostic v.action (.error message))).Unbroken := hdiagnostic hmessage
  have hassign (change : SettingChange Float) :
      ∀ s ∈ (assignment? d change).toList, Text.Unbroken s.text := fun s hs =>
    unbroken_assignment? (Option.mem_toList.mp hs)
  cases ha : v.applied with
  | false =>
    simp only [step, ha, Bool.not_false, if_true]
    exact hdiagnostic trivial
  | true =>
    simp only [step, ha, Bool.not_true, Bool.false_eq_true, if_false]
    -- the texts of an action are those of its command, which differ from case to case
    generalize hc : v.action.command = command at haction
    cases command
    case setting which value relative =>
      cases which with
      | speed | acceleration | precision => exact hcode (hassign _)
      | extrusionRate => exact hdiagnostic trivial
    case translation | rotation | transformation =>
      refine h.motion inlineTargets (hc ▸ haction) (fun place blended hplace => ?_)
        fun target ht => unbroken_poseTarget? ht
      cases v.state.settings.motion with
      | linear => exact unbroken_moveLinear hplace blended
      | joint => exact unbroken_movePoint hplace blended
    case axes =>
      exact h.motion inlineTargets (hc ▸ haction) (fun place blended hplace =>
        unbroken_movePoint hplace blended) fun target ht => unbroken_jointTarget? ht
    case popSettings =>
      dsimp only
      split
      · exact hcode (unbroken_assignments d _)
      · exact h
    case attachTool name =>
      dsimp only
      split
      · exact herror (by decide)
      · exact hcode (unbroken_toolStatements d _)
    case detachTool =>
      refine hcode ?_
      simp only [List.forall_mem_cons]
      decide
    case writeDigital pin on toolPin =>
      have hpin : Text.Unbroken pin := haction pin List.mem_cons_self
      dsimp only
      split
      · refine hcode (List.forall_mem_singleton.mpr ?_)
        exact unbroken_setDigital _ on
      · refine herror ?_
        simp only [unbroken_append, hpin, and_true]
        decide
    case writeAnalog pin value toolPin =>
      have hpin : Text.Unbroken pin := haction pin List.mem_cons_self
      dsimp only
      split
      · refine herror ?_
        simp only [unbroken_append, hpin, and_true]
        decide
      · split
        · exact hcode
            (List.forall_mem_singleton.mpr (unbroken_setAnalog _ (Text.unbroken_fixed _ _)))
        · exact herror (by decide)
    case wait millis =>
      exact hcode (List.forall_mem_singleton.mpr (unbroken_wait millis))
    case comment text =>
      exact hcode
        (List.forall_mem_singleton.mpr (unbroken_comment (haction text List.mem_cons_self)))
    case customCode text isDeclaration =>
      have htext : Text.Unbroken text := haction text List.mem_cons_self
      cases isDeclaration with
      | true => exact h.declare ⟨hc ▸ haction, List.forall_mem_singleton.mpr htext⟩
      | false => exact hcode (List.forall_mem_singleton.mpr htext)
    case message | temperature | extrusion | initialization => exact hdiagnostic trivial
    case motionMode | referenceFrame | pushSettings | externalAxis | defineTool => exact h

end Draft

/-- Programs of actions with unbroken texts are unbroken. -/
theorem unbroken_draft (d : Decimals) (inlineTargets : Bool) (settings : Settings Float)
    {visits : List (Visit Float)} (h : ∀ v ∈ visits, v.action.command.Unbroken) :
    (draft d inlineTargets settings visits).Unbroken :=
  Program.foldl_invariant Draft.Unbroken (·.action.command.Unbroken)
    (fun _ hdraft _ hv => Draft.unbroken_step hdraft d inlineTargets hv)
    (Draft.unbroken_start d settings) h

end Krl

end RobotMotion
