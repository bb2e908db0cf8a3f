import RobotMotion.Proofs.Program.Lines

/-!
# URScript programs on unbroken lines

Numbers, poses and targets are unbroken whatever the state of the device is, so a program
is unbroken where the texts in its actions are (`UrScript.unbroken_draft`).
-/

namespace RobotMotion

open Program (Entry Place)
open Text (unbroken_append)

namespace UrScript

/-- A list is unbroken if all its items are. -/
theorem unbroken_listed {items : List String} (h : ∀ t ∈ items, Text.Unbroken t) :
    Text.Unbroken (listed items) :=
  Text.unbroken_intercalate (by decide) h

theorem unbroken_pointTexts (d : Decimals) (v : Vector3 Float) :
    ∀ t ∈ pointTexts d v, Text.Unbroken t := by
  intro t ht
  obtain ⟨x, -, rfl⟩ := List.mem_map.mp ht
  exact Text.unbroken_fixed _ _

/-- Numbers in square brackets stand on one line. -/
theorem unbroken_square {items : List String} (h : ∀ t ∈ items, Text.Unbroken t) :
    Text.Unbroken ("[" ++ listed items ++ "]") := by
  have hopen : Text.Unbroken "[" := by decide
  have hclose : Text.Unbroken "]" := by decide
  simp only [unbroken_append]
  exact ⟨⟨hopen, unbroken_listed h⟩, hclose⟩

/-- **Poses are unbroken**: they are made of numbers. -/
theorem unbroken_pose (d : Decimals) (position : Vector3 Float) (rotation : Rotation Float) :
    Text.Unbroken (pose d position rotation).text := by
  have hopen : Text.Unbroken "p[" := by decide
  have hclose : Text.Unbroken "]" := by decide
  have hnumbers : Text.Unbroken
      (listed ((pose d position rotation).position ++ (pose d position rotation).rotation)) :=
    unbroken_listed (List.forall_mem_append.mpr
      ⟨unbroken_pointTexts d position, Program.unbroken_map_fixed _ _⟩)
  dsimp only [Pose.text]
  simp only [unbroken_append]
  exact ⟨⟨hopen, hnumbers⟩, hclose⟩

/-- So are targets from poses. -/
theorem unbroken_poseTarget? {d : Decimals} {s : State Float} {target : Target}
    (h : poseTarget? d s = some target) : Text.Unbroken target.text := by
  obtain ⟨⟨position, rotation⟩, -, rfl⟩ := Option.map_eq_some_iff.mp h
  exact unbroken_pose d position rotation

/-- And targets from joint angles. -/
theorem unbroken_jointTarget? {d : Decimals} {s : State Float} {target : Target}
    (h : jointTarget? d s = some target) : Text.Unbroken target.text := by
  obtain ⟨joints, -, rfl⟩ := Option.map_eq_some_iff.mp h
  exact unbroken_square (Program.unbroken_map_fixed _ _)

/-- A call stands on one line if its arguments do. -/
theorem unbroken_call {function : String} (hfunction : Text.Unbroken function)
    {arguments : List String} (h : ∀ t ∈ arguments, Text.Unbroken t) :
    Text.Unbroken (call function arguments) := by
  have hopen : Text.Unbroken "(" := by decide
  have hclose : Text.Unbroken ")" := by decide
  rw [call]
  simp only [unbroken_append]
  exact ⟨⟨⟨hfunction, hopen⟩, unbroken_listed h⟩, hclose⟩

namespace Statement

/-- An argument with its name in front. -/
theorem unbroken_named {name value : String} (hname : Text.Unbroken name)
    (hvalue : Text.Unbroken value) : Text.Unbroken (name ++ value) :=
  unbroken_append.mpr ⟨hname, hvalue⟩

/-- A motion of the joints is unbroken if its target is. -/
theorem unbroken_moveJoint {place : Place Target} (h : Text.Unbroken (place.text Target.text))
    {blend : String} (hblend : Text.Unbroken blend) :
    Text.Unbroken (moveJoint place blend).text := by
  refine unbroken_call (by decide) ?_
  simp only [List.forall_mem_cons]
  exact ⟨h, unbroken_named (by decide) hblend, nofun⟩

/-- So is a linear motion, with an acceleration or without. -/
theorem unbroken_moveLinear {place : Place Target} (h : Text.Unbroken (place.text Target.text))
    {acceleration : Option String} (hacceleration : ∀ a, acceleration = some a → Text.Unbroken a)
    {speed blend : String} (hspeed : Text.Unbroken speed) (hblend : Text.Unbroken blend) :
    Text.Unbroken (moveLinear place acceleration speed blend).text := by
  have hlimit : ∀ t ∈ (acceleration.map ("a=" ++ ·)).toList, Text.Unbroken t := by
    intro t ht
    obtain ⟨a, ha, rfl⟩ := Option.map_eq_some_iff.mp (Option.mem_toList.mp ht)
    exact unbroken_named (by decide) (hacceleration a ha)
  refine unbroken_call (by decide) ?_
  simp only [List.forall_mem_append, List.forall_mem_cons]
  exact ⟨⟨⟨h, nofun⟩, hlimit⟩, unbroken_named (by decide) hspeed,
    unbroken_named (by decide) hblend, nofun⟩

theorem unbroken_setTcp (d : Decimals) (position : Vector3 Float) (rotation : Rotation Float) :
    Text.Unbroken (setTcp (pose d position rotation)).text :=
  unbroken_call (by decide) (List.forall_mem_singleton.mpr (unbroken_pose d position rotation))

/-- The payload is a mass, and a centre where there is one. -/
theorem unbroken_setPayload (mass : Float) (places : Nat) {center : Option (List String)}
    (hcenter : ∀ texts, center = some texts → ∀ t ∈ texts, Text.Unbroken t) :
    Text.Unbroken (setPayload (Decimal.fixed mass places) center).text := by
  cases center with
  | none =>
    exact unbroken_call (by decide) (List.forall_mem_singleton.mpr (Text.unbroken_fixed _ _))
  | some texts =>
    refine unbroken_call (by decide) ?_
    simp only [List.forall_mem_cons]
    exact ⟨Text.unbroken_fixed _ _, unbroken_square (hcenter texts rfl), nofun⟩

/-- An output is written with the number of its pin. -/
theorem unbroken_setDigital (output : DigitalOutput) (pin : Int) (on : Bool) :
    Text.Unbroken (setDigital output pin on).text := by
  have hvalue : Text.Unbroken (if on then "True" else "False") := by cases on <;> decide
  refine unbroken_call (by cases output <;> decide) ?_
  simp only [List.forall_mem_cons]
  exact ⟨Program.unbroken_pinText pin, hvalue, nofun⟩

theorem unbroken_setAnalog (pin : Int) (value : Float) (places : Nat) :
    Text.Unbroken (setAnalog pin (Decimal.fixed value places)).text := by
  refine unbroken_call (by decide) ?_
  simp only [List.forall_mem_cons]
  exact ⟨Program.unbroken_pinText pin, Text.unbroken_fixed _ _, nofun⟩

theorem unbroken_sleep (millis : Nat) :
    Text.Unbroken (sleep (Program.secondsText millis)).text :=
  unbroken_call (by decide) (List.forall_mem_singleton.mpr (Program.unbroken_secondsText millis))

/-- A message is quoted, which leaves line breaks what they are. -/
theorem unbroken_message {text : String} (h : Text.Unbroken text) :
    Text.Unbroken (message (Text.quoted text)).text :=
  unbroken_call (by decide) (List.forall_mem_singleton.mpr (Text.Unbroken.quoted h))

/-- A comment reaches URScript as it is. -/
theorem unbroken_comment {text : String} (h : Text.Unbroken text) :
    Text.Unbroken (comment text).text :=
  unbroken_named (by decide) h

end Statement

namespace Draft

/-- Whether everything in a program stands on one line. -/
structure Unbroken (draft : Draft) : Prop where
  declarations : ∀ e ∈ draft.declarations, e.Unbroken Declaration.text
  body : ∀ e ∈ draft.body, e.Unbroken Statement.text

theorem unbroken_empty : empty.Unbroken :=
  ⟨List.forall_mem_nil _, List.forall_mem_nil _⟩

namespace Unbroken

variable {draft : Draft}

/-- An unbroken entry keeps a program unbroken. -/
theorem write (h : draft.Unbroken) {e : Entry Statement} (he : e.Unbroken Statement.text) :
    (draft.write e).Unbroken :=
  { h with body := Program.forall_mem_concat h.body he }

/-- So does an unbroken declaration. -/
theorem declare (h : draft.Unbroken) {e : Entry Declaration} (he : e.Unbroken Declaration.text) :
    (draft.declare e).Unbroken :=
  { h with declarations := Program.forall_mem_concat h.declarations he }

/-- A target stands on one line, whether in place or declared under a name. -/
theorem placeTarget (h : draft.Unbroken) (inlineTargets : Bool) {action : Action Float}
    (haction : action.command.Unbroken) {target : Target} (htarget : Text.Unbroken target.text) :
    Text.Unbroken ((draft.placeTarget inlineTargets action target).1.text Target.text) ∧
      (draft.placeTarget inlineTargets action target).2.Unbroken := by
  cases inlineTargets with
  | true => exact ⟨htarget, { h with }⟩
  | false =>
    have hdeclaration : Text.Unbroken (Declaration.target draft.motions target).text := by
      dsimp only [Declaration.text]
      simp only [unbroken_append, Program.unbroken_targetName, htarget, and_true]
      decide
    exact ⟨Program.unbroken_targetName _, { h with
      declarations := Program.forall_mem_concat h.declarations
        ⟨haction, List.forall_mem_singleton.mpr hdeclaration⟩ }⟩

/-- A motion is written on one line if all its parts are. -/
theorem motion (h : draft.Unbroken) (inlineTargets : Bool) {v : Visit Float}
    (haction : v.action.command.Unbroken) {move : Place Target → Statement}
    (hmove : ∀ place, Text.Unbroken (place.text Target.text) → Text.Unbroken (move place).text)
    {target? : Option Target}
    (htarget : ∀ target, target? = some target → Text.Unbroken target.text) :
    (draft.motion inlineTargets v move target?).Unbroken := by
  cases target? with
  | none =>
    have hmessage : Text.Unbroken "no target available for motion" := by decide
    exact h.write ⟨haction, hmessage⟩
  | some target =>
    obtain ⟨hplace, h⟩ := h.placeTarget inlineTargets haction (htarget target rfl)
    exact h.write ⟨haction, List.forall_mem_singleton.mpr (hmove _ hplace)⟩

end Unbroken

/-- **A step writes unbroken lines for an action with unbroken texts.** -/
theorem unbroken_step {draft : Draft} (h : draft.Unbroken) (d : Decimals) (inlineTargets : Bool)
    {v : Visit Float} (haction : v.action.command.Unbroken) :
    (step d inlineTargets draft v).Unbroken := by
  have hcode {statements : List Statement}
      (hs : ∀ s ∈ statements, Text.Unbroken s.text) :
      (draft.write (.code v.action statements)).Unbroken := h.write ⟨haction, hs⟩
  have hone {s : Statement} (hs : Text.Unbroken s.text) :
      (draft.write (.code v.action [s])).Unbroken := hcode (List.forall_mem_singleton.mpr hs)
  have hdiagnostic {what : Program.Diagnostic} (hwhat : what.Unbroken) :
      (draft.write (.diagnostic v.action what)).Unbroken := h.write ⟨haction, hwhat⟩
  have herror {message : String} (hmessage : Text.Unbroken message) :
      (draft.write (.diagnostic v.action (.error message))).Unbroken := hdiagnostic hmessage
  have hmetres (mm : Float) : Text.Unbroken (metres d mm) := Text.unbroken_fixed _ _
  cases ha : v.applied with
  | false =>
    simp only [step, ha, Bool.not_false, if_true]
    exact hdiagnostic trivial
  | true =>
    simp only [step, ha, Bool.not_true, Bool.false_eq_true, if_false]
    -- the texts of an action are those of its command, which differ from case to case
    generalize hc : v.action.command = command at haction
    cases command
    case translation | rotation | transformation =>
      refine h.motion inlineTargets (hc ▸ haction) (fun place hplace => ?_)
        fun target ht => unbroken_poseTarget? ht
      cases v.state.settings.motion with
      | joint => exact Statement.unbroken_moveJoint hplace (hmetres _)
      | linear =>
        refine Statement.unbroken_moveLinear hplace (fun a ha => ?_) (hmetres _) (hmetres _)
        split at ha
        · obtain rfl := Option.some.inj ha
          exact hmetres _
        · cases ha
    case axes =>
      exact h.motion inlineTargets (hc ▸ haction) (fun place hplace =>
        Statement.unbroken_moveJoint hplace (hmetres _)) fun target ht => unbroken_jointTarget? ht
    case attachTool name =>
      dsimp only
      split
      · exact herror (by decide)
      · refine hcode ?_
        simp only [List.forall_mem_cons]
        refine ⟨Statement.unbroken_setTcp d _ _, Statement.unbroken_setPayload _ _ ?_, nofun⟩
        intro texts htexts
        obtain rfl := Option.some.inj htexts
        exact unbroken_pointTexts d _
    case detachTool =>
      refine hcode ?_
      simp only [List.forall_mem_cons]
      exact ⟨Statement.unbroken_setTcp d _ _, Statement.unbroken_setPayload _ _ nofun, nofun⟩
    case writeDigital pin on toolPin =>
      have hpin : Text.Unbroken pin := haction pin List.mem_cons_self
      dsimp only
      split
      · exact hone (Statement.unbroken_setDigital _ _ on)
      · refine herror ?_
        simp only [unbroken_append, hpin, Program.unbroken_pinText, and_true]
        decide
    case writeAnalog pin value toolPin =>
      have hpin : Text.Unbroken pin := haction pin List.mem_cons_self
      cases toolPin with
      | true => exact herror (by decide)
      | false =>
        dsimp only
        split
        · refine herror ?_
          simp only [unbroken_append, hpin, and_true]
          decide
        · split
          · exact hone (Statement.unbroken_setAnalog _ _ _)
          · exact herror (by decide)
    case wait millis => exact hone (Statement.unbroken_sleep millis)
    case message text => exact hone (Statement.unbroken_message (haction text List.mem_cons_self))
    case comment text => exact hone (Statement.unbroken_comment (haction text List.mem_cons_self))
    case customCode text isDeclaration =>
      have htext : Text.Unbroken text := haction text List.mem_cons_self
      cases isDeclaration with
      | true => exact h.declare ⟨hc ▸ haction, List.forall_mem_singleton.mpr htext⟩
      | false => exact hone htext
    case setting which value relative =>
      cases which with
      | speed | acceleration | precision => exact h
      | extrusionRate => exact hdiagnostic trivial
    case temperature | extrusion | initialization => exact hdiagnostic trivial
    case motionMode | referenceFrame | pushSettings | popSettings | externalAxis | defineTool =>
      exact h

end Draft

/-- Programs of actions with unbroken texts are unbroken. -/
theorem unbroken_draft (d : Decimals) (inlineTargets : Bool) {visits : List (Visit Float)}
    (h : ∀ v ∈ visits, v.action.command.Unbroken) : (draft d inlineTargets visits).Unbroken :=
  Program.foldl_invariant Draft.Unbroken (·.action.command.Unbroken)
    (fun _ hdraft _ hv => Draft.unbroken_step hdraft d inlineTargets hv) Draft.unbroken_empty h

end UrScript

end RobotMotion
