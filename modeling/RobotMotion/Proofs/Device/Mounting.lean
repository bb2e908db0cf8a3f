import RobotMotion.Proofs.Device.Brackets
import RobotMotion.Proofs.Device.Place
import RobotMotion.Proofs.Device.Swapping
import RobotMotion.Proofs.Geometry.Exact

/-!
# Mounting a tool and taking it off

Read over exact numbers, the flange pose undoes the tip pose of a tool
(`Tool.flangePose_tipPose`): the conjugate of the orientation turns back up to a factor,
and normalizing forgets the factor. For that the rotation of the device has to be of unit
length, and it is as long as no quaternion of no length comes into the pose
(`Device.Oriented.upright`). So a tool that is attached and detached leaves the pose as it
was, whatever happens in between that does not move the device or change its tool, and
attaching it again leads to the pose of the first time (`Device.Oriented.tool_round_trip`).
-/

namespace RobotMotion

/-! ### Rotations of unit length -/

/-- The rotations that a command brings into the pose: its own, or that of the tool that
it attaches. -/
def Command.rotations {α : Type} (s : State α) : Command α → List (Rotation α)
  | .rotation delta _ => [delta]
  | .transformation _ delta _ _ => [delta]
  | .attachTool name => ((s.tools.find? name).map Tool.tcpOrientation).toList
  | _ => []

/-- The rotation is of unit length, and the turn of the attached tool can be undone. -/
structure State.Upright (s : State ℝ) : Prop where
  unit : ∀ r, s.rotation = some r → r.dot r = 1
  mounted : ∀ tool, s.tool = some tool → 0 < tool.tcpOrientation.dot tool.tcpOrientation

namespace State

variable {s t : State ℝ}

/-- A rotation with a length is brought to unit length where a motion ends. -/
theorem unit_moveTo {q : Rotation ℝ} (hq : 0 < q.dot q) (there : Vector3 ℝ) (r : Rotation ℝ)
    (hr : (s.moveTo there q).rotation = some r) : r.dot r = 1 := by
  obtain rfl : q.normalize = r := Option.some.inj hr
  exact Rotation.dot_normalize hq

namespace Upright

theorem dot_pos (h : s.Upright) {r : Rotation ℝ} (hr : s.rotation = some r) : 0 < r.dot r := by
  rw [h.unit r hr]
  exact one_pos

/-- A turn of unit length, turned further by one that has a length, has a length. -/
theorem dot_rotatedBy_pos (h : s.Upright) {r delta : Rotation ℝ} (hr : s.rotation = some r)
    (hdelta : 0 < delta.dot delta) (frame : ReferenceFrame) :
    0 < (rotatedBy frame r delta).dot (rotatedBy frame r delta) := by
  cases frame with
  | world => exact Rotation.dot_mul_pos hdelta (h.dot_pos hr)
  | tool => exact Rotation.dot_mul_pos (h.dot_pos hr) hdelta

/-- Wherever a quaternion with a length turns the tool to, the turn has a length. -/
theorem dot_turnsTo_pos (h : s.Upright) {delta rotation : Rotation ℝ}
    (hdelta : 0 < delta.dot delta) (hturn : s.TurnsTo delta rotation) :
    0 < rotation.dot rotation := by
  obtain rfl | ⟨now, hnow, rfl⟩ := hturn
  · exact hdelta
  · exact h.dot_rotatedBy_pos hnow hdelta _

/-- The flange has a rotation of unit length, whether a tool is attached or not. -/
theorem dot_flangePose (h : s.Upright) (position : Vector3 ℝ) {rotation : Rotation ℝ}
    (hr : s.rotation = some rotation) :
    (s.flangePose position rotation).2.dot (s.flangePose position rotation).2 = 1 := by
  rw [flangePose]
  split
  · rename_i tool htool
    refine Rotation.dot_normalize (Rotation.dot_mul_pos (h.dot_pos hr) ?_)
    rw [Rotation.dot_conjugate]
    exact h.mounted tool htool
  · exact h.unit rotation hr

/-- Attaching a tool whose turn can be undone keeps the unit length. -/
theorem unit_attach (h : s.Upright) {tool : Tool ℝ}
    (htool : 0 < tool.tcpOrientation.dot tool.tcpOrientation) (r : Rotation ℝ)
    (hr : (s.attach tool).rotation = some r) : r.dot r = 1 := by
  cases hpose : s.pose? with
  | none =>
    rw [attach_of_pose?_none hpose] at hr
    exact h.unit r hr
  | some pose =>
    obtain ⟨position, rotation⟩ := pose
    rw [attach_of_pose? hpose] at hr
    obtain rfl := Option.some.inj hr
    have hflange := h.dot_flangePose position (pose?_eq_some_iff.mp hpose).2
    exact Rotation.dot_normalize (Rotation.dot_mul_pos (hflange ▸ one_pos) htool)

/-- Detaching keeps the unit length: what is left is the turn of the flange. -/
theorem unit_detach (h : s.Upright) (ht : s.detach = .ok t) (r : Rotation ℝ)
    (hr : t.rotation = some r) : r.dot r = 1 := by
  cases hold : s.tool with
  | none =>
    rw [detach, hold] at ht
    cases ht
  | some old =>
    cases hpose : s.pose? with
    | none =>
      rw [detach_of_pose?_none hold hpose] at ht
      obtain rfl := Except.ok.inj ht
      exact h.unit r hr
    | some pose =>
      obtain ⟨position, rotation⟩ := pose
      rw [detach_of_pose? hold hpose] at ht
      obtain rfl := Except.ok.inj ht
      obtain rfl := Option.some.inj hr
      have hflange := h.dot_flangePose position (pose?_eq_some_iff.mp hpose).2
      rwa [flangePose, hold] at hflange

/-- No command takes away the unit length, unless it brings in a quaternion of no length. -/
theorem unit_perform (h : s.Upright) {command : Command ℝ}
    (hcommand : ∀ q ∈ command.rotations s, 0 < q.dot q) (ht : s.perform command = .ok t)
    (r : Rotation ℝ) (hr : t.rotation = some r) : r.dot r = 1 := by
  cases command with
  | translation delta relative =>
    obtain ⟨there, _, rfl, hrotation⟩ := translate_eq_ok ht
    exact unit_moveTo (h.dot_pos hrotation) there r hr
  | rotation delta relative =>
    obtain ⟨here, _, rfl, -, hturn⟩ := rotate_eq_ok ht
    have hdelta := hcommand delta (List.mem_singleton_self _)
    exact unit_moveTo (h.dot_turnsTo_pos hdelta hturn) here r hr
  | transformation translation delta relative first =>
    obtain ⟨there, _, rfl, hturn⟩ := transform_eq_ok ht
    have hdelta := hcommand delta (List.mem_singleton_self _)
    exact unit_moveTo (h.dot_turnsTo_pos hdelta hturn) there r hr
  | axes joints relative =>
    obtain ⟨_, rfl⟩ := moveAxes_eq_ok ht
    cases hr
  | externalAxis index value target relative =>
    obtain ⟨_, _, rfl⟩ := moveExternal_eq_ok ht
    exact h.unit r hr
  -- the tool is looked up by its name, so the condition is on the one that is found
  | attachTool name =>
    obtain ⟨tool, hfind, rfl⟩ := attachNamed_eq_ok ht
    refine h.unit_attach (hcommand _ ?_) r hr
    rw [Command.rotations, hfind]
    exact List.mem_singleton_self _
  | detachTool => exact h.unit_detach ht r hr
  | _ =>
    obtain rfl := Except.ok.inj ht
    exact h.unit r hr

/-- Only a tool whose turn can be undone is attached. -/
theorem mounted_of_equips (h : s.Upright) {command : Command ℝ}
    (hcommand : ∀ q ∈ command.rotations s, 0 < q.dot q) (hequips : command.Equips s t)
    (tool : Tool ℝ) (htool : t.tool = some tool) :
    0 < tool.tcpOrientation.dot tool.tcpOrientation := by
  cases command with
  | attachTool name =>
    obtain ⟨hattached, -⟩ := hequips
    refine hcommand _ ?_
    rw [Command.rotations, ← hattached, htool]
    exact List.mem_singleton_self _
  -- no tool is left, so nothing is asked
  | detachTool =>
    rw [hequips.1] at htool
    cases htool
  | _ => exact h.mounted tool (hequips.1 ▸ htool)

end Upright

end State

namespace Device

variable {d e : Device ℝ}

/-- A starting pose that is given with a length is brought to unit length. -/
theorem upright_start (h : d.state.Upright) {pose : InitialPose ℝ} {settings : Settings ℝ}
    (hpose : ∀ q, pose.rotation = some q → 0 < q.dot q) (he : d.start pose settings = .ok e) :
    e.state.Upright := by
  obtain ⟨-, -, rfl⟩ := start_eq_ok he
  refine ⟨fun r hr => ?_, h.mounted⟩
  obtain ⟨q, hq, rfl⟩ := Option.map_eq_some_iff.mp hr
  exact Rotation.dot_normalize (hpose q hq)

/-- A command keeps the rotation upright, if it brings in nothing without a length. -/
theorem upright_perform (h : d.state.Upright) {command : Command ℝ}
    (hcommand : ∀ q ∈ command.rotations d.state, 0 < q.dot q)
    (he : d.perform command = .ok e) : e.state.Upright := by
  refine ⟨?_, h.mounted_of_equips hcommand (perform_equips he)⟩
  obtain ⟨-, state, stack, ha, rfl⟩ := perform_eq_ok he
  have hunit : ∀ r, state.rotation = some r → r.dot r = 1 := by
    obtain ⟨-, rfl, -⟩ | ⟨-, _, _, -, rfl, -⟩ | ⟨hs, -⟩ := advance_eq_ok ha
    · exact h.unit
    · exact h.unit
    · exact h.unit_perform hcommand hs
  exact hunit

/-- The devices that come about when no quaternion of no length is brought into a pose: by
a starting pose, by a motion, or by the tool that is attached. -/
inductive Oriented : Device ℝ → Prop where
  | blank (tools : Registry (Tool ℝ)) : Oriented (.blank tools)
  | start {d e : Device ℝ} {pose : InitialPose ℝ} {settings : Settings ℝ} (hd : Oriented d)
      (hpose : ∀ q, pose.rotation = some q → q ≠ ⟨0, 0, 0, 0⟩)
      (h : d.start pose settings = .ok e) : Oriented e
  | perform {d e : Device ℝ} {command : Command ℝ} (hd : Oriented d)
      (hcommand : ∀ q ∈ command.rotations d.state, q ≠ ⟨0, 0, 0, 0⟩)
      (h : d.perform command = .ok e) : Oriented e

/-- Devices that come about in this way come about. -/
theorem Oriented.reachable (hd : d.Oriented) : d.Reachable := by
  induction hd with
  | blank tools => exact .blank tools
  | start _ _ h ih => exact ih.start h
  | perform _ _ h ih => exact ih.perform h

/-- **The rotation of a device is of unit length at all times**, as long as only
quaternions with a length come into it. -/
theorem Oriented.upright (hd : d.Oriented) : d.state.Upright := by
  induction hd with
  | blank tools => exact ⟨nofun, nofun⟩
  | start _ hpose h ih => exact upright_start ih (fun q hq => Rotation.dot_self_pos (hpose q hq)) h
  | perform _ hcommand h ih =>
    exact upright_perform ih (fun q hq => Rotation.dot_self_pos (hcommand q hq)) h

end Device

/-! ### On the flange and off again -/

/-- **The flange pose undoes the tip pose.** -/
theorem Tool.flangePose_tipPose (tool : Tool ℝ)
    (htool : 0 < tool.tcpOrientation.dot tool.tcpOrientation) (position : Vector3 ℝ)
    {rotation : Rotation ℝ} (hunit : rotation.dot rotation = 1) :
    tool.flangePose (tool.tipPose position rotation).1 (tool.tipPose position rotation).2 =
      (position, rotation) := by
  have hlength : 0 < (rotation * tool.tcpOrientation).length := by
    refine Rotation.length_pos (Rotation.dot_mul_pos ?_ htool)
    rw [hunit]
    exact one_pos
  -- the tip turned back is the rotation of the flange times a positive factor
  have hback : ((rotation * tool.tcpOrientation).normalize *
      tool.tcpOrientation.conjugate).normalize = rotation := by
    rw [Rotation.normalize_eq (rotation * tool.tcpOrientation), Rotation.scale_mul,
      Rotation.mul_mul_conjugate, Rotation.scale_scale,
      Rotation.normalize_scale _ (mul_pos htool (inv_pos.mpr hlength)),
      Rotation.normalize_of_unit hunit]
  simp only [flangePose, tipPose, hback]
  rw [Vector3.add_sub_cancel]

/-- Whether a command attaches or detaches a tool. -/
def Command.changesTool {α : Type} : Command α → Bool
  | .attachTool _ | .detachTool => true
  | _ => false

namespace Device

section Between

variable {α : Type} [Scalar α] {d e : Device α}

/-- Commands that are no motions and do not change the tool leave the pose and the attached
tool alone. -/
theorem perform_between {command : Command α} (hmotion : command.isMotion = false)
    (htool : command.changesTool = false) (h : d.perform command = .ok e) :
    e.state.position = d.state.position ∧ e.state.rotation = d.state.rotation ∧
      e.state.tool = d.state.tool := by
  have hplaces := perform_places h
  have hequips := perform_equips h
  cases command with
  | translation | rotation | transformation | axes => cases hmotion
  | attachTool | detachTool => cases htool
  | _ => exact ⟨hplaces.1, hplaces.2.1, hequips.1⟩

/-- Neither do such actions one after the other, rejected ones among them. -/
theorem afterAll_between {actions : List (Action α)}
    (hactions : ∀ a ∈ actions, a.command.isMotion = false ∧ a.command.changesTool = false) :
    (d.afterAll actions).state.position = d.state.position ∧
      (d.afterAll actions).state.rotation = d.state.rotation ∧
      (d.afterAll actions).state.tool = d.state.tool := by
  induction actions generalizing d with
  | nil => exact ⟨rfl, rfl, rfl⟩
  | cons a rest ih =>
    obtain ⟨⟨hmotion, htool⟩, hrest⟩ := List.forall_mem_cons.mp hactions
    obtain ⟨hposition, hrotation, hattached⟩ :
        (d.visit a).device.state.position = d.state.position ∧
          (d.visit a).device.state.rotation = d.state.rotation ∧
          (d.visit a).device.state.tool = d.state.tool := by
      cases happlied : (d.visit a).applied with
      | false =>
        rw [visit_device_of_rejected happlied]
        exact ⟨rfl, rfl, rfl⟩
      | true => exact perform_between hmotion htool (perform_of_applied happlied)
    -- the rest starts from the device after the first, which is where it was
    have h := @ih (d.visit a).device hrest
    rw [hposition, hrotation, hattached] at h
    exact h

/-- A tool put on a free flange moves the pose to its tip. -/
theorem visit_attach (hready : d.ready = true) {position : Vector3 α} {rotation : Rotation α}
    (hposition : d.state.position = some position) (hrotation : d.state.rotation = some rotation)
    (hfree : d.state.tool = none) {name : String} {tool : Tool α}
    (hfind : d.state.tools.find? name = some tool) {a : Action α}
    (ha : a.command = .attachTool name) :
    let tip := tool.tipPose position rotation
    (d.visit a).applied = true ∧ (d.visit a).state.position = some tip.1 ∧
      (d.visit a).state.rotation = some tip.2 ∧ (d.visit a).state.tool = some tool := by
  intro tip
  have hattach : d.state.attach tool = { d.state.withPose tip with tool := some tool } := by
    rw [State.attach_of_pose? (State.pose?_eq_some_iff.mpr ⟨hposition, hrotation⟩),
      State.flangePose, hfree]
  have hperform : d.state.perform (.attachTool name) = .ok (d.state.attach tool) :=
    State.attachNamed_of_find? hfind
  rw [hattach, ← ha] at hperform
  rw [visit_of_perform (perform_of_state hready hperform (by rw [ha]; rfl))]
  exact ⟨rfl, rfl, rfl, rfl⟩

/-- Taking the tool off moves the pose to the flange. -/
theorem visit_detach (hready : d.ready = true) {position : Vector3 α} {rotation : Rotation α}
    (hposition : d.state.position = some position) (hrotation : d.state.rotation = some rotation)
    {tool : Tool α} (htool : d.state.tool = some tool) {a : Action α}
    (ha : a.command = .detachTool) :
    let flange := tool.flangePose position rotation
    (d.visit a).applied = true ∧ (d.visit a).state.position = some flange.1 ∧
      (d.visit a).state.rotation = some flange.2 ∧ (d.visit a).state.tool = none := by
  intro flange
  have hperform : d.state.perform .detachTool =
      .ok { d.state.withPose flange with tool := none } :=
    State.detach_of_pose? htool (State.pose?_eq_some_iff.mpr ⟨hposition, hrotation⟩)
  rw [← ha] at hperform
  rw [visit_of_perform (perform_of_state hready hperform (by rw [ha]; rfl))]
  exact ⟨rfl, rfl, rfl, rfl⟩

end Between

/-- **A tool that is attached and detached leaves the pose as it was.** In between anything
may happen that neither moves the device nor changes its tool; the name of the tool may
even be given to another one. A tool with the data of the first time, attached again,
leads to the pose of the first time. -/
theorem Oriented.tool_round_trip {d : Device ℝ} (hd : d.Oriented) {position : Vector3 ℝ}
    {rotation : Rotation ℝ} (hposition : d.state.position = some position)
    (hrotation : d.state.rotation = some rotation) (hfree : d.state.tool = none) {name : String}
    {tool : Tool ℝ} (hfind : d.state.tools.find? name = some tool)
    (htool : tool.tcpOrientation ≠ ⟨0, 0, 0, 0⟩) {attach detach : Action ℝ}
    (hattach : attach.command = .attachTool name) (hdetach : detach.command = .detachTool)
    (between : List (Action ℝ))
    (hbetween : ∀ a ∈ between, a.command.isMotion = false ∧ a.command.changesTool = false) :
    let mounted := d.visit attach
    let inside := mounted.device.afterAll between
    let back := inside.visit detach
    mounted.applied = true ∧ inside.state.tool = some tool ∧ back.applied = true ∧
      back.state.position = some position ∧ back.state.rotation = some rotation ∧
      back.state.tool = none ∧
      ∀ other (again : Action ℝ), again.command = .attachTool other →
        back.state.tools.find? other = some tool →
        (back.device.visit again).applied = true ∧
          (back.device.visit again).state.position = mounted.state.position ∧
          (back.device.visit again).state.rotation = mounted.state.rotation := by
  intro mounted inside back
  have hready : d.ready = true :=
    hd.reachable.ready_of_position (by rw [hposition]; rfl)
  obtain ⟨happlied, htipPosition, htipRotation, hmounted⟩ :=
    visit_attach hready hposition hrotation hfree hfind hattach
  -- what happens in between leaves the tip and the tool alone
  obtain ⟨hsamePosition, hsameRotation, hsameTool⟩ :=
    afterAll_between (d := mounted.device) hbetween
  have hinsideReady : inside.ready = true := by
    rw [ready_afterAll, ready_visit, hready]
  obtain ⟨hoff, hbackPosition, hbackRotation, hbackFree⟩ :=
    visit_detach (d := inside) hinsideReady (hsamePosition.trans htipPosition)
      (hsameRotation.trans htipRotation) (hsameTool.trans hmounted) hdetach
  rw [tool.flangePose_tipPose (Rotation.dot_self_pos htool) position
    (hd.upright.unit rotation hrotation)] at hbackPosition hbackRotation
  refine ⟨happlied, hsameTool.trans hmounted, hoff, hbackPosition, hbackRotation, hbackFree, ?_⟩
  intro other again hagain hother
  have hbackReady : back.device.ready = true := by
    rw [ready_visit, hinsideReady]
  obtain ⟨hon, hagainPosition, hagainRotation, -⟩ :=
    visit_attach hbackReady hbackPosition hbackRotation hbackFree hother hagain
  exact ⟨hon, hagainPosition.trans htipPosition.symm, hagainRotation.trans htipRotation.symm⟩

/-- A tool with a quaternion of length three. -/
noncomputable def gripper : Tool ℝ := ⟨"gripper", ⟨10, 0, 120⟩, ⟨1, 2, 2, 0⟩, 2, ⟨0, 0, 60⟩⟩

/-- Another tool of the same name. -/
noncomputable def shortGripper : Tool ℝ := ⟨"gripper", ⟨0, 0, 80⟩, .identity, 1, ⟨0, 0, 40⟩⟩

/-- The attached tool is given up to another one of its name, and detaching restores the
pose that a starting pose with a quaternion of length five led to. -/
theorem tool_round_trip_renamed :
    ∃ d : Device ℝ, (Device.blank (Registry.empty.insert "gripper" gripper)).start
        ⟨some ⟨300, 0, 500⟩, some ⟨0, 0, 3, 4⟩, none, none⟩ .standard = .ok d ∧
      let mounted := d.visit ⟨1, .attachTool "gripper"⟩
      let inside := mounted.device.afterAll [⟨2, .defineTool shortGripper⟩, ⟨3, .wait 100⟩]
      let back := inside.visit ⟨4, .detachTool⟩
      mounted.applied = true ∧ inside.state.tool = some gripper ∧ back.applied = true ∧
        back.state.position = some ⟨300, 0, 500⟩ ∧
        back.state.rotation = some (Rotation.normalize ⟨0, 0, 3, 4⟩) := by
  obtain ⟨d, hstart, hposition, hrotation, hfree, hfind⟩ :
      ∃ d : Device ℝ, (Device.blank (Registry.empty.insert "gripper" gripper)).start
          ⟨some ⟨300, 0, 500⟩, some ⟨0, 0, 3, 4⟩, none, none⟩ .standard = .ok d ∧
        d.state.position = some ⟨300, 0, 500⟩ ∧
        d.state.rotation = some (Rotation.normalize ⟨0, 0, 3, 4⟩) ∧ d.state.tool = none ∧
        d.state.tools.find? "gripper" = some gripper :=
    ⟨_, rfl, rfl, rfl, rfl, by simp [blank, State.blank]⟩
  have hd : d.Oriented := by
    refine .start (.blank _) (fun q hq => ?_) hstart
    obtain rfl := Option.some.inj hq
    simp
  have hattach : (⟨1, .attachTool "gripper"⟩ : Action ℝ).command = .attachTool "gripper" := rfl
  have hdetach : (⟨4, .detachTool⟩ : Action ℝ).command = .detachTool := rfl
  obtain ⟨hmounted, htool, hback, hposition', hrotation', -⟩ :=
    Oriented.tool_round_trip hd hposition hrotation hfree hfind (by simp [gripper]) hattach
      hdetach [⟨2, .defineTool shortGripper⟩, ⟨3, .wait 100⟩]
      (by simp [Command.isMotion, Command.changesTool])
  exact ⟨d, hstart, hmounted, htool, hback, hposition', hrotation'⟩

end Device

end RobotMotion
