import RobotMotion.Cursor.Basic

/-!
# Whole poses

A device knows its position and its rotation together or knows neither
(`State.PoseWhole`). Several rules write the two one after the other, and two
read only one of them; that the other is there too is an invariant.

`Device.Reachable` is the closure of the blank devices under starting and
carrying out commands. What every device does keeps the pose whole
(`Device.Reachable.poseWhole`).
-/

namespace RobotMotion

variable {α : Type}

/-- At the origin of the world, without a rotation. -/
def InitialPose.origin [Scalar α] : InitialPose α :=
  ⟨some Vector3.zero, some Rotation.identity, none, none⟩

namespace State

/-- Whether the device is at a cartesian pose. -/
def HasPose (s : State α) : Prop := s.position.isSome = true ∧ s.rotation.isSome = true

/-- A position is known exactly when a rotation is. -/
def PoseWhole (s : State α) : Prop := s.position.isSome = s.rotation.isSome

/-- There are only two ways for a pose to be whole. -/
theorem PoseWhole.cases {s : State α} (hw : s.PoseWhole) :
    (s.position = none ∧ s.rotation = none) ∨
      ∃ position rotation, s.position = some position ∧ s.rotation = some rotation := by
  rw [PoseWhole] at hw
  cases hp : s.position with
  | none =>
    rw [hp] at hw
    exact .inl ⟨rfl, Option.isNone_iff_eq_none.mp (Option.isSome_eq_false_iff.mp hw.symm)⟩
  | some position =>
    rw [hp] at hw
    obtain ⟨rotation, hr⟩ := Option.isSome_iff_exists.mp hw.symm
    exact .inr ⟨position, rotation, rfl, hr⟩

/-- The pose is the position and the rotation. -/
theorem pose?_eq_some_iff {s : State α} {position : Vector3 α} {rotation : Rotation α} :
    s.pose? = some (position, rotation) ↔
      s.position = some position ∧ s.rotation = some rotation := by
  cases hp : s.position with
  | none => simp [pose?, hp]
  | some _ => cases hr : s.rotation <;> simp [pose?, hp, hr]

variable [Scalar α] {s t : State α}

/-! ### What a motion leaves behind -/

/-- What a quaternion turns the tool to: to itself, or further from where the tool is. -/
def TurnsTo (s : State α) (delta rotation : Rotation α) : Prop :=
  rotation = delta ∨ ∃ now, s.rotation = some now ∧ rotation = rotatedBy s.settings.frame now delta

/-- A translation leads to another point, with the rotation of before. -/
theorem translate_eq_ok {delta : Vector3 α} {relative : Bool}
    (h : s.translate delta relative = .ok t) :
    ∃ there rotation, t = s.moveTo there rotation ∧ s.rotation = some rotation := by
  rw [translate] at h
  split at h
  · split at h
    · cases h
    · rename_i hpose
      exact ⟨_, _, (Except.ok.inj h).symm, (pose?_eq_some_iff.mp hpose).2⟩
  · split at h
    · cases h
    · rename_i hrotation
      exact ⟨_, _, (Except.ok.inj h).symm, hrotation⟩

/-- A rotation stays at its point. -/
theorem rotate_eq_ok {delta : Rotation α} {relative : Bool}
    (h : s.rotate delta relative = .ok t) :
    ∃ here rotation, t = s.moveTo here rotation ∧ s.position = some here ∧
      s.TurnsTo delta rotation := by
  rw [rotate] at h
  split at h
  · split at h
    · cases h
    · rename_i hpose
      obtain ⟨hposition, hrotation⟩ := pose?_eq_some_iff.mp hpose
      exact ⟨_, _, (Except.ok.inj h).symm, hposition, .inr ⟨_, hrotation, rfl⟩⟩
  · split at h
    · cases h
    · rename_i hposition
      exact ⟨_, _, (Except.ok.inj h).symm, hposition, .inl rfl⟩

/-- A transformation leads to another point and turns. -/
theorem transform_eq_ok {translation : Vector3 α} {delta : Rotation α}
    {relative first : Bool} (h : s.transform translation delta relative first = .ok t) :
    ∃ there rotation, t = s.moveTo there rotation ∧ s.TurnsTo delta rotation := by
  rw [transform] at h
  -- relative to a pose it turns further, and otherwise it turns to a place
  split at h
  · split at h
    · cases h
    · rename_i hpose
      exact ⟨_, _, (Except.ok.inj h).symm, .inr ⟨_, (pose?_eq_some_iff.mp hpose).2, rfl⟩⟩
  · exact ⟨_, _, (Except.ok.inj h).symm, .inl rfl⟩

/-- Joint angles take the place of the pose. -/
theorem moveAxes_eq_ok {joints : Joints α} {relative : Bool}
    (h : s.moveAxes joints relative = .ok t) :
    ∃ next, t = { s with axes := some next, position := none, rotation := none } := by
  simp only [moveAxes] at h
  split at h
  · split at h
    · cases h
    · exact ⟨_, (Except.ok.inj h).symm⟩
  · exact ⟨_, (Except.ok.inj h).symm⟩

/-- External axes are all that an external motion changes. -/
theorem moveExternal_eq_ok {index : Nat} {value : α} {target : AxesTarget} {relative : Bool}
    (h : s.moveExternal index value target relative = .ok t) :
    ∃ cartesian joint,
      t = { s with cartesianExternal := cartesian, jointExternal := joint } := by
  rw [moveExternal] at h
  split at h
  · cases hc : updateTargeted target.hasCartesian s.cartesianExternal index value relative with
    | error e => rw [hc] at h; cases h
    | ok cartesian =>
      cases hj : updateTargeted target.hasJoint s.jointExternal index value relative with
      | error e => rw [hc, hj] at h; cases h
      | ok joint =>
        rw [hc, hj] at h
        exact ⟨cartesian, joint, (Except.ok.inj h).symm⟩
  · cases h

/-! ### What changing the tool leaves behind -/

/-- A change of the tool, to another one or to none. The pose moves with it, where there is
a pose, and nothing else does. -/
def Remounts (s : State α) (tool : Option (Tool α)) (t : State α) : Prop :=
  t = { s with tool := tool } ∨ s.HasPose ∧ ∃ pose, t = { s.withPose pose with tool := tool }

theorem remounts_attach (s : State α) (tool : Tool α) :
    s.Remounts (some tool) (s.attach tool) := by
  rw [attach]
  cases hpose : s.pose? with
  | none => exact .inl rfl
  | some pose =>
    obtain ⟨hposition, hrotation⟩ := pose?_eq_some_iff.mp hpose
    exact .inr ⟨⟨Option.isSome_of_eq_some hposition, Option.isSome_of_eq_some hrotation⟩, _, rfl⟩

/-- Attaching by name attaches the tool that goes by the name. -/
theorem attachNamed_eq_ok {name : String} (h : s.attachNamed name = .ok t) :
    ∃ tool, s.tools.find? name = some tool ∧ t = s.attach tool := by
  rw [attachNamed] at h
  split at h
  · cases h
  · rename_i tool hfind
    exact ⟨tool, hfind, (Except.ok.inj h).symm⟩

/-- Detaching leaves no tool attached. -/
theorem detach_eq_ok (h : s.detach = .ok t) : s.Remounts none t := by
  rw [detach] at h
  split at h
  · cases h
  · obtain rfl := Except.ok.inj h
    cases hpose : s.pose? with
    | none => exact .inl rfl
    | some pose =>
      obtain ⟨hposition, hrotation⟩ := pose?_eq_some_iff.mp hpose
      exact .inr ⟨⟨Option.isSome_of_eq_some hposition, Option.isSome_of_eq_some hrotation⟩, _, rfl⟩

/-! ### What a starting pose leaves behind -/

/-- The state at a starting pose. -/
def startedAt (s : State α) (pose : InitialPose α) (settings : Settings α) : State α :=
  { s with
    position := pose.position
    rotation := pose.rotation.map Rotation.normalize
    axes := pose.axes
    cartesianExternal := pose.externalAxes
    jointExternal := pose.externalAxes
    settings := settings
    previous := ⟨pose.position, pose.rotation.map Rotation.normalize, pose.axes,
      s.previous.extruded⟩ }

/-! ### Wholeness is kept -/

/-- A motion ends at a position with a rotation. -/
theorem PoseWhole.moveTo (position : Vector3 α) (rotation : Rotation α) :
    (s.moveTo position rotation).PoseWhole := rfl

omit [Scalar α] in
/-- The pose moves with a change of the tool as a whole. -/
theorem PoseWhole.remounts (hw : s.PoseWhole) {tool : Option (Tool α)} (h : s.Remounts tool t) :
    t.PoseWhole := by
  obtain rfl | ⟨-, _, rfl⟩ := h
  · exact hw
  · rfl

/-- **No command takes a pose apart.** -/
theorem PoseWhole.perform (hw : s.PoseWhole) {command : Command α}
    (h : s.perform command = .ok t) : t.PoseWhole := by
  cases command with
  | translation delta relative =>
    obtain ⟨_, _, rfl, -⟩ := translate_eq_ok h
    exact .moveTo _ _
  | rotation delta relative =>
    obtain ⟨_, _, rfl, -⟩ := rotate_eq_ok h
    exact .moveTo _ _
  | transformation translation delta relative first =>
    obtain ⟨_, _, rfl, -⟩ := transform_eq_ok h
    exact .moveTo _ _
  | axes joints relative =>
    obtain ⟨_, rfl⟩ := moveAxes_eq_ok h
    rfl
  | externalAxis index value target relative =>
    obtain ⟨_, _, rfl⟩ := moveExternal_eq_ok h
    exact hw
  | attachTool name =>
    obtain ⟨tool, -, rfl⟩ := attachNamed_eq_ok h
    exact hw.remounts (s.remounts_attach tool)
  | detachTool => exact hw.remounts (detach_eq_ok h)
  | _ =>
    obtain rfl := Except.ok.inj h
    exact hw

end State

/-! ### Devices in use -/

namespace Device

variable [Scalar α] {d e : Device α}

/-- What carrying out a command makes of a device: its rules decide the state
and what is put aside, and the state before is remembered. -/
theorem perform_eq_ok {command : Command α} (h : d.perform command = .ok e) :
    d.ready = true ∧ ∃ state stack, d.advance command = .ok (state, stack) ∧
      e = ⟨true, { state with previous := d.state.snapshot }, stack⟩ := by
  rw [perform] at h
  split at h
  · rename_i hr
    cases ha : d.advance command with
    | error r => rw [ha] at h; cases h
    | ok after =>
      rw [ha] at h
      obtain rfl := Except.ok.inj h
      exact ⟨hr, after.1, after.2, rfl, by rw [← hr]⟩
  · cases h

/-- The rules for a command: one bracket puts the settings aside, the other takes settings
back, and every other command goes to the state alone. -/
theorem advance_eq_ok {command : Command α} {s : State α} {stack : SettingsStack α}
    (h : d.advance command = .ok (s, stack)) :
    (command = .pushSettings ∧ s = d.state ∧ stack = d.stack.push d.state.settings) ∨
    (command = .popSettings ∧ ∃ restored rest, d.stack.entries = restored :: rest ∧
      s = { d.state with settings := restored } ∧ stack = ⟨rest, some d.state.settings⟩) ∨
    (d.state.perform command = .ok s ∧ stack = d.stack ∧
      command ≠ .pushSettings ∧ command ≠ .popSettings) := by
  unfold advance at h
  split at h
  · obtain ⟨rfl, rfl⟩ := Prod.mk.inj (Except.ok.inj h)
    exact .inl ⟨rfl, rfl, rfl⟩
  · cases hentries : d.stack.entries with
    | nil =>
      simp only [SettingsStack.pop?, hentries] at h
      cases h
    | cons restored rest =>
      simp only [SettingsStack.pop?, hentries] at h
      obtain ⟨rfl, rfl⟩ := Prod.mk.inj (Except.ok.inj h)
      exact .inr (.inl ⟨rfl, restored, rest, rfl, rfl, rfl⟩)
  · rename_i hpush hpop
    cases hs : d.state.perform command with
    | error r => rw [hs] at h; cases h
    | ok t =>
      rw [hs] at h
      obtain ⟨rfl, rfl⟩ := Prod.mk.inj (Except.ok.inj h)
      exact .inr (.inr ⟨rfl, rfl, fun hc => hpush hc, fun hc => hpop hc⟩)

/-- What a starting pose that is taken makes of a device: the pose is known in whole, or
joint angles are, and what was put aside stays there. -/
theorem start_eq_ok {pose : InitialPose α} {settings : Settings α}
    (h : d.start pose settings = .ok e) :
    pose.position.isSome = pose.rotation.isSome ∧
      (pose.position.isSome = true ∨ pose.axes.isSome = true) ∧
      e = ⟨true, d.state.startedAt pose settings, d.stack⟩ := by
  rw [start] at h
  split at h
  · cases h
  · rename_i hwhole
    split at h
    · cases h
    · rename_i hknown
      refine ⟨by simpa using hwhole, ?_, (Except.ok.inj h).symm⟩
      -- the second test is passed with a position or with joint angles
      cases hposition : pose.position with
      | some position => exact .inl rfl
      | none => exact .inr (by simpa [hposition, Option.isSome_iff_ne_none] using hknown)

/-- The devices that come about: blank ones, started and put to work. -/
inductive Reachable : Device α → Prop where
  | blank (tools : Registry (Tool α)) : Reachable (.blank tools)
  | start {d e : Device α} {pose : InitialPose α} {settings : Settings α} (hd : Reachable d)
      (h : d.start pose settings = .ok e) : Reachable e
  | perform {d e : Device α} {command : Command α} (hd : Reachable d)
      (h : d.perform command = .ok e) : Reachable e

/-- A rejected action leaves the device as it was, so a device that tries an
action stays reachable. -/
theorem Reachable.visit (hd : d.Reachable) (action : Action α) :
    (d.visit action).device.Reachable := by
  rw [Device.visit]
  split
  · rename_i after h
    exact hd.perform h
  · exact hd

theorem poseWhole_advance (hw : d.state.PoseWhole) {command : Command α} {s : State α}
    {stack : SettingsStack α} (h : d.advance command = .ok (s, stack)) : s.PoseWhole := by
  obtain ⟨-, rfl, -⟩ | ⟨-, _, _, -, rfl, -⟩ | ⟨hs, -⟩ := advance_eq_ok h
  · exact hw
  · exact hw
  · exact hw.perform hs

/-- A starting pose is given in whole or not at all. -/
theorem poseWhole_start {pose : InitialPose α} {settings : Settings α}
    (h : d.start pose settings = .ok e) : e.state.PoseWhole := by
  obtain ⟨hwhole, -, rfl⟩ := start_eq_ok h
  rw [State.PoseWhole, State.startedAt, Option.isSome_map]
  exact hwhole

/-- **The pose of a device is whole at all times.** -/
theorem Reachable.poseWhole (hd : d.Reachable) : d.state.PoseWhole := by
  induction hd with
  | blank tools => rfl
  | start hd h ih => exact poseWhole_start h
  | perform hd h ih =>
    obtain ⟨-, _, _, ha, rfl⟩ := perform_eq_ok h
    have hw := poseWhole_advance ih ha
    exact hw

end Device

end RobotMotion
