import RobotMotion.Proofs.Device.Conditions

/-!
# Where a device is

A device is at a cartesian pose or at joint angles. `Command.Places` says what a
command that was carried out does to the three parts of that: a cartesian motion
leaves a pose and no joint angles, a joint motion leaves joint angles and no pose, a
change of tool moves a pose but neither makes nor forgets one, and nothing else
touches any of the three (`Device.perform_places`).

Two consequences hold of every device in use. Once started, it is somewhere
(`Device.Reachable.placed`). And once the pose is forgotten, no command but an
absolute transformation brings one back (`Device.pose_from_nowhere`): every other
cartesian motion starts from a part of the pose.
-/

namespace RobotMotion

variable {α : Type}

/-- The same of position, rotation and joint angles are known. -/
def State.SameForm (s t : State α) : Prop :=
  t.position.isSome = s.position.isSome ∧ t.rotation.isSome = s.rotation.isSome ∧
    t.axes.isSome = s.axes.isSome

/-- What a command that was carried out makes of the place of a device. -/
def Command.Places (s t : State α) : Command α → Prop
  | .translation .. | .rotation .. | .transformation .. => t.HasPose ∧ t.axes = none
  | .axes .. => t.axes.isSome = true ∧ t.position = none ∧ t.rotation = none
  | .attachTool _ | .detachTool => s.SameForm t
  | _ => t.position = s.position ∧ t.rotation = s.rotation ∧ t.axes = s.axes

/-- Whether a command is a transformation to a pose given as a whole. -/
def Command.SetsPose : Command α → Prop
  | .transformation _ _ relative _ => relative = false
  | _ => False

/-- A device that was started is somewhere, and its pose is whole at all times. -/
structure Device.Placed (d : Device α) : Prop where
  whole : d.state.PoseWhole
  somewhere : d.ready = true → d.state.HasPose ∨ d.state.axes.isSome = true

variable [Scalar α]

namespace State

variable {s t : State α}

/-- A motion ends at a pose. -/
theorem hasPose_moveTo (position : Vector3 α) (rotation : Rotation α) :
    (s.moveTo position rotation).HasPose := ⟨rfl, rfl⟩

omit [Scalar α] in
/-- A change of tool moves a pose, and makes or forgets none. -/
theorem Remounts.sameForm {tool : Option (Tool α)} (h : s.Remounts tool t) : s.SameForm t := by
  obtain rfl | ⟨⟨hposition, hrotation⟩, _, rfl⟩ := h
  · exact ⟨rfl, rfl, rfl⟩
  · exact ⟨hposition.symm, hrotation.symm, rfl⟩

/-- A command does to the place what `Command.Places` says. -/
theorem perform_places {command : Command α} (h : s.perform command = .ok t) :
    command.Places s t := by
  cases command with
  | translation delta relative =>
    obtain ⟨_, _, rfl, -⟩ := translate_eq_ok h
    exact ⟨hasPose_moveTo _ _, rfl⟩
  | rotation delta relative =>
    obtain ⟨_, _, rfl, -⟩ := rotate_eq_ok h
    exact ⟨hasPose_moveTo _ _, rfl⟩
  | transformation translation delta relative first =>
    obtain ⟨_, _, rfl, -⟩ := transform_eq_ok h
    exact ⟨hasPose_moveTo _ _, rfl⟩
  | axes joints relative =>
    obtain ⟨_, rfl⟩ := moveAxes_eq_ok h
    exact ⟨rfl, rfl, rfl⟩
  | externalAxis index value target relative =>
    obtain ⟨_, _, rfl⟩ := moveExternal_eq_ok h
    exact ⟨rfl, rfl, rfl⟩
  | attachTool name =>
    obtain ⟨tool, -, rfl⟩ := attachNamed_eq_ok h
    exact (s.remounts_attach tool).sameForm
  | detachTool => exact (detach_eq_ok h).sameForm
  | _ =>
    obtain rfl := Except.ok.inj h
    exact ⟨rfl, rfl, rfl⟩

end State

namespace Device

variable {d e : Device α}

/-- The brackets around settings leave the place alone. -/
theorem advance_places {command : Command α} {s : State α} {stack : SettingsStack α}
    (h : d.advance command = .ok (s, stack)) : command.Places d.state s := by
  obtain ⟨rfl, rfl, -⟩ | ⟨rfl, _, _, -, rfl, -⟩ | ⟨hs, -⟩ := advance_eq_ok h
  · exact ⟨rfl, rfl, rfl⟩
  · exact ⟨rfl, rfl, rfl⟩
  · exact State.perform_places hs

/-- **What a command does to the place of a device**, which the memory of the state
before is no part of. -/
theorem perform_places {command : Command α} (h : d.perform command = .ok e) :
    command.Places d.state e.state := by
  obtain ⟨-, state, stack, ha, rfl⟩ := perform_eq_ok h
  have hplaces := advance_places ha
  exact hplaces

/-- A device is started somewhere. -/
theorem Placed.start {pose : InitialPose α} {settings : Settings α}
    (h : d.start pose settings = .ok e) : e.Placed := by
  have hwhole := poseWhole_start h
  refine ⟨hwhole, fun _ => ?_⟩
  obtain ⟨-, hknown, rfl⟩ := start_eq_ok h
  refine hknown.imp_left fun hposition => ?_
  exact ⟨hposition, hwhole.symm.trans hposition⟩

/-- A device that was somewhere is somewhere after a command. -/
theorem Placed.perform (hd : d.Placed) {command : Command α} (h : d.perform command = .ok e) :
    e.Placed := by
  obtain ⟨hr, state, stack, ha, rfl⟩ := perform_eq_ok h
  have hwhole := poseWhole_advance hd.whole ha
  have hplaces := advance_places ha
  have hbefore := hd.somewhere hr
  refine ⟨hwhole, fun _ => ?_⟩
  show state.HasPose ∨ state.axes.isSome = true
  cases command with
  | translation delta relative => exact .inl hplaces.1
  | rotation delta relative => exact .inl hplaces.1
  | transformation translation delta relative first => exact .inl hplaces.1
  | axes joints relative => exact .inr hplaces.1
  -- the same parts are known as before, and of these one was known
  | attachTool name =>
    obtain ⟨hp, hr, haxes⟩ := hplaces
    rwa [State.HasPose, hp, hr, haxes]
  | detachTool =>
    obtain ⟨hp, hr, haxes⟩ := hplaces
    rwa [State.HasPose, hp, hr, haxes]
  | _ =>
    obtain ⟨hp, hr, haxes⟩ := hplaces
    rwa [State.HasPose, hp, hr, haxes]

/-- **Every device in use is placed.** -/
theorem Reachable.placed (hd : d.Reachable) : d.Placed := by
  induction hd with
  | blank tools => exact ⟨rfl, nofun⟩
  | start _ h _ => exact .start h
  | perform _ h ih => exact ih.perform h

/-- A device has no place before it is started. -/
theorem Reachable.ready_of_position (hd : d.Reachable) (hsome : d.state.position.isSome = true) :
    d.ready = true := by
  cases hd with
  | blank tools => cases hsome
  | start _ h =>
    obtain ⟨-, -, rfl⟩ := start_eq_ok h
    rfl
  | perform _ h =>
    obtain ⟨-, _, _, -, rfl⟩ := perform_eq_ok h
    rfl

/-- **Only an absolute transformation makes a pose out of none.** -/
theorem pose_from_nowhere (hd : d.Placed) {command : Command α}
    (h : d.perform command = .ok e) (hnone : d.state.position = none)
    (hsome : e.state.position.isSome = true) : command.SetsPose := by
  have hplaces := perform_places h
  obtain ⟨-, hfeasible⟩ := (perform_isOk_iff hd.whole command).mp (by rw [h]; rfl)
  have hno : ¬ d.state.HasPose := by
    rintro ⟨hp, -⟩
    rw [hnone] at hp
    cases hp
  cases command with
  | translation delta relative => exact absurd hfeasible hno
  | rotation delta relative => exact absurd hfeasible hno
  | transformation translation delta relative first =>
    exact Bool.eq_false_iff.mpr fun hrelative => hno (hfeasible hrelative)
  | axes joints relative =>
    rw [hplaces.2.1] at hsome
    cases hsome
  | attachTool name =>
    rw [hplaces.1, hnone] at hsome
    cases hsome
  | detachTool =>
    rw [hplaces.1, hnone] at hsome
    cases hsome
  | _ =>
    rw [hplaces.1, hnone] at hsome
    cases hsome

end Device

end RobotMotion
