import RobotMotion.Proofs.Device.Pose
import RobotMotion.Proofs.Geometry.Exact

/-!
# Extruded length

The length extruded so far grows with the motions that a device makes while it extrudes,
by the extrusion rate times the way. `Command.Extrudes` says once what each command does
to it, and to whether the device extrudes (`Device.perform_extrudes`).
-/

namespace RobotMotion

variable {α : Type} [Scalar α]

/-! ### Motions -/

namespace State

variable {s : State α}

/-- A motion that does not extrude. -/
theorem extrusionTo_of_idle (h : s.extruding = false) (there : Vector3 α) :
    s.extrusionTo there = s.extruded := by
  rw [extrusionTo, h]

/-- A motion from joint angles has no way, and extrudes nothing. -/
theorem extrusionTo_of_nowhere (h : s.position = none) (there : Vector3 α) :
    s.extrusionTo there = s.extruded := by
  rw [extrusionTo, h]
  cases s.extruding <;> rfl

/-- A motion that extrudes. -/
theorem extrusionTo_of_extruding (h : s.extruding = true) {here : Vector3 α}
    (hs : s.position = some here) (there : Vector3 α) :
    s.extrusionTo there = s.extruded + s.settings.extrusionRate * here.distance there := by
  rw [extrusionTo, h, hs]

end State

/-! ### Exact lengths -/

namespace State

variable {s : State ℝ} {here : Vector3 ℝ}

/-- Turning in place extrudes nothing. -/
theorem extrusionTo_here (hs : s.position = some here) : s.extrusionTo here = s.extruded := by
  cases hextruding : s.extruding with
  | false => exact extrusionTo_of_idle hextruding here
  | true =>
    rw [extrusionTo_of_extruding hextruding hs, Vector3.distance_self]
    ring

/-- A way that is longer by a factor extrudes more by the same factor. -/
theorem extrusionTo_scale (hs : s.position = some here) (way : Vector3 ℝ) {k : ℝ} (hk : 0 ≤ k) :
    s.extrusionTo (here + way.scale k) - s.extruded =
      k * (s.extrusionTo (here + way) - s.extruded) := by
  cases hextruding : s.extruding with
  | false =>
    rw [extrusionTo_of_idle hextruding, extrusionTo_of_idle hextruding]
    ring
  | true =>
    rw [extrusionTo_of_extruding hextruding hs, extrusionTo_of_extruding hextruding hs,
      Vector3.distance_add, Vector3.distance_add, Vector3.length_scale way k hk]
    ring

end State

/-! ### Commands -/

/-- What carrying out a command makes of the extruded length. -/
def Command.Extrudes (s t : State α) : Command α → Prop
  | .translation .. | .transformation .. =>
    ∃ there, t.position = some there ∧ t.extruded = s.extrusionTo there ∧
      t.extruding = s.extruding
  | .rotation .. =>
    ∃ here, s.position = some here ∧ t.position = some here ∧ t.extruded = s.extrusionTo here ∧
      t.extruding = s.extruding
  | .extrusion on => t.extruded = s.extruded ∧ t.extruding = on
  | _ => t.extruded = s.extruded ∧ t.extruding = s.extruding

namespace State

variable {s t : State α}

omit [Scalar α] in
/-- Changing the tool moves the pose, but nothing is extruded on the way. -/
theorem Remounts.extruded_eq {tool : Option (Tool α)} (h : s.Remounts tool t) :
    t.extruded = s.extruded ∧ t.extruding = s.extruding := by
  obtain rfl | ⟨-, _, rfl⟩ := h <;> exact ⟨rfl, rfl⟩

theorem perform_extrudes {command : Command α} (h : s.perform command = .ok t) :
    command.Extrudes s t := by
  cases command with
  | translation delta relative =>
    obtain ⟨there, _, rfl, -⟩ := translate_eq_ok h
    exact ⟨there, rfl, rfl, rfl⟩
  | rotation delta relative =>
    obtain ⟨here, _, rfl, hs, -⟩ := rotate_eq_ok h
    exact ⟨here, hs, rfl, rfl, rfl⟩
  | transformation translation delta relative first =>
    obtain ⟨there, _, rfl, -⟩ := transform_eq_ok h
    exact ⟨there, rfl, rfl, rfl⟩
  | axes joints relative =>
    obtain ⟨_, rfl⟩ := moveAxes_eq_ok h
    exact ⟨rfl, rfl⟩
  | externalAxis index value target relative =>
    obtain ⟨_, _, rfl⟩ := moveExternal_eq_ok h
    exact ⟨rfl, rfl⟩
  | attachTool name =>
    obtain ⟨tool, -, rfl⟩ := attachNamed_eq_ok h
    exact (s.remounts_attach tool).extruded_eq
  | detachTool => exact (detach_eq_ok h).extruded_eq
  | _ =>
    obtain rfl := Except.ok.inj h
    exact ⟨rfl, rfl⟩

end State

namespace Device

variable {d e : Device α}

/-- **Carrying out a command does to the extruded length what `Command.Extrudes` says.** -/
theorem perform_extrudes {command : Command α} (h : d.perform command = .ok e) :
    command.Extrudes d.state e.state := by
  obtain ⟨-, state, stack, ha, rfl⟩ := perform_eq_ok h
  have hremembered (hextrudes : command.Extrudes d.state state) :
      command.Extrudes d.state { state with previous := d.state.snapshot } := by
    cases command <;> exact hextrudes
  refine hremembered ?_
  obtain ⟨rfl, rfl, -⟩ | ⟨rfl, _, _, -, rfl, -⟩ | ⟨hs, -⟩ := advance_eq_ok ha
  · exact ⟨rfl, rfl⟩
  · exact ⟨rfl, rfl⟩
  · exact State.perform_extrudes hs

/-- What an applied action extruded is told from the memory of the state before. -/
theorem extrudedDelta_of_perform {command : Command α} (h : d.perform command = .ok e) :
    e.state.extrudedDelta = e.state.extruded - d.state.extruded := by
  obtain ⟨-, state, stack, -, rfl⟩ := perform_eq_ok h
  rfl

end Device

end RobotMotion
