import RobotMotion.Proofs.Device.Pose

/-!
# When a command is carried out

`Command.Feasible` says what a command asks of a device: a pose to start from, a
tool to detach, settings to take back. A device that was started carries out
exactly the feasible commands (`Device.perform_isOk_iff`). Translations and
rotations to a place look at one half of the pose only, so this needs the pose to
be whole.
-/

namespace RobotMotion

variable {α : Type}

/-! ### What a command asks for -/

/-- Whether an external axis has a value in a set of axes that may not exist. -/
def ExternalAxes.HasValue (axes : Option (ExternalAxes α)) (index : Nat) : Prop :=
  ∃ present value, axes = some present ∧ present.get? index = some value

/-- What a command asks of the device that is to carry it out. -/
def Command.Feasible (d : Device α) : Command α → Prop
  | .translation .. | .rotation .. => d.state.HasPose
  | .transformation _ _ relative _ => relative = true → d.state.HasPose
  | .axes _ relative => relative = true → d.state.axes.isSome = true
  | .externalAxis index _ target relative =>
    (1 ≤ index ∧ index ≤ 6) ∧
      (relative = true →
        (target.hasCartesian = true →
          ExternalAxes.HasValue d.state.cartesianExternal index) ∧
        (target.hasJoint = true → ExternalAxes.HasValue d.state.jointExternal index))
  | .attachTool name => (d.state.tools.find? name).isSome = true
  | .detachTool => d.state.tool.isSome = true
  | .popSettings => 0 < d.stack.depth
  | _ => True

/-- Looking into a set that does not exist is looking into the empty one. -/
theorem ExternalAxes.hasValue_iff (axes : Option (ExternalAxes α)) (index : Nat) :
    ((axes.getD .empty).get? index).isSome = true ↔ HasValue axes index := by
  rw [Option.isSome_iff_exists]
  cases axes with
  | none => simp [HasValue, get?, empty]
  | some present => simp [HasValue]

/-! ### One command -/

@[simp] theorem isOk_ok {ε β : Type} (x : β) : (Except.ok x : Except ε β).isOk = true := rfl

@[simp] theorem isOk_error {ε β : Type} (e : ε) : (Except.error e : Except ε β).isOk = false :=
  rfl

@[simp] theorem isOk_map {ε β γ : Type} (x : Except ε β) (f : β → γ) :
    (x.map f).isOk = x.isOk := by
  cases x <;> rfl

/-- Of two steps of which neither needs the other both have to succeed. -/
theorem isOk_both {ε β γ δ : Type} (x : Except ε β) (y : Except ε γ) (f : β → γ → δ) :
    (do let b ← x; let c ← y; return f b c : Except ε δ).isOk = (x.isOk && y.isOk) := by
  cases x with
  | error e => rfl
  | ok b => cases y <;> rfl

namespace State

variable [Scalar α] {s : State α}

/-- Also a translation to a place needs a pose, though it looks at one half of it only. -/
theorem translate_isOk_iff (hw : s.PoseWhole) (delta : Vector3 α) (relative : Bool) :
    (s.translate delta relative).isOk = true ↔ s.HasPose := by
  rcases hw.cases with ⟨hp, hr⟩ | ⟨position, rotation, hp, hr⟩ <;>
    cases relative <;> simp [translate, HasPose, pose?, hp, hr]

/-- Also a rotation to a place needs a pose. -/
theorem rotate_isOk_iff (hw : s.PoseWhole) (delta : Rotation α) (relative : Bool) :
    (s.rotate delta relative).isOk = true ↔ s.HasPose := by
  rcases hw.cases with ⟨hp, hr⟩ | ⟨position, rotation, hp, hr⟩ <;>
    cases relative <;> simp [rotate, HasPose, pose?, hp, hr]

/-- A transformation to a place sets a pose of its own, and needs none before it. -/
theorem transform_isOk_iff (hw : s.PoseWhole) (translation : Vector3 α) (delta : Rotation α)
    (relative translationFirst : Bool) :
    (s.transform translation delta relative translationFirst).isOk = true ↔
      (relative = true → s.HasPose) := by
  rcases hw.cases with ⟨hp, hr⟩ | ⟨position, rotation, hp, hr⟩ <;>
    cases relative <;> simp [transform, HasPose, pose?, hp, hr]

/-- Joints move on from where they are, or to anywhere. -/
theorem moveAxes_isOk_iff (joints : Joints α) (relative : Bool) :
    (s.moveAxes joints relative).isOk = true ↔ (relative = true → s.axes.isSome = true) := by
  cases ha : s.axes <;> cases relative <;> simp [moveAxes, ha]

/-- A relative value needs a value to be added to. -/
theorem updateExternal_isOk_iff (axes : Option (ExternalAxes α)) {index : Nat} (value : α)
    (relative : Bool) :
    (updateExternal axes index value relative).isOk = true ↔
      (relative = true → ExternalAxes.HasValue axes index) := by
  cases relative with
  | false => simp [updateExternal]
  | true =>
    rw [← ExternalAxes.hasValue_iff]
    cases hv : (axes.getD .empty).get? index <;> simp [updateExternal, hv]

theorem updateTargeted_isOk_iff (targeted : Bool) (axes : Option (ExternalAxes α))
    (index : Nat) (value : α) (relative : Bool) :
    (updateTargeted targeted axes index value relative).isOk = true ↔
      (targeted = true → relative = true → ExternalAxes.HasValue axes index) := by
  cases targeted <;> simp [updateTargeted, updateExternal_isOk_iff]

/-- The sets are looked at one after the other; the second look does not depend
on what became of the first. -/
theorem moveExternal_isOk_iff (index : Nat) (value : α) (target : AxesTarget)
    (relative : Bool) :
    (s.moveExternal index value target relative).isOk = true ↔
      (1 ≤ index ∧ index ≤ 6) ∧
        (relative = true →
          (target.hasCartesian = true → ExternalAxes.HasValue s.cartesianExternal index) ∧
          (target.hasJoint = true → ExternalAxes.HasValue s.jointExternal index)) := by
  -- an axis number that is out of range is refused before any set is looked at
  by_cases hi : 1 ≤ index ∧ index ≤ 6
  · have hin : ExternalAxes.inRange index = true := by simpa [ExternalAxes.inRange] using hi
    rw [moveExternal, if_pos hin, isOk_both, Bool.and_eq_true, updateTargeted_isOk_iff,
      updateTargeted_isOk_iff]
    constructor
    · rintro ⟨hc, hj⟩
      exact ⟨hi, fun hr => ⟨fun ht => hc ht hr, fun ht => hj ht hr⟩⟩
    · rintro ⟨-, hv⟩
      exact ⟨fun ht hr => (hv hr).1 ht, fun ht hr => (hv hr).2 ht⟩
  · have hin : ExternalAxes.inRange index = false := by simpa [ExternalAxes.inRange] using hi
    simp [moveExternal, hin, hi]

theorem detach_isOk_iff : s.detach.isOk = true ↔ s.tool.isSome = true := by
  cases ht : s.tool <;> simp [detach, ht]

/-- A tool is attached by a name that a tool at hand has. -/
theorem attachNamed_isOk_iff (name : String) :
    (s.attachNamed name).isOk = true ↔ (s.tools.find? name).isSome = true := by
  cases ht : s.tools.find? name <;> simp [attachNamed, ht]

end State

namespace Device

variable [Scalar α] {d : Device α}

/-- A device that was started goes on exactly where a command is feasible. -/
theorem advance_isOk_iff (hw : d.state.PoseWhole) (command : Command α) :
    (d.advance command).isOk = true ↔ command.Feasible d := by
  cases command with
  | popSettings =>
    cases hs : d.stack.entries <;>
      simp [advance, SettingsStack.pop?, Command.Feasible, SettingsStack.depth, hs]
  -- commands that change the state alone are asked about there, and the stack is as it was
  | translation delta relative =>
    simp only [advance, isOk_map]
    exact State.translate_isOk_iff hw delta relative
  | rotation delta relative =>
    simp only [advance, isOk_map]
    exact State.rotate_isOk_iff hw delta relative
  | transformation translation delta relative first =>
    simp only [advance, isOk_map]
    exact State.transform_isOk_iff hw translation delta relative first
  | axes joints relative =>
    simp only [advance, isOk_map]
    exact State.moveAxes_isOk_iff joints relative
  | externalAxis index value target relative =>
    simp only [advance, isOk_map]
    exact State.moveExternal_isOk_iff index value target relative
  | attachTool name =>
    simp only [advance, isOk_map]
    exact State.attachNamed_isOk_iff name
  | detachTool =>
    simp only [advance, isOk_map]
    exact State.detach_isOk_iff
  | _ => simp [advance, State.perform, Command.Feasible]

/-- **A device carries out a command exactly if it was started and the command is
feasible.** -/
theorem perform_isOk_iff (hw : d.state.PoseWhole) (command : Command α) :
    (d.perform command).isOk = true ↔ d.ready = true ∧ command.Feasible d := by
  rw [perform]
  cases hr : d.ready with
  | false => simp
  | true => simp [advance_isOk_iff hw]

end Device

end RobotMotion
