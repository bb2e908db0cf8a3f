import RobotMotion.Proofs.Device.Pose

/-!
# What a device remembers

A device remembers where it was before the last applied action (`State.previous`). No
command reads that: devices that differ in their memory only carry out the same commands,
and are the same afterwards (`Device.perform_remembering`). Most commands go to the state
alone, and for these one carries out a command on a device by carrying it out on the state
and remembering the state before (`Device.perform_of_state`).
-/

namespace RobotMotion

variable {α : Type}

/-- The state with something else remembered. -/
def State.remembering (s : State α) (memory : Snapshot α) : State α :=
  { s with previous := memory }

/-- The device with something else remembered. -/
def Device.remembering (d : Device α) (memory : Snapshot α) : Device α :=
  { d with state := d.state.remembering memory }

@[simp] theorem Device.remembering_remembering (d : Device α) (before memory : Snapshot α) :
    (d.remembering before).remembering memory = d.remembering memory := rfl

@[simp] theorem Device.remembering_previous (d : Device α) :
    d.remembering d.state.previous = d := rfl

@[simp] theorem Device.ready_remembering (d : Device α) (memory : Snapshot α) :
    (d.remembering memory).ready = d.ready := rfl

namespace State

variable [Scalar α] (s : State α) (memory : Snapshot α)

/-- Translating reads the pose and the rotation alone. -/
theorem translate_remembering (delta : Vector3 α) (relative : Bool) :
    (s.remembering memory).translate delta relative =
      (s.translate delta relative).map (·.remembering memory) := by
  have hpose : (s.remembering memory).pose? = s.pose? := rfl
  have hrotation : (s.remembering memory).rotation = s.rotation := rfl
  cases relative with
  | true => cases h : s.pose? <;> simp only [translate, hpose, h, if_true] <;> rfl
  | false =>
    cases h : s.rotation <;>
      simp only [translate, hrotation, h, Bool.false_eq_true, if_false] <;> rfl

/-- Rotating reads the pose and the position alone. -/
theorem rotate_remembering (delta : Rotation α) (relative : Bool) :
    (s.remembering memory).rotate delta relative =
      (s.rotate delta relative).map (·.remembering memory) := by
  have hpose : (s.remembering memory).pose? = s.pose? := rfl
  have hposition : (s.remembering memory).position = s.position := rfl
  cases relative with
  | true => cases h : s.pose? <;> simp only [rotate, hpose, h, if_true] <;> rfl
  | false =>
    cases h : s.position <;>
      simp only [rotate, hposition, h, Bool.false_eq_true, if_false] <;> rfl

/-- Transforming reads the pose alone. -/
theorem transform_remembering (translation : Vector3 α) (delta : Rotation α)
    (relative translationFirst : Bool) :
    (s.remembering memory).transform translation delta relative translationFirst =
      (s.transform translation delta relative translationFirst).map (·.remembering memory) := by
  have hpose : (s.remembering memory).pose? = s.pose? := rfl
  cases relative with
  | true => cases h : s.pose? <;> simp only [transform, hpose, h, if_true] <;> rfl
  | false => rfl

/-- Moving joints reads the joint angles alone. -/
theorem moveAxes_remembering (joints : Joints α) (relative : Bool) :
    (s.remembering memory).moveAxes joints relative =
      (s.moveAxes joints relative).map (·.remembering memory) := by
  have haxes : (s.remembering memory).axes = s.axes := rfl
  cases relative with
  | true => cases h : s.axes <;> simp only [moveAxes, haxes, h, if_true] <;> rfl
  | false => rfl

/-- Neither set of axes depends on what is remembered, so both are looked at as
before. -/
theorem moveExternal_remembering (index : Nat) (value : α) (target : AxesTarget)
    (relative : Bool) :
    (s.remembering memory).moveExternal index value target relative =
      (s.moveExternal index value target relative).map (·.remembering memory) := by
  have hcartesian : (s.remembering memory).cartesianExternal = s.cartesianExternal := rfl
  have hjoint : (s.remembering memory).jointExternal = s.jointExternal := rfl
  simp only [moveExternal, hcartesian, hjoint]
  cases ExternalAxes.inRange index with
  | false => rfl
  | true =>
    cases updateTargeted target.hasCartesian s.cartesianExternal index value relative with
    | error e => rfl
    | ok cartesian =>
      cases updateTargeted target.hasJoint s.jointExternal index value relative <;> rfl

/-- Attaching a tool reads the pose and the tool that is attached. -/
theorem attach_remembering (tool : Tool α) :
    (s.remembering memory).attach tool = (s.attach tool).remembering memory := by
  have hpose : (s.remembering memory).pose? = s.pose? := rfl
  cases h : s.pose? <;> simp only [attach, hpose, h] <;> rfl

/-- A tool is looked for among the tools, whatever is remembered. -/
theorem attachNamed_remembering (name : String) :
    (s.remembering memory).attachNamed name =
      (s.attachNamed name).map (·.remembering memory) := by
  have htools : (s.remembering memory).tools = s.tools := rfl
  cases h : s.tools.find? name with
  | none =>
    simp only [attachNamed, htools, h]
    rfl
  | some tool =>
    simp only [attachNamed, htools, h, attach_remembering]
    rfl

/-- Detaching reads the tool and the pose. -/
theorem detach_remembering :
    (s.remembering memory).detach = s.detach.map (·.remembering memory) := by
  have htool : (s.remembering memory).tool = s.tool := rfl
  have hpose : (s.remembering memory).pose? = s.pose? := rfl
  cases ht : s.tool with
  | none =>
    simp only [detach, htool, ht]
    rfl
  | some tool => cases hp : s.pose? <;> simp only [detach, htool, hpose, ht, hp] <;> rfl

/-- No command reads what is remembered, and a state command keeps it. -/
theorem perform_remembering (command : Command α) :
    (s.remembering memory).perform command =
      (s.perform command).map (·.remembering memory) := by
  cases command with
  | translation delta relative => exact s.translate_remembering memory delta relative
  | rotation delta relative => exact s.rotate_remembering memory delta relative
  | transformation translation delta relative first =>
    exact s.transform_remembering memory translation delta relative first
  | axes joints relative => exact s.moveAxes_remembering memory joints relative
  | externalAxis index value target relative =>
    exact s.moveExternal_remembering memory index value target relative
  | attachTool name => exact s.attachNamed_remembering memory name
  | detachTool => exact s.detach_remembering memory
  | _ => rfl

end State

/-- Whether a command puts settings aside or takes them back. -/
def Command.brackets : Command α → Bool
  | .pushSettings | .popSettings => true
  | _ => false

namespace Device

variable [Scalar α]

/-- Commands other than the two brackets go to the state alone. -/
theorem advance_of_brackets (d : Device α) {command : Command α}
    (h : command.brackets = false) :
    d.advance command = (d.state.perform command).map (·, d.stack) := by
  rw [advance] <;> (rintro rfl; cases h)

/-- **No command reads what is remembered**, brackets included. -/
theorem advance_remembering (d : Device α) (memory : Snapshot α) (command : Command α) :
    (d.remembering memory).advance command =
      (d.advance command).map fun after => (after.1.remembering memory, after.2) := by
  -- the brackets are about the settings, all others go to the state alone
  cases hbrackets : command.brackets with
  | false =>
    rw [advance_of_brackets _ hbrackets, advance_of_brackets _ hbrackets, remembering,
      State.perform_remembering]
    cases d.state.perform command <;> rfl
  | true =>
    cases command with
    | pushSettings => rfl
    | popSettings =>
      have hstack : (d.remembering memory).stack = d.stack := rfl
      have hsettings : (d.remembering memory).state.settings = d.state.settings := rfl
      cases h : d.stack.pop? d.state.settings <;> simp only [advance, hstack, hsettings, h] <;> rfl
    | _ => cases hbrackets

/-- **What is remembered does not matter to any command.** It is replaced when the
command is carried out, so not even the device afterwards depends on it. -/
theorem perform_remembering (d : Device α) (memory : Snapshot α) (command : Command α) :
    (d.remembering memory).perform command = d.perform command := by
  have hsnapshot : (d.remembering memory).state.snapshot = d.state.snapshot := rfl
  simp only [perform, ready_remembering, advance_remembering, hsnapshot]
  cases d.ready with
  | false => rfl
  | true => cases d.advance command <;> rfl

/-- A command that goes to the state alone, on a device that was started. -/
theorem perform_of_state {d : Device α} {command : Command α} {t : State α}
    (hready : d.ready = true) (h : d.state.perform command = .ok t)
    (hbrackets : command.brackets = false) :
    d.perform command = .ok ⟨true, t.remembering d.state.snapshot, d.stack⟩ := by
  rw [perform, if_pos hready, advance_of_brackets d hbrackets, h, ← hready]
  rfl

/-- Two such commands, one after the other. What the second one remembers does not matter
to any command after it. -/
theorem perform_perform_of_state {d : Device α} {first second : Command α} {s t : State α}
    (hready : d.ready = true) (hs : d.state.perform first = .ok s)
    (hfirst : first.brackets = false) (ht : s.perform second = .ok t)
    (hsecond : second.brackets = false) :
    ∃ between memory, d.perform first = .ok between ∧
      between.perform second = .ok ⟨true, t.remembering memory, d.stack⟩ := by
  have hbetween := perform_of_state hready hs hfirst
  have hafter : (⟨true, s, d.stack⟩ : Device α).perform second =
      .ok ⟨true, t.remembering s.snapshot, d.stack⟩ :=
    perform_of_state rfl ht hsecond
  -- the first command changed the memory, which the second does not read
  rw [← perform_remembering _ d.state.snapshot] at hafter
  exact ⟨_, _, hbetween, hafter⟩

end Device

end RobotMotion
