import RobotMotion.Proofs.Device.Pose

/-!
# What commands do to the settings

Three commands choose a setting, one puts all settings aside and one takes them back.
`Command.Tunes` says once what each command makes of the settings, and carrying out a
command does that (`Device.perform_tunes`). Every other command leaves the settings
alone.
-/

namespace RobotMotion

variable {α : Type} [Scalar α] {s t : State α}

/-- The settings after a command that does not take settings back. -/
def Command.tuned (command : Command α) (s : Settings α) : Settings α :=
  match command with
  | .setting which value relative =>
    s.withQuantity which (Scalar.nonNegative (Scalar.shifted relative (s.quantity which) value))
  | .motionMode mode => { s with motion := mode }
  | .referenceFrame frame => { s with frame := frame }
  | _ => s

/-- What carrying out a command makes of the settings of a device. The settings that
are taken back are those put aside last, and the present ones are remembered. -/
def Command.Tunes (d e : Device α) : Command α → Prop
  | .popSettings => ∃ rest, d.stack.entries = e.state.settings :: rest ∧
      e.stack = ⟨rest, some d.state.settings⟩
  | command => e.state.settings = command.tuned d.state.settings

/-- Only a chosen quantity changes, unless settings are taken back. -/
theorem Command.quantity_tuned {command : Command α}
    (h : ∀ which value relative, command ≠ .setting which value relative) (s : Settings α)
    (q : Quantity) : (command.tuned s).quantity q = s.quantity q := by
  cases command with
  | setting which value relative => exact absurd rfl (h which value relative)
  | motionMode mode => cases q <;> rfl
  | referenceFrame frame => cases q <;> rfl
  | _ => rfl

namespace State

omit [Scalar α] in
theorem Remounts.settings_eq {tool : Option (Tool α)} (h : s.Remounts tool t) :
    t.settings = s.settings := by
  obtain rfl | ⟨-, _, rfl⟩ := h <;> rfl

theorem perform_settings {command : Command α} (h : s.perform command = .ok t) :
    t.settings = command.tuned s.settings := by
  cases command with
  | translation delta relative =>
    obtain ⟨_, _, rfl, -⟩ := translate_eq_ok h
    rfl
  | rotation delta relative =>
    obtain ⟨_, _, rfl, -⟩ := rotate_eq_ok h
    rfl
  | transformation translation delta relative first =>
    obtain ⟨_, _, rfl, -⟩ := transform_eq_ok h
    rfl
  | axes joints relative =>
    obtain ⟨_, rfl⟩ := moveAxes_eq_ok h
    rfl
  | externalAxis index value target relative =>
    obtain ⟨_, _, rfl⟩ := moveExternal_eq_ok h
    rfl
  | attachTool name =>
    obtain ⟨tool, -, rfl⟩ := attachNamed_eq_ok h
    exact (s.remounts_attach tool).settings_eq
  | detachTool => exact (detach_eq_ok h).settings_eq
  | _ =>
    obtain rfl := Except.ok.inj h
    rfl

end State

namespace Device

variable {d e : Device α}

/-- **Carrying out a command does to the settings what `Command.Tunes` says.** -/
theorem perform_tunes {command : Command α} (h : d.perform command = .ok e) :
    command.Tunes d e := by
  obtain ⟨-, state, stack, ha, rfl⟩ := perform_eq_ok h
  have htuned (hne : command ≠ .popSettings)
      (hs : state.settings = command.tuned d.state.settings) :
      command.Tunes d ⟨true, { state with previous := d.state.snapshot }, stack⟩ := by
    cases command with
    | popSettings => exact absurd rfl hne
    | _ => exact hs
  obtain ⟨rfl, rfl, -⟩ | ⟨rfl, _, rest, hentries, rfl, rfl⟩ | ⟨hs, -, -, hpop⟩ :=
    advance_eq_ok ha
  · exact htuned nofun rfl
  · exact ⟨rest, hentries, rfl⟩
  · exact htuned hpop (State.perform_settings hs)

end Device

end RobotMotion
