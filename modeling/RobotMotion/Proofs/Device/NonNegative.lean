import RobotMotion.Proofs.Device.Brackets
import RobotMotion.Proofs.Device.Extrusion

/-!
# Numbers that are never below zero

A command that changes a quantity or a temperature cuts the new value off at zero, and
settings that are put aside or taken back are copied as they are. So a device that starts
from settings without a negative number never comes to hold one, in whichever place it
keeps settings (`Device.NotNegative.visit`). Over exact numbers it follows that the extruded
length never decreases, since it grows by the extrusion rate times a way
(`Device.NotNegative.extruded_le_visit`).
-/

namespace RobotMotion

variable {α : Type} [Scalar α]

/-! ### Numbers -/

namespace Scalar

/-- A number is not below zero, as the machine compares. Over doubles this also holds of a
value that compares with nothing. -/
def NotNegative (x : α) : Prop := less x zero = false

instance (x : α) : Decidable (NotNegative x) := inferInstanceAs (Decidable (_ = _))

/-- Cutting off at zero leaves nothing below it, if zero is not below itself. -/
theorem notNegative_nonNegative (hzero : NotNegative (zero : α)) (x : α) :
    NotNegative (nonNegative x) := by
  rw [nonNegative]
  split
  · exact hzero
  · rename_i hless
    exact Bool.eq_false_iff.mpr hless

/-- Over exact numbers the machine compares as usual. -/
theorem notNegative_real {x : ℝ} : NotNegative x ↔ 0 ≤ x := by
  rw [NotNegative, zero_real, ← not_lt]
  exact decide_eq_false_iff_not

end Scalar

/-! ### Settings -/

/-- Settings in which no number is below zero. -/
def Settings.NotNegative (s : Settings α) : Prop := ∀ q, Scalar.NotNegative (s.quantity q)

/-- What a device starts with over doubles. -/
theorem Settings.notNegative_standard : (standard : Settings Float).NotNegative := by
  intro q
  cases q <;> decide +kernel

/-- What a device starts with over exact numbers. -/
theorem Settings.notNegative_standard_real : (standard : Settings ℝ).NotNegative := by
  intro q
  rw [Scalar.notNegative_real]
  cases q <;> exact Nat.cast_nonneg _

/-- A command that changes a quantity cuts the new value off at zero. -/
theorem Command.notNegative_tuned (hzero : Scalar.NotNegative (Scalar.zero : α))
    (command : Command α) {s : Settings α} (hs : s.NotNegative) :
    (command.tuned s).NotNegative := by
  intro q
  cases command with
  | setting which value relative =>
    rw [tuned, Settings.quantity_withQuantity]
    split
    · exact Scalar.notNegative_nonNegative hzero _
    · exact hs q
  | _ =>
    rw [quantity_tuned nofun]
    exact hs q

/-! ### Temperatures -/

/-- The temperatures asked of the heated parts after a command. -/
def Command.heated (command : Command α) (t : Temperatures α) : Temperatures α :=
  match command with
  | .temperature part value _ relative =>
    t.set part <| Scalar.nonNegative <|
      Scalar.shifted relative ((t.get? part).getD Scalar.zero) value
  | _ => t

namespace State

variable {s t : State α}

omit [Scalar α] in
theorem Remounts.temperatures_eq {tool : Option (Tool α)} (h : s.Remounts tool t) :
    t.temperatures = s.temperatures := by
  obtain rfl | ⟨-, _, rfl⟩ := h <;> rfl

/-- Only commands to heat change what is asked of the heated parts. -/
theorem perform_temperatures {command : Command α} (h : s.perform command = .ok t) :
    t.temperatures = command.heated s.temperatures := by
  cases command with
  | translation delta relative =>
    obtain ⟨_, _, rfl, -⟩ := translate_eq_ok h
    rfl
  | rotation delta relative =>
    obtain ⟨_, _, rfl, -⟩ := rotate_eq_ok h
    rfl
  | transformation translation delta relative first =>
    obtain ⟨_, _, rfl, -⟩ := transform_eq_ok h
    rfl
  | axes joints relative =>
    obtain ⟨_, rfl⟩ := moveAxes_eq_ok h
    rfl
  | externalAxis index value target relative =>
    obtain ⟨_, _, rfl⟩ := moveExternal_eq_ok h
    rfl
  | attachTool name =>
    obtain ⟨tool, -, rfl⟩ := attachNamed_eq_ok h
    exact (s.remounts_attach tool).temperatures_eq
  | detachTool => exact (detach_eq_ok h).temperatures_eq
  | _ =>
    obtain rfl := Except.ok.inj h
    rfl

end State

/-- **Carrying out a command asks of the heated parts what `Command.heated` says.** -/
theorem Device.perform_heats {d e : Device α} {command : Command α}
    (h : d.perform command = .ok e) :
    e.state.temperatures = command.heated d.state.temperatures := by
  obtain ⟨-, state, stack, ha, rfl⟩ := perform_eq_ok h
  show state.temperatures = _
  obtain ⟨rfl, rfl, -⟩ | ⟨rfl, _, _, -, rfl, -⟩ | ⟨hs, -⟩ := advance_eq_ok ha
  · rfl
  · rfl
  · exact State.perform_temperatures hs

/-! ### Devices -/

/-- A device that holds no negative number in its settings, wherever it keeps them, and asks
no negative temperature. -/
structure Device.NotNegative (d : Device α) : Prop where
  /-- the settings in force -/
  present : d.state.settings.NotNegative
  /-- the settings that were put aside -/
  aside : ∀ s ∈ d.stack.entries, s.NotNegative
  /-- the settings that were in force before some were taken back last -/
  beforePop : ∀ s, d.stack.beforePop = some s → s.NotNegative
  /-- the temperatures asked of the heated parts -/
  temperatures : ∀ part t, d.state.temperatures.get? part = some t → Scalar.NotNegative t

namespace Device

variable {d e : Device α}

/-- A device that was never started holds the standard settings and no temperature. -/
theorem notNegative_blank (hstandard : (Settings.standard : Settings α).NotNegative)
    (tools : Registry (Tool α)) : (blank tools : Device α).NotNegative where
  present := hstandard
  aside := fun _ hs => absurd hs List.not_mem_nil
  beforePop := nofun
  temperatures := fun part _ ht => by cases part <;> cases ht

/-- A device is started at settings that are given to it, and keeps the rest. -/
theorem NotNegative.start (h : d.NotNegative) {pose : InitialPose α} {settings : Settings α}
    (hsettings : settings.NotNegative) (he : d.start pose settings = .ok e) :
    e.NotNegative := by
  obtain ⟨-, -, rfl⟩ := start_eq_ok he
  exact ⟨hsettings, h.aside, h.beforePop, h.temperatures⟩

/-- The settings in force come from the ones before, or from those put aside. -/
theorem NotNegative.present_perform (hzero : Scalar.NotNegative (Scalar.zero : α))
    (h : d.NotNegative) {command : Command α} (he : d.perform command = .ok e) :
    e.state.settings.NotNegative := by
  have htunes := perform_tunes he
  by_cases hpop : command = .popSettings
  · subst hpop
    -- what is taken back was put aside without a negative number
    obtain ⟨rest, hentries, -⟩ := htunes
    exact h.aside _ (hentries ▸ List.mem_cons_self)
  · have htuned : e.state.settings = command.tuned d.state.settings := by
      cases command with
      | popSettings => exact absurd rfl hpop
      | _ => exact htunes
    rw [htuned]
    exact command.notNegative_tuned hzero h.present

/-- Settings that are put aside or remembered are the ones in force. -/
theorem NotNegative.stacked (h : d.NotNegative) (command : Command α) :
    (∀ s ∈ (command.stacked d).entries, s.NotNegative) ∧
      ∀ s, (command.stacked d).beforePop = some s → s.NotNegative := by
  cases command with
  | pushSettings =>
    refine ⟨fun s hs => ?_, h.beforePop⟩
    rcases List.mem_cons.mp hs with rfl | hs
    · exact h.present
    · exact h.aside s hs
  | popSettings =>
    refine ⟨fun s hs => h.aside s (List.mem_of_mem_tail hs), fun s hs => ?_⟩
    obtain rfl := Option.some.inj hs
    exact h.present
  | _ => exact ⟨h.aside, h.beforePop⟩

/-- A temperature that is asked for is cut off at zero, too. -/
theorem NotNegative.heated (hzero : Scalar.NotNegative (Scalar.zero : α)) (h : d.NotNegative)
    (command : Command α) {part : HeatedPart} {t : α}
    (ht : (command.heated d.state.temperatures).get? part = some t) : Scalar.NotNegative t := by
  cases command with
  | temperature asked value wait relative =>
    rw [Command.heated, Temperatures.get?_set] at ht
    split at ht
    · obtain rfl := Option.some.inj ht
      exact Scalar.notNegative_nonNegative hzero _
    · exact h.temperatures part t ht
  | _ => exact h.temperatures part t ht

/-- **No command brings in a negative number.** -/
theorem NotNegative.perform (hzero : Scalar.NotNegative (Scalar.zero : α)) (h : d.NotNegative)
    {command : Command α} (he : d.perform command = .ok e) : e.NotNegative where
  present := h.present_perform hzero he
  aside := by
    rw [perform_stack he]
    exact (h.stacked command).1
  beforePop := by
    rw [perform_stack he]
    exact (h.stacked command).2
  temperatures := by
    intro part t ht
    rw [perform_heats he] at ht
    exact h.heated hzero command ht

/-- **No action brings in a negative number**, whether it applies or not. -/
theorem NotNegative.visit (hzero : Scalar.NotNegative (Scalar.zero : α)) (h : d.NotNegative)
    (a : Action α) : (d.visit a).device.NotNegative := by
  cases happlied : (d.visit a).applied with
  | false =>
    rw [visit_device_of_rejected happlied]
    exact h
  | true => exact h.perform hzero (perform_of_applied happlied)

theorem NotNegative.of_mem_visits (hzero : Scalar.NotNegative (Scalar.zero : α))
    (h : d.NotNegative) {actions : List (Action α)} {v : Visit α} (hv : v ∈ d.visits actions) :
    v.device.NotNegative := by
  induction actions generalizing d with
  | nil => cases hv
  | cons a rest ih =>
    rcases List.mem_cons.mp hv with rfl | hv
    · exact h.visit hzero a
    · exact ih (h.visit hzero a) hv

end Device

/-! ### Exact lengths -/

/-- Motions never take material back while the extrusion rate is not negative. -/
theorem State.le_extrusionTo {s : State ℝ} (hrate : 0 ≤ s.settings.extrusionRate)
    (there : Vector3 ℝ) : s.extruded ≤ s.extrusionTo there := by
  cases hextruding : s.extruding with
  | false => exact (extrusionTo_of_idle hextruding there).ge
  | true =>
    cases hposition : s.position with
    | none => exact (extrusionTo_of_nowhere hposition there).ge
    | some here =>
      rw [extrusionTo_of_extruding hextruding hposition]
      exact le_add_of_nonneg_right (mul_nonneg hrate (Real.sqrt_nonneg _))

namespace Device

variable {d e : Device ℝ}

/-- No command shortens the extruded length. -/
theorem NotNegative.extruded_le (h : d.NotNegative) {command : Command ℝ}
    (he : d.perform command = .ok e) : d.state.extruded ≤ e.state.extruded := by
  have hrate : 0 ≤ d.state.settings.extrusionRate :=
    Scalar.notNegative_real.mp (h.present .extrusionRate)
  have hextrudes := perform_extrudes he
  cases command with
  | translation delta relative =>
    obtain ⟨there, -, hextruded, -⟩ := hextrudes
    exact hextruded ▸ State.le_extrusionTo hrate there
  -- a rotation counts as a way to where the device is
  | rotation delta relative =>
    obtain ⟨here, -, -, hextruded, -⟩ := hextrudes
    exact hextruded ▸ State.le_extrusionTo hrate here
  | transformation translation delta relative first =>
    obtain ⟨there, -, hextruded, -⟩ := hextrudes
    exact hextruded ▸ State.le_extrusionTo hrate there
  | _ => exact hextrudes.1.ge

/-- **No action shortens the extruded length**, whether it applies or not. -/
theorem NotNegative.extruded_le_visit (h : d.NotNegative) (a : Action ℝ) :
    d.state.extruded ≤ (d.visit a).device.state.extruded := by
  cases happlied : (d.visit a).applied with
  | false => rw [visit_device_of_rejected happlied]
  | true => exact h.extruded_le (perform_of_applied happlied)

/-- A starting pose leaves the extruded length alone. -/
theorem extruded_start {pose : InitialPose ℝ} {settings : Settings ℝ}
    (he : d.start pose settings = .ok e) : e.state.extruded = d.state.extruded := by
  obtain ⟨-, -, rfl⟩ := start_eq_ok he
  rfl

end Device

end RobotMotion
