import RobotMotion.Proofs.Device.Extrusion
import RobotMotion.Proofs.Device.Sequence
import RobotMotion.Proofs.Device.Tuning

/-!
# Trials

A `Trial` is an action together with the device that tries it. A trial feeds material
where it moves along a line on a device that extrudes (`Trial.fed`), and the trials since
extrusion was switched last are counted together (`Trial.sinceSwitch`). The device extrudes
on such a move what the move feeds (`Trial.fed_of_line`), and nothing on an action that is
no move (`Trial.extruded_of_not_move`).
-/

namespace RobotMotion

variable {α : Type}

/-- Whether a command leads to another point, turning or not. -/
def Command.isMove : Command α → Bool
  | .translation .. | .transformation .. => true
  | _ => false

/-- Whether a command switches extrusion on or off. -/
def Command.switchesExtrusion : Command α → Bool
  | .extrusion _ => true
  | _ => false

/-- An action, and the device that tries it. -/
structure Trial (α : Type) where
  before : Device α
  action : Action α

variable [Scalar α]

/-- The trials of a device that tries actions one after the other. -/
def Device.trials (d : Device α) : List (Action α) → List (Trial α)
  | [] => []
  | action :: rest => ⟨d, action⟩ :: (d.visit action).device.trials rest

namespace Trial

/-- What became of the action. -/
def visit (t : Trial α) : Visit α := t.before.visit t.action

/-- Whether the action was carried out and moved along a line. -/
def isLine (t : Trial α) : Bool :=
  t.visit.applied && t.action.command.isMove && t.before.state.settings.motion = .linear

/-- Whether the action moved along a line on a device that extrudes. -/
def works (t : Trial α) : Bool := t.isLine && t.before.state.extruding

/-- The length of the way to where the action led. There is none from joint angles. -/
def way (t : Trial α) : α :=
  match t.before.state.position, t.visit.state.position with
  | some here, some there => here.distance there
  | _, _ => Scalar.zero

/-- The material that the action feeds. -/
def fed (t : Trial α) : α :=
  if t.works then t.before.state.settings.extrusionRate * t.way else Scalar.zero

/-- Whether the action was carried out and switched extrusion. -/
def switches (t : Trial α) : Bool := t.visit.applied && t.action.command.switchesExtrusion

/-- The trials since extrusion was switched last, or since the start, the latest first. -/
def sinceSwitch (trials : List (Trial α)) : List (Trial α) :=
  trials.reverse.takeWhile (!·.switches)

/-- Only a switch makes the trials count anew. -/
theorem sinceSwitch_concat (trials : List (Trial α)) (t : Trial α) :
    sinceSwitch (trials ++ [t]) = if t.switches then [] else t :: sinceSwitch trials := by
  rw [sinceSwitch, List.reverse_append, List.reverse_singleton, List.singleton_append,
    List.takeWhile_cons]
  cases t.switches <;> rfl

end Trial

/-- The visits of a run are those of its trials. -/
theorem Device.map_visit_trials (d : Device α) (actions : List (Action α)) :
    (d.trials actions).map Trial.visit = d.visits actions := by
  induction actions generalizing d with
  | nil => rfl
  | cons action rest ih => exact congrArg _ (ih _)

namespace Trial

/-! ### One trial -/

section

variable (t : Trial α)

@[simp] theorem action_visit : t.visit.action = t.action := t.before.visit_action t.action

/-- What was not carried out moved nowhere. -/
theorem isLine_of_rejected (h : t.visit.applied = false) : t.isLine = false := by
  rw [isLine, h]
  rfl

theorem isLine_of_not_move (h : t.action.command.isMove = false) : t.isLine = false := by
  rw [isLine, h, Bool.and_false]
  rfl

theorem isLine_of_move (happlied : t.visit.applied = true)
    (hmove : t.action.command.isMove = true) :
    t.isLine = decide (t.before.state.settings.motion = .linear) := by
  rw [isLine, happlied, hmove]
  rfl

theorem works_of_not_line (h : t.isLine = false) : t.works = false := by
  rw [works, h, Bool.false_and]

/-- On a line, material is fed if the device extrudes. -/
theorem works_of_line (h : t.isLine = true) : t.works = t.before.state.extruding := by
  rw [works, h, Bool.true_and]

/-- A move that was carried out leads somewhere, and leaves alone how the device moves and
whether it extrudes. -/
theorem move_eq (happlied : t.visit.applied = true) (hmove : t.action.command.isMove = true) :
    ∃ there, t.visit.state.position = some there ∧
      t.visit.state.extruded = t.before.state.extrusionTo there ∧
      t.visit.state.extruding = t.before.state.extruding ∧
      t.visit.state.settings = t.before.state.settings := by
  have hperform := Device.perform_of_applied happlied
  have hextrudes := Device.perform_extrudes hperform
  have htunes := Device.perform_tunes hperform
  cases hc : t.action.command with
  | translation | transformation =>
    rw [hc] at hextrudes htunes
    obtain ⟨there, hthere, hextruded, hextruding⟩ := hextrudes
    exact ⟨there, hthere, hextruded, hextruding, htunes⟩
  | _ =>
    rw [hc] at hmove
    cases hmove

end

/-! ### Exact lengths -/

variable {t : Trial ℝ}

theorem fed_of_not_works (h : t.works = false) : t.fed = 0 := by
  rw [fed, h]
  exact Scalar.zero_real

/-- Material is fed by the length of the way. -/
theorem fed_of_works (h : t.works = true) :
    t.fed = t.before.state.settings.extrusionRate * t.way := by
  rw [fed, h, if_pos rfl]

theorem way_of_nowhere (h : t.before.state.position = none) : t.way = 0 := by
  rw [way, h]
  exact Scalar.zero_real

theorem way_eq {here there : Vector3 ℝ} (hhere : t.before.state.position = some here)
    (hthere : t.visit.state.position = some there) : t.way = here.distance there := by
  rw [way, hhere, hthere]

/-- **What a move along a line feeds is what the device extrudes on it.** -/
theorem fed_of_line (hline : t.isLine = true) :
    t.fed = t.visit.state.extruded - t.before.state.extruded := by
  obtain ⟨⟨happlied, hmove⟩, -⟩ : (t.visit.applied = true ∧ t.action.command.isMove = true) ∧
      t.before.state.settings.motion = .linear := by
    simpa only [isLine, Bool.and_eq_true, decide_eq_true_eq] using hline
  obtain ⟨there, hthere, hextruded, -, -⟩ := t.move_eq happlied hmove
  have hworks := t.works_of_line hline
  rw [hextruded]
  -- both sides ask the same two questions: whether the device extrudes, and whether it was anywhere
  -- before
  cases hextruding : t.before.state.extruding with
  | false =>
    rw [fed_of_not_works (hworks.trans hextruding), State.extrusionTo_of_idle hextruding]
    ring
  | true =>
    rw [fed_of_works (hworks.trans hextruding)]
    cases hhere : t.before.state.position with
    | none =>
      rw [way_of_nowhere hhere, State.extrusionTo_of_nowhere hhere]
      ring
    | some here =>
      rw [way_eq hhere hthere, State.extrusionTo_of_extruding hextruding hhere]
      ring

/-- Commands that lead nowhere extrude nothing, rotations in place among them. -/
theorem extruded_of_not_move (happlied : t.visit.applied = true)
    (hmove : t.action.command.isMove = false) :
    t.visit.state.extruded = t.before.state.extruded := by
  have hextrudes := Device.perform_extrudes (Device.perform_of_applied happlied)
  cases hc : t.action.command with
  | translation | transformation =>
    rw [hc] at hmove
    cases hmove
  -- a rotation does report a point, the one at which the device is, and the way to it is none
  | rotation delta relative =>
    rw [hc] at hextrudes
    obtain ⟨here, hhere, -, hextruded, -⟩ := hextrudes
    exact hextruded.trans (State.extrusionTo_here hhere)
  | _ =>
    rw [hc] at hextrudes
    exact hextrudes.1

end Trial

end RobotMotion
