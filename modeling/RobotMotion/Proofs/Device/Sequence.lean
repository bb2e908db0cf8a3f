import RobotMotion.Cursor.Basic

/-!
# Actions one after the other

What comes of a device that is given several actions. `Device.visits` lets it try
them all, `Device.performAll` stops at the first one that is rejected. Where nothing
is rejected the two agree.
-/

namespace RobotMotion

namespace Device

variable {α : Type} [Scalar α]

/-! ### One action -/

/-- A visit is one of the action that is tried. -/
theorem visit_action (d : Device α) (action : Action α) : (d.visit action).action = action := by
  rw [visit]
  split <;> rfl

/-- An action applies where its command is carried out. -/
theorem visit_applied (d : Device α) (action : Action α) :
    (d.visit action).applied = (d.perform action.command).isOk := by
  rw [visit]
  cases d.perform action.command <;> rfl

/-- A rejected action leaves the device as it was. -/
theorem visit_device_of_rejected {d : Device α} {action : Action α}
    (h : (d.visit action).applied = false) : (d.visit action).device = d := by
  rw [visit_applied] at h
  rw [visit]
  cases hp : d.perform action.command with
  | error e => rfl
  | ok after => rw [hp] at h; cases h

/-- An applied action leaves the device that its command makes. -/
theorem perform_of_applied {d : Device α} {action : Action α}
    (h : (d.visit action).applied = true) :
    d.perform action.command = .ok (d.visit action).device := by
  rw [visit_applied] at h
  rw [visit]
  cases hp : d.perform action.command with
  | error e => rw [hp] at h; cases h
  | ok after => rfl

theorem visit_of_perform {d e : Device α} {action : Action α}
    (h : d.perform action.command = .ok e) : d.visit action = ⟨action, none, e⟩ := by
  rw [visit, h]

/-! ### Several actions -/

/-- The visits of a device that tries actions one after the other. -/
def visits (d : Device α) : List (Action α) → List (Visit α)
  | [] => []
  | action :: rest =>
    let visit := d.visit action
    visit :: visit.device.visits rest

/-- Each action is tried once, in order. -/
theorem map_action_visits (d : Device α) (actions : List (Action α)) :
    (d.visits actions).map Visit.action = actions := by
  induction actions generalizing d with
  | nil => rfl
  | cons action rest ih => rw [visits, List.map_cons, d.visit_action, ih]

/-- Each of the visits is one of the device as it stands then. -/
theorem exists_of_mem_visits {d : Device α} {actions : List (Action α)} {v : Visit α}
    (hv : v ∈ d.visits actions) : ∃ e a, v = visit e a := by
  induction actions generalizing d with
  | nil => cases hv
  | cons action rest ih =>
    rcases List.mem_cons.mp hv with rfl | hv
    · exact ⟨d, action, rfl⟩
    · exact ih hv

/-- The visits of the first actions are the first visits. -/
theorem visits_take (d : Device α) (actions : List (Action α)) (n : Nat) :
    d.visits (actions.take n) = (d.visits actions).take n := by
  induction actions generalizing d n with
  | nil => simp [visits]
  | cons action rest ih =>
    cases n with
    | zero => rfl
    | succ n => exact congrArg _ (ih _ n)

/-- The device after actions of which none is rejected. -/
def performAll (d : Device α) : List (Action α) → Except Rejection (Device α)
  | [] => .ok d
  | action :: rest =>
    match d.perform action.command with
    | .error rejection => .error rejection
    | .ok after => after.performAll rest

/-- Where no action is rejected, neither is the first, nor are those after it. -/
theorem performAll_cons_eq_ok {d e : Device α} {action : Action α} {rest : List (Action α)}
    (h : d.performAll (action :: rest) = .ok e) :
    ∃ after, d.perform action.command = .ok after ∧ after.performAll rest = .ok e := by
  rw [performAll] at h
  cases hp : d.perform action.command with
  | error rejection => rw [hp] at h; cases h
  | ok after =>
    rw [hp] at h
    exact ⟨after, rfl, h⟩

/-- One more action is carried out by the device after the others. -/
theorem performAll_append_singleton {d e : Device α} {actions : List (Action α)}
    (h : d.performAll actions = .ok e) (action : Action α) :
    d.performAll (actions ++ [action]) = e.perform action.command := by
  induction actions generalizing d with
  | nil =>
    obtain rfl := Except.ok.inj h
    rw [List.nil_append, performAll]
    cases d.perform action.command <;> rfl
  | cons first rest ih =>
    obtain ⟨after, hfirst, hrest⟩ := performAll_cons_eq_ok h
    rw [List.cons_append, performAll, hfirst]
    exact ih hrest

/-- Where no action is rejected, every visit is one of an applied action. -/
theorem applied_of_performAll {d e : Device α} {actions : List (Action α)}
    (h : d.performAll actions = .ok e) : ∀ v ∈ d.visits actions, v.applied = true := by
  induction actions generalizing d with
  | nil => exact fun v hv => absurd hv List.not_mem_nil
  | cons action rest ih =>
    obtain ⟨after, hp, hrest⟩ := performAll_cons_eq_ok h
    intro v hv
    rw [visits, visit_of_perform hp] at hv
    rcases List.mem_cons.mp hv with rfl | hv
    · rfl
    · exact ih hrest v hv

end Device

end RobotMotion
