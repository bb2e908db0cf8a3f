import RobotMotion.Proofs.Device.Conditions
import RobotMotion.Proofs.Device.Sequence
import RobotMotion.Proofs.Device.Tuning
import Mathlib.Data.List.Infix

/-!
# Settings between brackets

Putting settings aside opens a bracket, and taking settings back closes one.
`Command.stacked` says once what a command makes of the settings put aside, so that
their number can be told from the brackets of the actions that applied
(`Device.perform_depth`).

Actions are `Action.Nested` when they close every bracket that they open and no other.
Such actions, rejected ones among them, leave alone what was put aside before them
(`Device.afterAll_entries`), and so a bracket around them gives back the settings of the
beginning (`Device.bracket`).
-/

namespace RobotMotion

variable {α : Type}

/-! ### Opening and closing -/

/-- Whether a command puts settings aside. -/
def Command.opens : Command α → Bool
  | .pushSettings => true
  | _ => false

/-- Whether a command takes settings back. -/
def Command.closes : Command α → Bool
  | .popSettings => true
  | _ => false

/-- Only putting settings aside opens a bracket. -/
theorem Command.opens_eq_false {command : Command α} (h : command ≠ .pushSettings) :
    command.opens = false := by
  cases command with
  | pushSettings => exact absurd rfl h
  | _ => rfl

/-- Only taking settings back closes one. -/
theorem Command.closes_eq_false {command : Command α} (h : command ≠ .popSettings) :
    command.closes = false := by
  cases command with
  | popSettings => exact absurd rfl h
  | _ => rfl

namespace Action

/-- How many of some actions put settings aside. -/
def openings (actions : List (Action α)) : Nat := actions.countP (·.command.opens)

/-- How many of some actions take settings back. -/
def closings (actions : List (Action α)) : Nat := actions.countP (·.command.closes)

/-- Actions that close every bracket that they open, and no other. -/
structure Nested (actions : List (Action α)) : Prop where
  /-- up to no point are more brackets closed than were opened -/
  within : ∀ front, front <+: actions → closings front ≤ openings front
  /-- in the end all are closed -/
  closed : closings actions = openings actions

/-- Openings are counted piece by piece. -/
theorem openings_append (actions more : List (Action α)) :
    openings (actions ++ more) = openings actions + openings more :=
  List.countP_append

/-- So are closings. -/
theorem closings_append (actions more : List (Action α)) :
    closings (actions ++ more) = closings actions + closings more :=
  List.countP_append

theorem openings_cons (a : Action α) (rest : List (Action α)) :
    openings (a :: rest) = openings [a] + openings rest :=
  openings_append [a] rest

theorem closings_cons (a : Action α) (rest : List (Action α)) :
    closings (a :: rest) = closings [a] + closings rest :=
  closings_append [a] rest

theorem openings_singleton (a : Action α) :
    openings [a] = if a.command.opens then 1 else 0 :=
  List.countP_singleton

theorem closings_singleton (a : Action α) :
    closings [a] = if a.command.closes then 1 else 0 :=
  List.countP_singleton

end Action

/-! ### One action -/

/-- The settings put aside after a command that a device carried out. -/
def Command.stacked (command : Command α) (d : Device α) : SettingsStack α :=
  match command with
  | .pushSettings => d.stack.push d.state.settings
  | .popSettings => ⟨d.stack.entries.tail, some d.state.settings⟩
  | _ => d.stack

/-- Every other command leaves alone what was put aside. -/
theorem Command.stacked_of_ne {command : Command α} (hpush : command ≠ .pushSettings)
    (hpop : command ≠ .popSettings) (d : Device α) : command.stacked d = d.stack := by
  cases command with
  | pushSettings => exact absurd rfl hpush
  | popSettings => exact absurd rfl hpop
  | _ => rfl

namespace Device

open RobotMotion.Action (openings closings Nested)

variable [Scalar α] {d e : Device α} {a : Action α}

/-- **Carrying out a command leaves aside what `Command.stacked` says.** -/
theorem perform_stack {command : Command α} (h : d.perform command = .ok e) :
    e.stack = command.stacked d := by
  obtain ⟨-, state, stack, ha, rfl⟩ := perform_eq_ok h
  show stack = command.stacked d
  obtain ⟨rfl, -, rfl⟩ | ⟨rfl, _, rest, hentries, -, rfl⟩ | ⟨-, rfl, hpush, hpop⟩ :=
    advance_eq_ok ha
  · rfl
  · rw [Command.stacked, hentries, List.tail_cons]
  · exact (Command.stacked_of_ne hpush hpop d).symm

/-- Settings are taken back only where some are put aside. -/
theorem depth_pos_of_popSettings (h : d.perform .popSettings = .ok e) : 0 < d.stack.depth := by
  obtain ⟨rest, hentries, -⟩ := perform_tunes h
  rw [SettingsStack.depth, hentries]
  exact Nat.succ_pos _

/-- A started device always puts its settings aside. -/
theorem applied_of_pushSettings (hready : d.ready = true) (h : a.command = .pushSettings) :
    (d.visit a).applied = true := by
  rw [visit_applied, h, perform, if_pos hready]
  rfl

/-- A started device takes settings back exactly if some are put aside. -/
theorem applied_iff_of_popSettings (hready : d.ready = true) (h : a.command = .popSettings) :
    (d.visit a).applied = true ↔ 0 < d.stack.depth := by
  rw [visit_applied, h, perform, if_pos hready]
  cases hentries : d.stack.entries <;>
    simp [advance, SettingsStack.pop?, SettingsStack.depth, hentries]

/-- Whether a device was started does not change with what it tries. -/
theorem ready_visit (d : Device α) (a : Action α) : (d.visit a).device.ready = d.ready := by
  cases happlied : (d.visit a).applied with
  | false => rw [visit_device_of_rejected happlied]
  | true =>
    obtain ⟨hready, _, _, -, he⟩ := perform_eq_ok (perform_of_applied happlied)
    rw [he, hready]

/-- An action that applied changes the number of settings put aside as its brackets do. -/
theorem perform_depth (h : d.perform a.command = .ok e) :
    e.stack.depth + closings [a] = d.stack.depth + openings [a] := by
  have hstack := perform_stack h
  rw [Action.openings_singleton, Action.closings_singleton]
  -- an action opens a bracket, closes one or does neither
  by_cases hpush : a.command = .pushSettings
  · rw [hstack, hpush]
    rfl
  · by_cases hpop : a.command = .popSettings
    · rw [hpop] at h
      have hpos := depth_pos_of_popSettings h
      rw [hstack, hpop]
      show d.stack.entries.tail.length + 1 = d.stack.entries.length
      rw [List.length_tail]
      exact Nat.sub_add_cancel hpos
    · rw [hstack, Command.stacked_of_ne hpush hpop, Command.opens_eq_false hpush,
        Command.closes_eq_false hpop]

/-- Starting a device leaves alone what it has put aside. -/
theorem stack_start {pose : InitialPose α} {settings : Settings α}
    (h : d.start pose settings = .ok e) : e.stack = d.stack := by
  obtain ⟨-, -, rfl⟩ := start_eq_ok h
  rfl

/-- A device that was not started has put nothing aside. -/
theorem Reachable.depth_eq_zero (hd : d.Reachable) (hready : d.ready = false) :
    d.stack.depth = 0 := by
  cases hd with
  | blank tools => rfl
  | start hd h =>
    obtain ⟨-, -, rfl⟩ := start_eq_ok h
    cases hready
  | perform hd h =>
    obtain ⟨-, _, _, -, rfl⟩ := perform_eq_ok h
    cases hready

/-- **Taking settings back is rejected exactly if none are put aside.** -/
theorem Reachable.rejected_iff_of_popSettings (hd : d.Reachable) (h : a.command = .popSettings) :
    (d.visit a).applied = false ↔ d.stack.depth = 0 := by
  cases hready : d.ready with
  | false =>
    have hrejected : (d.visit a).applied = false := by
      rw [visit_applied, Device.perform, hready]
      rfl
    exact ⟨fun _ => hd.depth_eq_zero hready, fun _ => hrejected⟩
  | true =>
    rw [← Bool.not_eq_true, applied_iff_of_popSettings hready h]
    exact Nat.not_lt.trans Nat.le_zero

/-! ### Several actions -/

/-- The device after it tried actions one after the other. -/
def afterAll (d : Device α) (actions : List (Action α)) : Device α :=
  actions.foldl (fun d a => (d.visit a).device) d

/-- The device after some actions is that of the last visit, if there is one. -/
theorem afterAll_eq (d : Device α) (actions : List (Action α)) :
    d.afterAll actions = ((d.visits actions).getLast?.map (·.device)).getD d := by
  induction actions generalizing d with
  | nil => rfl
  | cons a rest ih =>
    refine (ih _).trans ?_
    rw [visits, List.getLast?_cons]
    cases ((d.visit a).device.visits rest).getLast? <;> rfl

/-- However many actions it tries, a device stays started. -/
theorem ready_afterAll (d : Device α) (actions : List (Action α)) :
    (d.afterAll actions).ready = d.ready := by
  induction actions generalizing d with
  | nil => rfl
  | cons a rest ih => exact (ih _).trans (d.ready_visit a)

/-- An action that does not close the last bracket of its own leaves alone what lies
below. -/
theorem visit_entries {own base : List (Settings α)} (hready : d.ready = true)
    (hentries : d.stack.entries = own ++ base)
    (hwithin : closings [a] ≤ own.length + openings [a]) :
    ∃ left, (d.visit a).device.stack.entries = left ++ base ∧
      left.length + closings [a] = own.length + openings [a] := by
  rw [Action.openings_singleton, Action.closings_singleton] at hwithin ⊢
  by_cases hpush : a.command = .pushSettings
  · have happlied := applied_of_pushSettings hready hpush
    have hstack := perform_stack (perform_of_applied happlied)
    refine ⟨d.state.settings :: own, ?_, ?_⟩
    · rw [hstack, hpush]
      exact congrArg _ hentries
    · rw [hpush]
      rfl
  · by_cases hpop : a.command = .popSettings
    · rw [hpop] at hwithin ⊢
      -- there is a bracket of its own to close, so the base is not reached
      cases own with
      | nil => exact absurd hwithin (Nat.not_succ_le_zero 0)
      | cons first own =>
        have hpos : 0 < d.stack.depth := by
          rw [SettingsStack.depth, hentries]
          exact Nat.succ_pos _
        have happlied := (applied_iff_of_popSettings hready hpop).mpr hpos
        have hstack := perform_stack (perform_of_applied happlied)
        refine ⟨own, ?_, rfl⟩
        rw [hstack, hpop]
        show d.stack.entries.tail = own ++ base
        rw [hentries]
        rfl
    -- whether it applied or not, any other action leaves the stack
    · have hsame : (d.visit a).device.stack = d.stack := by
        cases happlied : (d.visit a).applied with
        | false => rw [visit_device_of_rejected happlied]
        | true =>
          rw [perform_stack (perform_of_applied happlied), Command.stacked_of_ne hpush hpop]
      refine ⟨own, by rw [hsame, hentries], ?_⟩
      rw [Command.opens_eq_false hpush, Command.closes_eq_false hpop]

/-- **Actions that close no more brackets than `own` and their own leave alone what lies
below.** -/
theorem afterAll_entries {own base : List (Settings α)} {actions : List (Action α)}
    (hready : d.ready = true) (hentries : d.stack.entries = own ++ base)
    (hwithin : ∀ front, front <+: actions → closings front ≤ own.length + openings front) :
    ∃ left, (d.afterAll actions).stack.entries = left ++ base ∧
      left.length + closings actions = own.length + openings actions := by
  -- `own` are the brackets that were opened and not yet closed
  induction actions generalizing d own with
  | nil => exact ⟨own, hentries, rfl⟩
  | cons a rest ih =>
    have hfirst : [a] <+: a :: rest := ⟨rest, rfl⟩
    obtain ⟨own', hentries', hlength⟩ := visit_entries hready hentries (hwithin [a] hfirst)
    -- what the first action opened is counted to the brackets of its own
    have hwithin' : ∀ front, front <+: rest →
        closings front ≤ own'.length + openings front := by
      intro front hfront
      have hmore := hwithin (a :: front) (List.cons_prefix_cons.mpr ⟨rfl, hfront⟩)
      rw [Action.openings_cons, Action.closings_cons] at hmore
      omega
    have hready' : (d.visit a).device.ready = true := (d.ready_visit a).trans hready
    obtain ⟨left, hleft, hcount⟩ := ih hready' hentries' hwithin'
    refine ⟨left, hleft, ?_⟩
    rw [Action.openings_cons, Action.closings_cons]
    omega

/-- **A bracket around nested actions gives back the settings of the beginning.** Putting
settings aside and taking them back both apply, whatever becomes of the actions between,
and what was put aside before is put aside after. -/
theorem bracket {opening closing : Action α} {actions : List (Action α)}
    (hready : d.ready = true) (hopening : opening.command = .pushSettings)
    (hclosing : closing.command = .popSettings) (hnested : Nested actions) :
    let inside := (d.visit opening).device.afterAll actions
    (d.visit opening).applied = true ∧ (inside.visit closing).applied = true ∧
      (inside.visit closing).device.state.settings = d.state.settings ∧
      (inside.visit closing).device.stack = ⟨d.stack.entries, some inside.state.settings⟩ := by
  intro inside
  have hopened := applied_of_pushSettings hready hopening
  have hready' : (d.visit opening).device.ready = true := (d.ready_visit opening).trans hready
  have hbase : (d.visit opening).device.stack.entries =
      [] ++ (d.state.settings :: d.stack.entries) := by
    rw [perform_stack (perform_of_applied hopened), hopening]
    rfl
  obtain ⟨left, hleft, hcount⟩ := afterAll_entries hready' hbase fun front hfront => by
    rw [List.length_nil, Nat.zero_add]
    exact hnested.within front hfront
  -- all brackets between are closed, so the settings of the beginning lie on top
  have hnone : left = [] := by
    rw [hnested.closed, List.length_nil] at hcount
    exact List.eq_nil_of_length_eq_zero (by omega)
  have htop : inside.stack.entries = d.state.settings :: d.stack.entries := by
    rw [show inside.stack.entries = left ++ _ from hleft, hnone]
    rfl
  have hready'' : inside.ready = true := (ready_afterAll _ actions).trans hready'
  have hclosed : (inside.visit closing).applied = true := by
    rw [applied_iff_of_popSettings hready'' hclosing, SettingsStack.depth, htop]
    exact Nat.succ_pos _
  have hperform := perform_of_applied hclosed
  rw [hclosing] at hperform
  obtain ⟨rest, hentries, hstack⟩ := perform_tunes hperform
  obtain ⟨hsettings, hrest⟩ := List.cons.inj (htop.symm.trans hentries)
  refine ⟨hopened, hclosed, hsettings.symm, ?_⟩
  rw [hstack, ← hrest]

end Device

end RobotMotion
