import RobotMotion.Proofs.Cursor.Rehearsal
import RobotMotion.Proofs.Device.Brackets
import RobotMotion.Proofs.Device.Memory

/-!
# Inert commands

Waits, messages, comments and custom code leave a device alone, but for what it
remembers of the state before the last action (`State.previous`). No command reads
what is remembered: devices that differ in their memory only carry out the same
commands, and are the same afterwards (`Device.perform_remembering`). So a run may
leave out its inert actions, and what becomes of the others stays the same
(`Device.visits_alike`).
-/

namespace RobotMotion

variable {α : Type}

/-- Whether a command is for whoever watches or for the controller alone. -/
def Command.isInert : Command α → Bool
  | .wait _ | .message _ | .comment _ | .customCode .. => true
  | _ => false

/-- Whether the command of an action is inert. -/
def Action.isInert (action : Action α) : Bool := action.command.isInert

/-- The actions that are not inert. -/
def Action.remaining (actions : List (Action α)) : List (Action α) :=
  actions.filter (!·.isInert)

@[simp] theorem Action.remaining_nil : remaining ([] : List (Action α)) = [] := rfl

theorem Action.remaining_cons_of_isInert {action : Action α} (h : action.isInert = true)
    (rest : List (Action α)) : remaining (action :: rest) = remaining rest := by
  rw [remaining, List.filter_cons_of_neg (by simp [h])]
  rfl

theorem Action.remaining_cons {action : Action α} (h : action.isInert = false)
    (rest : List (Action α)) : remaining (action :: rest) = action :: remaining rest := by
  rw [remaining, List.filter_cons_of_pos (by simp [h])]
  rfl

namespace Device

variable [Scalar α]

/-- An inert command is always carried out, and has nothing to change. -/
theorem advance_of_isInert (d : Device α) {command : Command α} (h : command.isInert = true) :
    d.advance command = .ok (d.state, d.stack) := by
  cases command with
  | wait | message | comment | customCode => rfl
  | _ => cases h

/-- An inert action changes what is remembered and nothing else. -/
theorem visit_of_isInert (d : Device α) {action : Action α} (h : action.isInert = true) :
    ∃ memory, (d.visit action).device = d.remembering memory := by
  cases hready : d.ready with
  | false =>
    refine ⟨d.state.previous, ?_⟩
    simp only [visit, perform, hready, Bool.false_eq_true, if_false, remembering_previous]
  | true =>
    have hperform : d.perform action.command = .ok (d.remembering d.state.snapshot) := by
      rw [perform, if_pos hready, d.advance_of_isInert h]
      rfl
    exact ⟨d.state.snapshot, by rw [visit_of_perform hperform]⟩

end Device

/-! ### Two runs -/

/-- Visits of two devices that differ in their memory. Where the action applied the
visits are the same. -/
inductive Visit.Alike : Visit α → Visit α → Prop where
  | same (v : Visit α) : Alike v v
  | rejected (action : Action α) (rejection : Rejection) (d : Device α) (memory : Snapshot α) :
    Alike ⟨action, some rejection, d⟩ ⟨action, some rejection, d.remembering memory⟩

namespace Visit.Alike

variable {v w : Visit α}

theorem action_eq (h : v.Alike w) : w.action = v.action := by
  cases h <;> rfl

theorem rejection_eq (h : v.Alike w) : w.rejection = v.rejection := by
  cases h <;> rfl

end Visit.Alike

/-- The visits of actions that are not inert. -/
def Visit.remaining (visits : List (Visit α)) : List (Visit α) :=
  visits.filter (!·.action.isInert)

/-- Visits that are alike tell the same of every action. -/
theorem Visit.outcomes_of_alike {visits others : List (Visit α)}
    (h : List.Forall₂ Visit.Alike visits others) :
    others.map (fun v => (v.action, v.rejection)) =
      visits.map fun v => (v.action, v.rejection) := by
  induction h with
  | nil => rfl
  | cons halike _ ih =>
    rw [List.map_cons, List.map_cons, ih, halike.action_eq, halike.rejection_eq]

namespace Device

variable [Scalar α]

/-- Devices that differ in their memory visit an action alike, and still differ in
their memory at most. -/
theorem visit_alike (d : Device α) (memory : Snapshot α) (action : Action α) :
    (d.visit action).Alike ((d.remembering memory).visit action) ∧
      ∃ after, ((d.remembering memory).visit action).device =
        (d.visit action).device.remembering after := by
  rw [visit, visit, perform_remembering]
  cases d.perform action.command with
  | ok e => exact ⟨.same _, e.state.previous, rfl⟩
  | error rejection => exact ⟨.rejected action rejection d memory, memory, rfl⟩

/-- **Leaving out the inert actions changes nothing for the others.** They are visited
alike, and the devices in the end differ in their memory at most. -/
theorem visits_alike (d : Device α) (memory : Snapshot α) (actions : List (Action α)) :
    List.Forall₂ Visit.Alike (Visit.remaining (d.visits actions))
        ((d.remembering memory).visits (Action.remaining actions)) ∧
      ∃ after, (d.remembering memory).afterAll (Action.remaining actions) =
        (d.afterAll actions).remembering after := by
  -- `memory` is what the run without the inert actions remembers in place of the other
  induction actions generalizing d memory with
  | nil => exact ⟨.nil, memory, rfl⟩
  | cons action rest ih =>
    cases hinert : action.isInert with
    | true =>
      -- the skipped action leaves another memory in the one run only, and the rest is read with
      -- that
      obtain ⟨skipped, hskipped⟩ := d.visit_of_isInert hinert
      obtain ⟨hvisits, after, hafter⟩ := ih (d.visit action).device memory
      rw [hskipped, remembering_remembering] at hvisits hafter
      rw [Action.remaining_cons_of_isInert hinert, visits, Visit.remaining,
        List.filter_cons_of_neg (by rw [visit_action, hinert]; exact Bool.false_ne_true), hskipped]
      refine ⟨hvisits, after, ?_⟩
      show _ = (((d.visit action).device).afterAll rest).remembering after
      rw [hskipped]
      exact hafter
    | false =>
      obtain ⟨halike, next, hnext⟩ := d.visit_alike memory action
      obtain ⟨hvisits, after, hafter⟩ := ih (d.visit action).device next
      rw [Action.remaining_cons hinert, visits, visits, Visit.remaining,
        List.filter_cons_of_pos (by rw [visit_action, hinert]; rfl)]
      refine ⟨.cons halike ?_, after, ?_⟩
      · rw [hnext]
        exact hvisits
      · show (((d.remembering memory).visit action).device).afterAll _ = _
        rw [hnext]
        exact hafter

end Device

/-! ### Cursors -/

/-- The queue without its inert actions. The block is what is left of the block. -/
def Queue.withoutInert (q : Queue α) : Queue α where
  pending := Action.remaining q.pending
  blocked := (Action.remaining q.block).length
  lastAdded := q.lastAdded
  lastReleased := q.lastReleased
  released := q.released

/-- Leaving out the inert actions and choosing the block can be done in either order. -/
theorem Queue.selection_withoutInert (q : Queue α) (blockOnly : Bool) :
    q.withoutInert.selection blockOnly = Action.remaining (q.selection blockOnly) := by
  cases blockOnly with
  | false => rfl
  | true =>
    have hsplit : Action.remaining q.pending =
        Action.remaining q.block ++ Action.remaining (q.pending.drop q.blocked) := by
      rw [Action.remaining, Action.remaining, Action.remaining, ← List.filter_append, block,
        List.take_append_drop]
    show (Action.remaining q.pending).take (Action.remaining q.block).length =
      Action.remaining q.block
    rw [hsplit, List.take_left]

namespace Cursor

/-- The cursor without the inert actions that wait in front of it. -/
def withoutInert (c : Cursor α) : Cursor α := { c with queue := c.queue.withoutInert }

variable [Scalar α] {c : Cursor α}

/-- A run leaves the device that the released actions make. -/
theorem device_run (c : Cursor α) (n : Nat) :
    (c.run n).2.device = c.device.afterAll (c.queue.pending.take n) := by
  induction n generalizing c with
  | zero => rfl
  | succ n ih =>
    rw [run, next?, Queue.next?]
    cases hp : c.queue.pending with
    | nil => rfl
    | cons action rest => exact ih _

/-- A rehearsal leaves the device that the chosen actions make. -/
theorem device_runAll_rehearsal (hinc : c.queue.pending.Pairwise (·.id < ·.id))
    (blockOnly : Bool) :
    (c.rehearsal blockOnly).runAll.2.device =
      c.device.afterAll (c.queue.selection blockOnly) := by
  rw [runAll, device_run, pending_rehearsal hinc, List.take_length]
  rfl

/-- **Rehearsals with and without the inert actions.** The other actions are visited
alike, and the devices in the end differ in their memory at most. -/
theorem rehearsal_withoutInert (hinc : c.queue.pending.Pairwise (·.id < ·.id))
    (blockOnly : Bool) :
    List.Forall₂ Visit.Alike (Visit.remaining (c.visits blockOnly))
        (c.withoutInert.visits blockOnly) ∧
      ∃ memory, (c.withoutInert.rehearsal blockOnly).runAll.2.device =
        (c.rehearsal blockOnly).runAll.2.device.remembering memory := by
  have hinc' : c.withoutInert.queue.pending.Pairwise (·.id < ·.id) :=
    hinc.sublist List.filter_sublist
  obtain ⟨hvisits, memory, hmemory⟩ :=
    c.device.visits_alike c.device.state.previous (c.queue.selection blockOnly)
  rw [visits_eq hinc, visits_eq hinc', device_runAll_rehearsal hinc,
    device_runAll_rehearsal hinc']
  have hselection : c.withoutInert.queue.selection blockOnly =
      Action.remaining (c.queue.selection blockOnly) := c.queue.selection_withoutInert blockOnly
  rw [hselection]
  exact ⟨hvisits, memory, hmemory⟩

end Cursor

end RobotMotion
