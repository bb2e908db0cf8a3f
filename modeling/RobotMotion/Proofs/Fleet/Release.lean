import RobotMotion.Proofs.Device.Conditions
import RobotMotion.Proofs.Device.Sequence
import RobotMotion.Proofs.Fleet.Run

/-!
# Releasing the oldest action

What `Fleet.next?` does to a cursor with a given oldest action. The action leaves
the queue in any case. Whether it is carried out is decided by
`Command.Feasible` alone; if it is not, then nothing but the queue and the
journal changes, and the action never comes back.

Passing an action on reaches only cursors that come before the one that passes it
on (`pass_cursor?`), so the cursor itself is as `Device.visit` leaves it.
-/

namespace RobotMotion

variable {α : Type} [Scalar α]

namespace Fleet

/-! ### Passing on reaches earlier cursors only -/

theorem carryOutWith_cursor? {pass : Fleet α → Action α → Fleet α} {i k : Nat}
    (hpass : ∀ (f : Fleet α) (a : Action α), (pass f a).cursor? k = f.cursor? k)
    (hne : i ≠ k) (f : Fleet α) (c : Cursor α) (action : Action α) :
    (carryOutWith pass f i c action).2.cursor? k = f.cursor? k := by
  simp only [carryOutWith]
  by_cases ha : (c.device.visit action).applied = true
  · rw [if_pos ha]
    simp only
    rw [hpass, cursor?_note, cursor?_put_ne f hne]
  · rw [if_neg ha]
    simp only
    rw [cursor?_note, cursor?_put_ne f hne]

/-- Issuing an action to a cursor does not touch the cursors after it. -/
theorem issue_cursor?_of_lt (f : Fleet α) {i k : Nat} (hlt : i < k) (action : Action α) :
    (f.issue i action).2.cursor? k = f.cursor? k := by
  induction i using Nat.strongRecOn generalizing f action with
  | ind i ih =>
    have hne : i ≠ k := Nat.ne_of_lt hlt
    rw [issue]
    cases f.cursor? i with
    | none => rfl
    | some c =>
      simp only
      cases c.queue.add? action with
      | none => rfl
      | some queue =>
        by_cases him : c.immediate = true
        · simp only [if_pos him]
          cases queue.next? with
          | none => exact cursor?_put_ne f hne _
          | some released =>
            -- what is passed on goes to a cursor before `i`, and `i` comes before `k`
            refine carryOutWith_cursor? (fun g a => ?_) hne f _ _
            cases childBelow c i with
            | none => rfl
            | some j => exact ih j.1 j.2 g (Nat.lt_trans j.2 hlt) a
        · simp only [if_neg him]
          exact cursor?_put_ne f hne _

/-- What a cursor passes on does not come back to it. -/
theorem pass_cursor? (c : Cursor α) (f : Fleet α) (i : Nat) (action : Action α) :
    (pass c i f action).cursor? i = f.cursor? i := by
  rw [pass]
  cases childBelow c i with
  | none => rfl
  | some j => exact issue_cursor?_of_lt f j.2 action

/-! ### One release -/

/-- Carrying out a released action leaves the cursor as the visit of its device
says. -/
theorem carryOut_cursor?_self {f : Fleet α} {i : Nat} {before : Cursor α}
    (hb : f.cursor? i = some before) (c : Cursor α) (action : Action α) :
    (f.carryOut i c action).2.cursor? i =
      some { c with device := (c.device.visit action).device } := by
  simp only [carryOut, carryOutWith]
  by_cases ha : (c.device.visit action).applied = true
  · rw [if_pos ha]
    simp only
    rw [pass_cursor?, cursor?_note, cursor?_put_self hb]
  · rw [if_neg ha]
    simp only
    rw [cursor?_note, cursor?_put_self hb]

theorem carryOut_fst (f : Fleet α) (i : Nat) (c : Cursor α) (action : Action α) :
    (f.carryOut i c action).1 = (c.device.visit action).applied := by
  simp only [carryOut, carryOutWith]
  cases (c.device.visit action).applied <;> rfl

theorem carryOut_of_rejected {f : Fleet α} {i : Nat} {c : Cursor α} {action : Action α}
    (h : (c.device.visit action).applied = false) :
    (f.carryOut i c action).2 = (f.put i c).note (c.device.visit action).rejection := by
  simp only [carryOut, carryOutWith]
  rw [if_neg (by rw [h]; exact Bool.false_ne_true), Device.visit_device_of_rejected h]

/-- **A cursor with a waiting action releases it**, and is then as the visit of its
device says. -/
theorem next?_eq {f : Fleet α} {i : Nat} {c : Cursor α} (hc : f.cursor? i = some c)
    {action : Action α} {queue : Queue α} (hn : c.queue.next? = some (action, queue)) :
    f.next? i = some ((action, (c.device.visit action).applied),
      (f.carryOut i { c with queue } action).2) := by
  rw [next?, hc]
  simp only [hn]
  rw [← carryOut_fst f i { c with queue } action]

/-- The oldest action of a reachable cursor is past once it was released. -/
theorem past_of_next? {f : Fleet α} (hf : f.Reachable) {i : Nat} {c : Cursor α}
    (hc : f.cursor? i = some c) {action : Action α} {queue : Queue α}
    (hn : c.queue.next? = some (action, queue)) : queue.Past action.id := by
  obtain ⟨⟨ops, hops⟩, -⟩ := hf.cursor hc
  rw [hops] at hn
  exact (Queue.History.valid_run ops).past hn

/-- **A released action is carried out exactly if its command is feasible, and a
rejection is atomic.** At a reachable cursor with oldest action `a`:

* the action is released, and applies if and only if the device was started and
  has what the command asks for;
* if it does not apply, then its release is all that becomes of the cursors;
* if it applies, then the device remembers the state just before;
* whatever is asked of the fleet later on, the action neither waits nor is
  accepted at this cursor again. -/
theorem next?_decides {f : Fleet α} (hf : f.Reachable) {i : Nat} {c : Cursor α}
    (hc : f.cursor? i = some c) {a : Action α} {rest : List (Action α)}
    (hp : c.queue.pending = a :: rest) :
    let queue : Queue α :=
      { pending := rest
        blocked := c.queue.blocked - 1
        lastAdded := c.queue.lastAdded
        lastReleased := some a
        released := c.queue.released + 1 }
    ∃ applied g, f.next? i = some ((a, applied), g) ∧
      (applied = true ↔ c.device.ready = true ∧ a.command.Feasible c.device) ∧
      (applied = false → g.cursors = f.cursors.set i { c with queue }) ∧
      (applied = true → ∃ device, g.cursor? i = some { c with device, queue } ∧
        c.device.perform a.command = .ok device ∧
        device.state.previous = ⟨c.device.state.position, c.device.state.rotation,
          c.device.state.axes, c.device.state.extruded⟩) ∧
      ∀ ops later, (g.run ops).cursor? i = some later →
        a ∉ later.queue.pending ∧ later.queue.add? a = none := by
  intro queue
  have hn : c.queue.next? = some (a, queue) := by rw [Queue.next?, hp]
  have hself := carryOut_cursor?_self hc { c with queue } a
  refine ⟨_, _, next?_eq hc hn, ?_, ?_, ?_, ?_⟩
  · rw [Device.visit_applied]
    exact Device.perform_isOk_iff (hf.cursor hc).2.poseWhole a.command
  · intro hr
    have hg := carryOut_of_rejected (f := f) (i := i) (c := { c with queue }) hr
    rw [hg]
    rfl
  · intro ha
    have hperform := Device.perform_of_applied ha
    refine ⟨_, hself, hperform, ?_⟩
    obtain ⟨-, state, stack, -, hd⟩ := Device.perform_eq_ok hperform
    rw [hd]
    rfl
  · intro ops later hl
    exact (past_run hself (past_of_next? hf hc hn) hl).not_mem

/-- Requests that leave an external axis to be moved on in both sets of axes, where
only the cartesian set knows it. -/
def halfKnownAxis : List (Operation Float) :=
  [.add "write" false none [], .add "user" false (some 0) [],
    .start 1 .origin .standard,
    .issue 1 ⟨1, .externalAxis 1 5 .cartesian false⟩, .next 1,
    .issue 1 ⟨2, .externalAxis 1 5 .all true⟩]

/-- The cartesian set accepts the value and the joint set does not, so neither is
touched. -/
theorem next?_decides_halfKnownAxis :
    ∃ c g queue, (empty.run halfKnownAxis).cursor? 1 = some c ∧
      (empty.run halfKnownAxis).next? 1 =
        some ((⟨2, .externalAxis 1 5 .all true⟩, false), g) ∧
      g.cursors = (empty.run halfKnownAxis).cursors.set 1 { c with queue } ∧
      queue.pending = [] := by
  have hpending : ((empty.run halfKnownAxis).cursor? 1).map (·.queue.pending) =
      some [⟨2, .externalAxis 1 5 .all true⟩] := by decide +kernel
  have hjoint : ((empty.run halfKnownAxis).cursor? 1).map (·.device.state.jointExternal) =
      some none := by decide +kernel
  obtain ⟨c, hc, hp⟩ := Option.map_eq_some_iff.mp hpending
  have hnone : c.device.state.jointExternal = none := by
    rw [hc] at hjoint
    exact Option.some.inj hjoint
  obtain ⟨applied, g, hn, happlied, hrejected, -, -⟩ := next?_decides ⟨_, rfl⟩ hc hp
  have hfalse : applied = false := by
    rw [← Bool.not_eq_true, happlied]
    rintro ⟨-, -, hv⟩
    obtain ⟨present, value, hsome, -⟩ := (hv rfl).2 rfl
    rw [hnone] at hsome
    cases hsome
  subst hfalse
  exact ⟨c, g, _, hc, hn, hrejected rfl, rfl⟩

end Fleet

end RobotMotion
