import RobotMotion.Proofs.Device.Sequence
import RobotMotion.Proofs.Queue.History

/-!
# Rehearsals

`Cursor.visits` tells what carrying out the waiting actions would do, by copying
them into a new queue and letting a copy of the cursor run. The new queue could
refuse some of them. It does not when their identifiers increase
(`Queue.pending_ofList`), and then the visits are those of the device trying the
waiting actions in order (`Cursor.visits_eq`). The block is a beginning of the
queue, so its visits are a beginning of all visits.
-/

namespace RobotMotion

variable {α : Type}

namespace Queue

/-- Actions with increasing identifiers, all above what was accepted before, are
all accepted. -/
theorem pending_foldl_offer {actions : List (Action α)} {q : Queue α}
    (hinc : actions.Pairwise (·.id < ·.id))
    (hq : ∀ last, q.lastAdded = some last → ∀ a ∈ actions, last < a.id) :
    (actions.foldl offer q).pending = q.pending ++ actions := by
  induction actions generalizing q with
  | nil => exact (List.append_nil _).symm
  | cons action rest ih =>
    obtain ⟨hhead, htail⟩ := List.pairwise_cons.mp hinc
    obtain ⟨r, hr⟩ := exists_add? fun last hl => hq last hl action List.mem_cons_self
    have hoffer : q.offer action = r := by rw [offer, hr, Option.getD_some]
    -- the bound on what comes moves along with the queue
    have hlast : ∀ last, r.lastAdded = some last → ∀ a ∈ rest, last < a.id := by
      intro last hl a ha
      rw [lastAdded_add? hr] at hl
      obtain rfl := Option.some.inj hl
      exact hhead a ha
    rw [List.foldl_cons, hoffer, ih htail hlast, pending_add? hr, List.append_assoc]
    rfl

theorem pending_ofList {actions : List (Action α)} (hinc : actions.Pairwise (·.id < ·.id)) :
    (ofList actions).pending = actions :=
  pending_foldl_offer hinc nofun

theorem selection_sublist (q : Queue α) (blockOnly : Bool) :
    (q.selection blockOnly).Sublist q.pending := by
  cases blockOnly
  · exact List.Sublist.refl _
  · exact List.take_sublist _ _

end Queue

/-- The queue of a rehearsal refuses none of the chosen actions. -/
theorem Cursor.pending_rehearsal {c : Cursor α} (hinc : c.queue.pending.Pairwise (·.id < ·.id))
    (blockOnly : Bool) :
    (c.rehearsal blockOnly).queue.pending = c.queue.selection blockOnly :=
  Queue.pending_ofList (hinc.sublist (c.queue.selection_sublist blockOnly))

variable [Scalar α]

namespace Cursor

/-- A run visits the actions that it releases. -/
theorem run_fst (c : Cursor α) (n : Nat) :
    (c.run n).1 = c.device.visits (c.queue.pending.take n) := by
  induction n generalizing c with
  | zero => rfl
  | succ n ih =>
    rw [run, next?, Queue.next?]
    cases hp : c.queue.pending with
    | nil => rfl
    | cons action rest => exact congrArg _ (ih _)

/-- A rehearsal visits the actions that its queue took, in order. -/
theorem visits_eq_rehearsal (c : Cursor α) (blockOnly : Bool) :
    c.visits blockOnly = c.device.visits (c.rehearsal blockOnly).queue.pending := by
  rw [visits, runAll, run_fst, List.take_length]
  rfl

/-- A rehearsal visits the chosen actions in order. -/
theorem visits_eq {c : Cursor α} (hinc : c.queue.pending.Pairwise (·.id < ·.id))
    (blockOnly : Bool) :
    c.visits blockOnly = c.device.visits (c.queue.selection blockOnly) := by
  rw [visits_eq_rehearsal, pending_rehearsal hinc]

/-- A rehearsal visits every action once. -/
theorem nodup_visits {c : Cursor α} (hinc : c.queue.pending.Pairwise (·.id < ·.id))
    (blockOnly : Bool) : ((c.visits blockOnly).map fun v => v.action.id).Nodup := by
  have hids : ((c.visits blockOnly).map fun v => v.action.id) =
      (c.queue.selection blockOnly).map (·.id) := by
    rw [visits_eq hinc, ← Device.map_action_visits c.device (c.queue.selection blockOnly),
      List.map_map, Device.map_action_visits]
    rfl
  rw [hids]
  refine List.Pairwise.map _ (fun a b hlt => Nat.ne_of_lt hlt) ?_
  exact hinc.sublist (c.queue.selection_sublist blockOnly)

/-- **The rehearsal of the block is the beginning of the whole rehearsal.** -/
theorem visits_block {c : Cursor α} (hinc : c.queue.pending.Pairwise (·.id < ·.id)) :
    c.visits true = (c.visits false).take c.queue.blocked := by
  rw [visits_eq hinc, visits_eq hinc]
  exact c.device.visits_take c.queue.pending c.queue.blocked

end Cursor

end RobotMotion
