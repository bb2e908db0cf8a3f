import RobotMotion.Proofs.Queue.History

/-!
# What is past

An identifier is past at a queue when no action up to it waits and none will be
accepted. No operation makes an identifier less past, and a released action is
past: it never comes back.
-/

namespace RobotMotion

namespace Queue

variable {α : Type} {q : Queue α} {id : Nat}

/-- An identifier is past when nothing up to it waits or can come to wait. -/
structure Past (q : Queue α) (id : Nat) : Prop where
  accepted : ∃ last, q.lastAdded = some last ∧ id ≤ last
  waiting : ∀ a ∈ q.pending, id < a.id

/-- What leaves a queue leaves nothing new behind. -/
theorem Past.release (h : q.Past id) (count : Nat) : (q.release count).2.Past id :=
  ⟨h.accepted, fun a ha => h.waiting a (List.mem_of_mem_drop ha)⟩

/-- **What is past stays past.** -/
theorem Past.after (h : q.Past id) (op : Operation α) : (q.after op).Past id := by
  cases op with
  | add action =>
    cases ha : q.add? action with
    | none =>
      rw [after_add_of_refused ha]
      exact h
    | some r =>
      rw [after_add ha]
      obtain ⟨last, hl, hle⟩ := h.accepted
      -- the new action is above the one accepted last, and that one is not below `id`
      have hlt : id < action.id := by
        have : ¬ action.id ≤ last := by
          intro hn
          rw [(q.add?_eq_none_iff action).mpr ⟨last, hl, hn⟩] at ha
          cases ha
        omega
      refine ⟨⟨action.id, lastAdded_add? ha, Nat.le_of_lt hlt⟩, ?_⟩
      rw [pending_add? ha]
      intro a hmem
      rcases List.mem_append.mp hmem with hmem | hmem
      · exact h.waiting a hmem
      · obtain rfl := List.mem_singleton.mp hmem
        exact hlt
  | next =>
    rw [Queue.after, operate_next]
    exact h.release _
  | all peek =>
    cases peek
    · exact h.release _
    · exact h
  | block peek =>
    cases peek
    · exact h.release _
    · exact h
  | freeze => exact ⟨h.accepted, h.waiting⟩
  | upTo id => exact h.release _
  | discard => exact ⟨h.accepted, fun a ha => absurd ha List.not_mem_nil⟩

theorem Past.run (h : q.Past id) (ops : List (Operation α)) : (q.run ops).Past id := by
  induction ops generalizing q with
  | nil => exact h
  | cons op rest ih => exact ih (h.after op)

/-- An action that is past neither waits nor is accepted again. -/
theorem Past.not_mem {action : Action α} (h : q.Past action.id) :
    action ∉ q.pending ∧ q.add? action = none := by
  refine ⟨fun hmem => Nat.lt_irrefl _ (h.waiting action hmem), ?_⟩
  exact (q.add?_eq_none_iff action).mpr h.accepted

/-- **An action that leaves the front of a queue is past.** -/
theorem History.Valid.past {h : History α} (hv : h.Valid) {action : Action α} {queue : Queue α}
    (hn : h.queue.next? = some (action, queue)) : queue.Past action.id := by
  have hkept := hv.increasing_kept
  have hsub := hv.sublist.subset
  rw [next?] at hn
  cases hp : h.queue.pending with
  | nil => rw [hp] at hn; cases hn
  | cons oldest rest =>
    rw [hp] at hn hkept hsub
    obtain ⟨rfl, rfl⟩ := Prod.mk.inj (Option.some.inj hn)
    refine ⟨?_, fun b hb => ?_⟩
    · refine (h.queue.add?_eq_none_iff oldest).mp ((hv.refused_iff oldest).mpr ?_)
      exact ⟨oldest, hsub (List.mem_append_right _ List.mem_cons_self), Nat.le_refl _⟩
    · exact List.rel_of_pairwise_cons (List.pairwise_append.mp hkept).2.1 hb

end Queue

end RobotMotion
