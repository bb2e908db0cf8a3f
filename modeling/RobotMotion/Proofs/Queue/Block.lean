import RobotMotion.Proofs.Queue.Purpose
import Mathlib.Data.List.Infix

/-!
# The block of a queue

A queue keeps its block as a number, so many actions from the front. `frozen` says
without the number what the block was when it was made last: the actions that waited
then, none before a block is made, and none after the waiting actions were dropped.

Of the frozen actions, those that went have all left the queue and the others are the
block (`History.exists_gone`), whatever was added or released in between. Hence the block
is what is frozen and still waits (`History.block_frozen`).
-/

namespace RobotMotion.Queue

variable {α : Type}

/-! ### What is frozen -/

/-- What is frozen after a further operation, if `kept` was before. -/
def refrozen (q : Queue α) (kept : List (Action α)) : Operation α → List (Action α)
  | .freeze => q.pending
  | .discard => []
  | _ => kept

/-- What is frozen after operations on a queue, if `kept` was before. -/
def frozenFrom (q : Queue α) (kept : List (Action α)) : List (Operation α) → List (Action α)
  | [] => kept
  | op :: rest => (q.after op).frozenFrom (q.refrozen kept op) rest

/-- The actions that waited when the block was made last. -/
def frozen (ops : List (Operation α)) : List (Action α) := Queue.empty.frozenFrom [] ops

theorem frozenFrom_append (q : Queue α) (kept : List (Action α)) (ops more : List (Operation α)) :
    q.frozenFrom kept (ops ++ more) = (q.run ops).frozenFrom (q.frozenFrom kept ops) more := by
  induction ops generalizing q kept with
  | nil => rfl
  | cons op rest ih => exact ih (q.after op) (q.refrozen kept op)

theorem frozen_concat (ops : List (Operation α)) (op : Operation α) :
    frozen (ops ++ [op]) = (Queue.empty.run ops).refrozen (frozen ops) op :=
  Queue.empty.frozenFrom_append [] ops [op]

/-- Without a new block nothing more is frozen. -/
theorem frozenFrom_subset {q : Queue α} {kept : List (Action α)} {ops : List (Operation α)}
    (h : ∀ op ∈ ops, op ≠ .freeze) : q.frozenFrom kept ops ⊆ kept := by
  induction ops generalizing q kept with
  | nil => exact List.Subset.refl _
  | cons op rest ih =>
    have hstep : q.refrozen kept op ⊆ kept := by
      cases op with
      | freeze => exact absurd rfl (h _ List.mem_cons_self)
      | discard => exact List.nil_subset _
      | _ => exact List.Subset.refl _
    exact List.Subset.trans (ih fun op hop => h op (List.mem_cons_of_mem _ hop)) hstep

/-- While no block is made and nothing is dropped, what is frozen stays as it is. -/
theorem frozenFrom_eq {q : Queue α} {kept : List (Action α)} {ops : List (Operation α)}
    (h : ∀ op ∈ ops, op ≠ .freeze ∧ op ≠ .discard) : q.frozenFrom kept ops = kept := by
  induction ops generalizing q kept with
  | nil => rfl
  | cons op rest ih =>
    obtain ⟨hfreeze, hdiscard⟩ := h op List.mem_cons_self
    have hstep : q.refrozen kept op = kept := by
      cases op with
      | freeze => exact absurd rfl hfreeze
      | discard => exact absurd rfl hdiscard
      | _ => rfl
    rw [frozenFrom, hstep]
    exact ih fun op hop => h op (List.mem_cons_of_mem _ hop)

/-! ### What operations do to the block -/

/-- What leaves a queue leaves the block. -/
theorem block_release (q : Queue α) (count : Nat) :
    (q.release count).2.block = q.block.drop count :=
  List.drop_take.symm

/-- What is added comes behind the block. -/
theorem block_add {q r : Queue α} {action : Action α} (hb : q.blocked ≤ q.pending.length)
    (h : q.add? action = some r) : r.block = q.block := by
  rw [add?_eq_some h]
  exact List.take_append_of_le_length hb

/-- The block stands at the front of the queue. -/
theorem block_prefix (q : Queue α) : q.block <+: q.pending := List.take_prefix ..

/-- **Only what leaves the front of the queue leaves the block**, unless a block is made
or the waiting actions are dropped. -/
theorem block_after {q : Queue α} (hb : q.blocked ≤ q.pending.length) {op : Operation α}
    (hfreeze : op ≠ .freeze) (hdiscard : op ≠ .discard) :
    (q.after op).block = q.block.drop (q.leaving op) := by
  cases op with
  | add action =>
    cases ha : q.add? action with
    | none => rw [after_add_of_refused ha]; rfl
    | some r => rw [after_add ha]; exact block_add hb ha
  | next => rw [after, operate_next]; exact q.block_release _
  | all peek =>
    cases peek
    · exact q.block_release _
    · rfl
  | block peek =>
    cases peek
    · exact q.block_release _
    · rfl
  | freeze => exact absurd rfl hfreeze
  | upTo id => exact q.block_release _
  | discard => exact absurd rfl hdiscard

namespace History

/-- Of what is frozen, a first part has left the queue and the rest is the block. -/
theorem exists_gone (ops : List (Operation α)) :
    ∃ gone, frozen ops = gone ++ (run ops).queue.block ∧ gone ⊆ (run ops).released := by
  induction ops using List.reverseRecOn with
  | nil => exact ⟨[], rfl, List.nil_subset _⟩
  | append_singleton ops op ih =>
    obtain ⟨gone, hfrozen, hgone⟩ := ih
    have hb := (valid_run ops).blocked
    rw [frozen_concat, ← queue_run, run_concat]
    set h := run ops
    by_cases hfreeze : op = .freeze
    · subst hfreeze
      exact ⟨[], List.take_length.symm, List.nil_subset _⟩
    by_cases hdiscard : op = .discard
    · subst hdiscard
      exact ⟨[], List.take_nil.symm, List.nil_subset _⟩
    -- what the operation takes from the front of the block joins what has gone
    have hkept : h.queue.refrozen (frozen ops) op = frozen ops := by
      cases op with
      | freeze => exact absurd rfl hfreeze
      | discard => exact absurd rfl hdiscard
      | _ => rfl
    have hblock : (h.step op).queue.block = h.queue.block.drop (h.queue.leaving op) :=
      block_after hb hfreeze hdiscard
    refine ⟨gone ++ h.queue.block.take (h.queue.leaving op), ?_, ?_⟩
    · rw [hkept, hblock, List.append_assoc, List.take_append_drop, hfrozen]
    · intro a ha
      rcases List.mem_append.mp ha with ha | ha
      · exact List.mem_append_left _ (hgone ha)
      · refine List.mem_append_right _ ?_
        rw [operate_fst]
        exact (h.queue.block_prefix.take _).subset ha

/-- What is frozen was accepted. -/
theorem frozen_subset_accepted (ops : List (Operation α)) : frozen ops ⊆ (run ops).accepted := by
  obtain ⟨gone, hfrozen, hgone⟩ := exists_gone ops
  have hv := valid_run ops
  intro a ha
  rw [hfrozen] at ha
  refine hv.sublist.subset ?_
  rcases List.mem_append.mp ha with ha | ha
  · exact List.mem_append_left _ (hgone ha)
  · exact List.mem_append_right _ ((run ops).queue.block_prefix.subset ha)

/-- An action that has left the queue does not wait. -/
theorem not_mem_pending {ops : List (Operation α)} {a : Action α} (h : a ∈ (run ops).released) :
    a ∉ (run ops).queue.pending := by
  intro hp
  have hlt := (List.pairwise_append.mp (valid_run ops).increasing_kept).2.2 a h a hp
  exact Nat.lt_irrefl _ hlt

variable [DecidableEq α]

/-- The block is what is frozen and still waits. -/
theorem block_eq_filter (ops : List (Operation α)) :
    (run ops).queue.block = (frozen ops).filter (· ∈ (run ops).queue.pending) := by
  obtain ⟨gone, hfrozen, hgone⟩ := exists_gone ops
  have hnone : gone.filter (· ∈ (run ops).queue.pending) = [] := by
    refine List.filter_eq_nil_iff.mpr fun a ha => ?_
    rw [decide_eq_true_eq]
    exact not_mem_pending (hgone ha)
  have hall : (run ops).queue.block.filter (· ∈ (run ops).queue.pending) =
      (run ops).queue.block := by
    refine List.filter_eq_self.mpr fun a ha => ?_
    exact decide_eq_true ((run ops).queue.block_prefix.subset ha)
  rw [hfrozen, List.filter_append, hnone, hall, List.nil_append]

/-- What an operation releases is what goes missing from the block. -/
theorem block_after_eq_filter (ops : List (Operation α)) {op : Operation α}
    (hfreeze : op ≠ .freeze) (hdiscard : op ≠ .discard) :
    ((run ops).queue.after op).block =
      (run ops).queue.block.filter (· ∉ ((run ops).queue.operate op).1) := by
  have hv := valid_run ops
  set q := (run ops).queue
  have hincreasing : q.pending.Pairwise (·.id < ·.id) :=
    (List.pairwise_append.mp hv.increasing_kept).2.1
  rw [block_after hv.blocked hfreeze hdiscard, operate_fst]
  set n := q.leaving op
  -- the first part of the block is released, and nothing of the second part is
  have hgone : (q.block.take n).filter (· ∉ q.pending.take n) = [] := by
    refine List.filter_eq_nil_iff.mpr fun a ha => ?_
    rw [decide_eq_true_eq, not_not]
    exact (q.block_prefix.take n).subset ha
  have hkept : (q.block.drop n).filter (· ∉ q.pending.take n) = q.block.drop n := by
    refine List.filter_eq_self.mpr fun a ha => decide_eq_true fun htaken => ?_
    rw [← List.take_append_drop n q.pending] at hincreasing
    have hdrop : a ∈ q.pending.drop n := (q.block_prefix.drop n).subset ha
    exact Nat.lt_irrefl _ ((List.pairwise_append.mp hincreasing).2.2 a htaken a hdrop)
  conv_rhs => rw [← List.take_append_drop n q.block]
  rw [List.filter_append, hgone, hkept, List.nil_append]

/-- **The block is what was frozen and still waits.** After any operations on a new queue:

* what is frozen are the actions that waited when the block was made last; nothing is frozen
  before, or once the waiting actions were dropped;
* the block consists of those of them that still wait, in their order, and stands at the
  front of the queue;
* what is accepted later does not come into the block until a block is made again;
* an operation that releases actions, however many, takes just these out of the block;
* to release the block is to release all of it and nothing behind it. -/
theorem block_frozen (ops : List (Operation α)) :
    let q := (run ops).queue
    ((∀ before since, ops = before ++ .freeze :: since →
        (∀ op ∈ since, op ≠ .freeze ∧ op ≠ .discard) → frozen ops = (run before).queue.pending) ∧
      ((∀ op ∈ ops, op ≠ .freeze) → frozen ops = []) ∧
      ∀ before since, ops = before ++ .discard :: since →
        (∀ op ∈ since, op ≠ .freeze) → frozen ops = []) ∧
    (q.block = (frozen ops).filter (· ∈ q.pending) ∧ q.block <+: q.pending) ∧
    (∀ since, (∀ op ∈ since, op ≠ .freeze) → ∀ a ∈ (run (ops ++ since)).accepted,
      a ∉ (run ops).accepted → a ∉ (run (ops ++ since)).queue.block) ∧
    (∀ op, op ≠ .freeze → op ≠ .discard →
      (q.after op).block = q.block.filter (· ∉ (q.operate op).1)) ∧
    (q.operate (.block false)).1 = q.block ∧ (q.after (.block false)).block = [] ∧
      q.block ++ (q.after (.block false)).pending = q.pending := by
  intro q
  refine ⟨⟨?_, ?_, ?_⟩, ⟨block_eq_filter ops, q.block_prefix⟩, ?_,
    fun op hfreeze hdiscard => block_after_eq_filter ops hfreeze hdiscard, rfl, ?_,
    q.release_append _⟩
  · rintro before since rfl hsince
    rw [queue_run, frozen, frozenFrom_append]
    exact frozenFrom_eq hsince
  · intro hnever
    exact List.eq_nil_of_subset_nil (frozenFrom_subset hnever)
  · rintro before since rfl hsince
    rw [frozen, frozenFrom_append]
    exact List.eq_nil_of_subset_nil (frozenFrom_subset hsince)
  · rintro since hsince a - hnew hblock
    refine hnew (frozen_subset_accepted ops ?_)
    rw [block_eq_filter, frozen, frozenFrom_append] at hblock
    exact frozenFrom_subset hsince (List.mem_of_mem_filter hblock)
  · exact (q.block_release q.blocked).trans (List.drop_eq_nil_of_le (List.length_take_le ..))

end History

end RobotMotion.Queue
