import RobotMotion.Proofs.Queue.History
import Mathlib.Data.List.Induction

/-!
# What actions leave a queue for

Some operations release actions so that they are carried out (`Operation.isTurn`), others
look at a queue from outside and may take actions away (`Operation.isQuery`).
`releasedBy` picks what the operations of one kind released. It is a part of everything
that was released, in the same order, and two kinds that have no operation in common
have no action in common either.
-/

namespace RobotMotion.Queue

variable {α : Type}

/-- Whether an operation releases actions to be carried out. -/
def Operation.isTurn : Operation α → Bool
  | .next | .upTo _ => true
  | _ => false

/-- Whether an operation looks at the waiting actions, takes them away or makes them the
block. -/
def Operation.isQuery : Operation α → Bool
  | .all _ | .block _ | .freeze => true
  | _ => false

/-- The action that an operation offers. -/
def Operation.offered? : Operation α → Option (Action α)
  | .add action => some action
  | _ => none

theorem Operation.offered?_of_isTurn {op : Operation α} (h : op.isTurn = true) :
    op.offered? = none := by
  cases op <;> first | rfl | cases h

theorem Operation.offered?_of_isQuery {op : Operation α} (h : op.isQuery = true) :
    op.offered? = none := by
  cases op <;> first | rfl | cases h

theorem Operation.isTurn_of_isQuery {op : Operation α} (h : op.isQuery = true) :
    op.isTurn = false := by
  cases op <;> first | rfl | cases h

/-- Only an offered action is taken in. -/
theorem taken_of_not_offered (q : Queue α) {op : Operation α} (h : op.offered? = none) :
    q.taken op = [] := by
  cases op with
  | add action => cases h
  | _ => rfl

/-- The actions that the operations of a kind release. -/
def releasedBy (kind : Operation α → Bool) (q : Queue α) : List (Operation α) → List (Action α)
  | [] => []
  | op :: rest =>
    (if kind op then (q.operate op).1 else []) ++ (q.after op).releasedBy kind rest

/-- Releases follow each other as the operations do. -/
theorem releasedBy_append (kind : Operation α → Bool) (q : Queue α)
    (ops more : List (Operation α)) :
    q.releasedBy kind (ops ++ more) =
      q.releasedBy kind ops ++ (q.run ops).releasedBy kind more := by
  induction ops generalizing q with
  | nil => rfl
  | cons op rest ih =>
    rw [List.cons_append, releasedBy, releasedBy, ih, List.append_assoc]
    rfl

/-- A further operation releases what it takes from the queue as it is then. -/
theorem releasedBy_concat (kind : Operation α → Bool) (q : Queue α)
    (ops : List (Operation α)) (op : Operation α) :
    q.releasedBy kind (ops ++ [op]) =
      q.releasedBy kind ops ++ if kind op then ((q.run ops).operate op).1 else [] := by
  rw [releasedBy_append, releasedBy, releasedBy, List.append_nil]

namespace History

/-- A history goes on with one more operation. -/
theorem run_concat (ops : List (Operation α)) (op : Operation α) :
    run (ops ++ [op]) = (run ops).step op := by
  rw [run, List.foldl_append]
  rfl

/-- One more operation takes in what it offers, if that is not refused. -/
theorem accepted_concat (ops : List (Operation α)) (op : Operation α) :
    (run (ops ++ [op])).accepted = (run ops).accepted ++ (Queue.empty.run ops).taken op := by
  rw [run_concat, ← queue_run]
  rfl

/-- One more operation adds what it releases. -/
theorem released_concat (ops : List (Operation α)) (op : Operation α) :
    (run (ops ++ [op])).released =
      (run ops).released ++ ((Queue.empty.run ops).operate op).1 := by
  rw [run_concat, ← queue_run]
  rfl

/-- What one kind of operations released is a part of everything that was. -/
theorem sublist_releasedBy (kind : Operation α → Bool) (ops : List (Operation α)) :
    (Queue.empty.releasedBy kind ops).Sublist (run ops).released := by
  induction ops using List.reverseRecOn with
  | nil => exact .slnil
  | append_singleton ops op ih =>
    rw [releasedBy_concat, released_concat]
    refine ih.append ?_
    split
    · exact .refl _
    · exact List.nil_sublist _

/-- What one kind of operations released was released. -/
theorem mem_released {kind : Operation α → Bool} {ops : List (Operation α)} {a : Action α}
    (ha : a ∈ Queue.empty.releasedBy kind ops) : a ∈ (run ops).released :=
  (sublist_releasedBy kind ops).subset ha

/-- What is released by one kind of operations, in the order of the identifiers. -/
theorem increasing_releasedBy (kind : Operation α → Bool) (ops : List (Operation α)) :
    (Queue.empty.releasedBy kind ops).Pairwise (·.id < ·.id) :=
  (List.pairwise_append.mp (valid_run ops).increasing_kept).1.sublist
    (sublist_releasedBy kind ops)

/-- What was released comes before everything that waits. -/
theorem releasedBy_lt_pending {kind : Operation α → Bool} {ops : List (Operation α)}
    {a b : Action α} (ha : a ∈ Queue.empty.releasedBy kind ops)
    (hb : b ∈ (Queue.empty.run ops).pending) : a.id < b.id := by
  rw [← queue_run] at hb
  exact (List.pairwise_append.mp (valid_run ops).increasing_kept).2.2 a (mem_released ha) b hb

/-- **Operations of different kinds release different actions.** -/
theorem releasedBy_ne {kind other : Operation α → Bool}
    (hne : ∀ op, kind op = true → other op = false) {ops : List (Operation α)}
    {a b : Action α} (ha : a ∈ Queue.empty.releasedBy kind ops)
    (hb : b ∈ Queue.empty.releasedBy other ops) : a.id ≠ b.id := by
  induction ops using List.reverseRecOn with
  | nil => cases ha
  | append_singleton ops op ih =>
    -- what the last operation releases comes after everything released before
    have hlater : ∀ x ∈ (run ops).released, ∀ y ∈ ((Queue.empty.run ops).operate op).1,
        x.id < y.id := by
      have hinc := (List.pairwise_append.mp (valid_run (ops ++ [op])).increasing_kept).1
      rw [released_concat] at hinc
      exact (List.pairwise_append.mp hinc).2.2
    rw [releasedBy_concat] at ha hb
    rcases List.mem_append.mp ha with ha | ha
    · rcases List.mem_append.mp hb with hb | hb
      · exact ih ha hb
      · split at hb
        · exact Nat.ne_of_lt (hlater a (mem_released ha) b hb)
        · cases hb
    · split at ha
      · rename_i hkind
        rcases List.mem_append.mp hb with hb | hb
        · exact Nat.ne_of_gt (hlater b (mem_released hb) a ha)
        · rw [hne op hkind] at hb
          cases hb
      · cases ha

end History

end RobotMotion.Queue
