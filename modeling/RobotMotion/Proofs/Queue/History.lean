import RobotMotion.Cursor.Queue
import Mathlib.Data.List.Basic

/-!
# Histories of a queue

A `History` is a queue together with everything that ever happened to it: the
actions it accepted, those that left it for good, and those that were dropped.
The record is kept beside the queue and never read by it.

* `Queue.Operation` is what can be asked of a queue and `Queue.operate` answers.
  Whatever leaves a queue leaves it at the front by `Queue.release`, as many as
  `Queue.leaving` says.
* `History.Valid` says how the four fields of the queue follow from the record.
  It holds of the empty history and is kept by every operation
  (`History.valid_run`).
* Hence what was accepted and not dropped is what left the queue, followed by
  what still waits, in the order of the identifiers.
-/

namespace RobotMotion

variable {α : Type}

namespace Queue

/-! ### Operations -/

/-- What can be asked of a queue. Looking at actions (`peek`) leaves them
waiting. -/
inductive Operation (α : Type) where
  /-- offer an action -/
  | add (action : Action α)
  /-- release the oldest action -/
  | next
  /-- look at everything that waits, or release it -/
  | all (peek : Bool)
  /-- look at the block, or release it -/
  | block (peek : Bool)
  /-- make the waiting actions the block -/
  | freeze
  /-- release the actions up to an identifier -/
  | upTo (id : Nat)
  /-- drop the waiting actions -/
  | discard

/-- The actions that an operation releases, and the queue after it. -/
def operate (q : Queue α) : Operation α → List (Action α) × Queue α
  | .add action => ([], q.offer action)
  | .next =>
    match q.next? with
    | none => ([], q)
    | some (action, rest) => ([action], rest)
  | .all peek => if peek then ([], q) else q.releaseAll
  | .block peek => if peek then ([], q) else q.releaseBlock
  | .freeze => ([], q.freeze)
  | .upTo id => q.releaseUpTo id
  | .discard => ([], q.discard)

/-- The queue after an operation. -/
def after (q : Queue α) (op : Operation α) : Queue α := (q.operate op).2

/-- The queue after operations one after the other. -/
def run (q : Queue α) (ops : List (Operation α)) : Queue α := ops.foldl after q

/-- Operations may be carried out in two portions. -/
theorem run_append (q : Queue α) (ops more : List (Operation α)) :
    q.run (ops ++ more) = (q.run ops).run more :=
  List.foldl_append

/-- A queue that accepts an action is the queue with it. -/
theorem after_add {q r : Queue α} {action : Action α} (h : q.add? action = some r) :
    q.after (.add action) = r := by
  simp [after, operate, offer, h]

theorem after_add_of_refused {q : Queue α} {action : Action α} (h : q.add? action = none) :
    q.after (.add action) = q := by
  simp [after, operate, offer, h]

/-- Where an action waits, the oldest leaves the queue and the others stay. -/
theorem exists_next? {q : Queue α} {action : Action α} {rest : List (Action α)}
    (h : q.pending = action :: rest) : ∃ r, q.next? = some (action, r) ∧ r.pending = rest := by
  rw [next?, h]
  exact ⟨_, rfl, rfl⟩

/-- What is released next is the oldest of what waited. -/
theorem pending_of_next? {q r : Queue α} {action : Action α} (h : q.next? = some (action, r)) :
    q.pending = action :: r.pending := by
  rw [next?] at h
  cases hp : q.pending with
  | nil =>
    rw [hp] at h
    cases h
  | cons oldest rest =>
    rw [hp] at h
    obtain ⟨rfl, rfl⟩ := Prod.mk.inj (Option.some.inj h)
    rfl

/-- After the oldest was released the queue is what is left. -/
theorem after_next {q r : Queue α} {action : Action α} (h : q.next? = some (action, r)) :
    q.after .next = r := by
  simp [after, operate, h]

/-- The action that an operation brings into the queue, if it does. -/
def taken (q : Queue α) : Operation α → List (Action α)
  | .add action => if (q.add? action).isSome then [action] else []
  | _ => []

/-- The actions that an operation drops. -/
def dropped (q : Queue α) : Operation α → List (Action α)
  | .discard => q.pending
  | _ => []

/-- Accepting an action puts it last and remembers its identifier. -/
theorem add?_eq_some {q r : Queue α} {action : Action α} (h : q.add? action = some r) :
    r = { q with pending := q.pending ++ [action], lastAdded := some action.id } := by
  rw [add?] at h
  split at h
  · exact (Option.some.inj h).symm
  · cases h

/-- An accepted action is the one that was added last. -/
theorem lastAdded_add? {q r : Queue α} {action : Action α} (h : q.add? action = some r) :
    r.lastAdded = some action.id := by
  rw [add?_eq_some h]

/-- An action of which the identifier is too small is refused. -/
theorem add?_eq_none_iff (q : Queue α) (action : Action α) :
    q.add? action = none ↔ ∃ last, q.lastAdded = some last ∧ action.id ≤ last := by
  cases h : q.lastAdded with
  | none => simp [add?, accepts, h]
  | some last => simp [add?, accepts, h]

/-- An identifier above the one accepted last is accepted. -/
theorem exists_add? {q : Queue α} {action : Action α}
    (h : ∀ last, q.lastAdded = some last → last < action.id) : ∃ r, q.add? action = some r := by
  rw [← Option.ne_none_iff_exists', ne_eq, add?_eq_none_iff]
  rintro ⟨last, hl, hle⟩
  exact Nat.not_lt.mpr hle (h last hl)

/-- How many actions an operation takes from the front. -/
def leaving (q : Queue α) : Operation α → Nat
  | .next => min 1 q.pending.length
  | .all false => q.pending.length
  | .block false => q.blocked
  | .upTo id => (q.pending.takeWhile (·.id ≤ id)).length
  | _ => 0

@[simp] theorem release_zero (q : Queue α) : q.release 0 = ([], q) := rfl

/-- Releasing the oldest action is releasing one action. -/
theorem operate_next (q : Queue α) : q.operate .next = q.release (min 1 q.pending.length) := by
  obtain ⟨pending, blocked, added, released, count⟩ := q
  cases pending with
  | nil => rfl
  | cons action rest => simp [operate, next?, release]

/-- An operation releases what it takes from the front. -/
theorem operate_fst (q : Queue α) (op : Operation α) :
    (q.operate op).1 = q.pending.take (q.leaving op) := by
  cases op with
  | next => rw [operate_next]; rfl
  | all peek => cases peek <;> rfl
  | block peek => cases peek <;> rfl
  | _ => rfl

/-! ### Histories -/

/-- A queue and what happened to it. -/
structure History (α : Type) where
  queue : Queue α
  /-- every action that was accepted, in order -/
  accepted : List (Action α)
  /-- every action that was released, in order -/
  released : List (Action α)
  /-- every action that was dropped, in order -/
  discarded : List (Action α)

namespace History

/-- Nothing happened yet. -/
def empty : History α := ⟨.empty, [], [], []⟩

/-- The history after a further operation. -/
def step (h : History α) (op : Operation α) : History α where
  queue := h.queue.after op
  accepted := h.accepted ++ h.queue.taken op
  released := h.released ++ (h.queue.operate op).1
  discarded := h.discarded ++ h.queue.dropped op

/-- The history of operations on a new queue. -/
def run (ops : List (Operation α)) : History α := ops.foldl step empty

/-- The record does not influence the queue. -/
theorem queue_run (ops : List (Operation α)) : (run ops).queue = Queue.empty.run ops := by
  -- for any history to start from, as the one that is empty does not stay so
  suffices ∀ h : History α, (ops.foldl step h).queue = h.queue.run ops from this empty
  induction ops with
  | nil => exact fun _ => rfl
  | cons op rest ih => exact fun h => ih (h.step op)

/-- A refused action leaves no trace. -/
theorem step_add_of_refused {h : History α} {action : Action α}
    (hr : h.queue.add? action = none) : h.step (.add action) = h := by
  simp [step, after, operate, taken, dropped, offer, hr]

/-- An accepted action is the last one that was accepted. -/
theorem step_add_of_accepted {h : History α} {action : Action α} {queue : Queue α}
    (ha : h.queue.add? action = some queue) :
    h.step (.add action) = { h with queue, accepted := h.accepted ++ [action] } := by
  simp [step, after, operate, taken, dropped, offer, ha]

/-- Whether an action was dropped, told by its identifier. -/
def isDropped (discarded : List (Action α)) (action : Action α) : Bool :=
  discarded.any (·.id = action.id)

/-- What was dropped twice over was dropped. -/
theorem isDropped_append (l m : List (Action α)) (action : Action α) :
    isDropped (l ++ m) action = (isDropped l action || isDropped m action) :=
  List.any_append

/-- How the fields of a queue follow from what happened to it. -/
structure Valid (h : History α) : Prop where
  increasing : h.accepted.Pairwise (·.id < ·.id)
  lastAdded : h.queue.lastAdded = h.accepted.getLast?.map Action.id
  kept : h.accepted.filter (!isDropped h.discarded ·) = h.released ++ h.queue.pending
  discarded : ∀ b ∈ h.discarded, b ∈ h.accepted
  blocked : h.queue.blocked ≤ h.queue.pending.length
  lastReleased : h.queue.lastReleased = h.released.getLast?
  count : h.queue.released = h.released.length

/-- **A new queue has a valid history.** -/
theorem valid_empty : (empty : History α).Valid where
  increasing := .nil
  lastAdded := rfl
  kept := rfl
  discarded := nofun
  blocked := Nat.le_refl 0
  lastReleased := rfl
  count := rfl

namespace Valid

variable {h : History α}

/-- What left the queue and what waits was accepted, in this order. -/
theorem sublist (hv : h.Valid) : (h.released ++ h.queue.pending).Sublist h.accepted := by
  rw [← hv.kept]
  exact List.filter_sublist

/-- Identifiers increase over what left the queue and what waits. -/
theorem increasing_kept (hv : h.Valid) :
    (h.released ++ h.queue.pending).Pairwise (·.id < ·.id) :=
  hv.increasing.sublist hv.sublist

/-- The identifier accepted last is the greatest. -/
theorem le_last (hv : h.Valid) {last : Nat} (hl : h.queue.lastAdded = some last)
    {b : Action α} (hb : b ∈ h.accepted) : b.id ≤ last := by
  rw [hv.lastAdded] at hl
  obtain ⟨a, ha, rfl⟩ := Option.map_eq_some_iff.mp hl
  obtain ⟨front, hfront⟩ := List.getLast?_eq_some_iff.mp ha
  have hinc := hv.increasing
  rw [hfront] at hb hinc
  rcases List.mem_append.mp hb with hb | hb
  · exact Nat.le_of_lt ((List.pairwise_append.mp hinc).2.2 b hb a (List.mem_singleton_self a))
  · obtain rfl := List.mem_singleton.mp hb
    exact Nat.le_refl _

/-- **An action is refused exactly when an identifier at least as great was
accepted before**, whatever has become of that one. -/
theorem refused_iff (hv : h.Valid) (action : Action α) :
    h.queue.add? action = none ↔ ∃ b ∈ h.accepted, action.id ≤ b.id := by
  rw [add?_eq_none_iff]
  constructor
  · rintro ⟨last, hl, hle⟩
    rw [hv.lastAdded] at hl
    obtain ⟨b, hb, rfl⟩ := Option.map_eq_some_iff.mp hl
    exact ⟨b, List.mem_of_getLast? hb, hle⟩
  · rintro ⟨b, hb, hle⟩
    -- a queue that remembers no identifier has accepted nothing
    cases hl : h.queue.lastAdded with
    | none =>
      rw [hv.lastAdded, Option.map_eq_none_iff, List.getLast?_eq_none_iff] at hl
      rw [hl] at hb
      cases hb
    | some last => exact ⟨last, rfl, Nat.le_trans hle (hv.le_last hl hb)⟩

/-! ### What every operation keeps -/

/-- An accepted action is above everything that was accepted before. -/
theorem lt_of_add? (hv : h.Valid) {action : Action α} {queue : Queue α}
    (ha : h.queue.add? action = some queue) {b : Action α} (hb : b ∈ h.accepted) :
    b.id < action.id := by
  by_contra hle
  rw [(hv.refused_iff action).mpr ⟨b, hb, Nat.not_lt.mp hle⟩] at ha
  cases ha

/-- **An action keeps the record true**, accepted or not. -/
theorem add (hv : h.Valid) (action : Action α) : (h.step (.add action)).Valid := by
  cases ha : h.queue.add? action with
  | none =>
    rw [step_add_of_refused ha]
    exact hv
  | some queue =>
    -- what was dropped was accepted before, so its identifier is smaller
    have hkeep : isDropped h.discarded action = false := by
      rw [isDropped, List.any_eq_false]
      intro b hb
      have hlt := hv.lt_of_add? ha (hv.discarded b hb)
      simp only [decide_eq_true_eq]
      omega
    rw [step_add_of_accepted ha, add?_eq_some ha]
    refine ⟨?_, by simp, ?_, ?_, ?_, hv.lastReleased, hv.count⟩
    · refine List.pairwise_append.mpr ⟨hv.increasing, List.pairwise_singleton _ _, ?_⟩
      intro b hb c hc
      obtain rfl := List.mem_singleton.mp hc
      exact hv.lt_of_add? ha hb
    · rw [List.filter_append, ← List.append_assoc, ← hv.kept]
      exact congrArg _ (by simp [hkeep])
    · exact fun b hb => List.mem_append_left _ (hv.discarded b hb)
    · exact Nat.le_trans hv.blocked (by simp)

/-- Releasing from the front keeps the record true, whatever the number. -/
theorem release (hv : h.Valid) {op : Operation α}
    (hop : h.queue.operate op = h.queue.release (h.queue.leaving op))
    (ht : h.queue.taken op = []) (hd : h.queue.dropped op = []) : (h.step op).Valid := by
  -- whichever operation it is, it takes the first actions and nothing else
  set n := h.queue.leaving op
  have hstep : h.step op = { h with
      queue := (h.queue.release n).2
      released := h.released ++ h.queue.pending.take n } := by
    simp only [History.step, after, hop, ht, hd, List.append_nil]
    rfl
  rw [hstep]
  refine ⟨hv.increasing, hv.lastAdded, ?_, hv.discarded, ?_, ?_, ?_⟩
  · rw [List.append_assoc]
    exact hv.kept.trans (congrArg _ (release_append h.queue n).symm)
  · have := hv.blocked
    simp only [Queue.release, List.length_drop]
    omega
  · simp only [Queue.release, List.getLast?_append, hv.lastReleased]
  · simp only [Queue.release, List.length_append, hv.count]

/-- Freezing marks what waits and changes nothing else. -/
theorem freeze (hv : h.Valid) : (h.step .freeze).Valid := by
  have hstep : h.step .freeze = { h with queue := h.queue.freeze } := by
    simp [History.step, after, operate, taken, dropped]
  rw [hstep]
  exact ⟨hv.increasing, hv.lastAdded, hv.kept, hv.discarded, Nat.le_refl _, hv.lastReleased,
    hv.count⟩

/-- **Dropping what waits keeps the record true.** -/
theorem discard (hv : h.Valid) : (h.step .discard).Valid := by
  have hstep : h.step .discard = { h with
      queue := h.queue.discard, discarded := h.discarded ++ h.queue.pending } := by
    simp [History.step, after, operate, taken, dropped]
  rw [hstep]
  refine ⟨hv.increasing, hv.lastAdded, ?_, ?_, Nat.le_refl _, hv.lastReleased, hv.count⟩
  · -- what was dropped before is out already, so only what waits has to go
    calc h.accepted.filter (!isDropped (h.discarded ++ h.queue.pending) ·)
        = (h.accepted.filter (!isDropped h.discarded ·)).filter
            (!isDropped h.queue.pending ·) := by
          rw [List.filter_filter]
          refine List.filter_congr fun a _ => ?_
          rw [isDropped_append, Bool.not_or, Bool.and_comm]
      _ = h.released ++ [] := by
          rw [hv.kept, List.filter_append]
          refine congrArg₂ _ (List.filter_eq_self.mpr fun a ha => ?_)
            (List.filter_eq_nil_iff.mpr fun a ha => ?_)
          · have hlt := (List.pairwise_append.mp hv.increasing_kept).2.2 a ha
            simp only [isDropped, Bool.not_eq_true', List.any_eq_false, decide_eq_true_eq]
            exact fun b hb => Nat.ne_of_gt (hlt b hb)
          · simp only [isDropped, Bool.not_eq_true', Bool.not_eq_false, List.any_eq_true,
              decide_eq_true_eq]
            exact ⟨a, ha, rfl⟩
  · intro b hb
    rcases List.mem_append.mp hb with hb | hb
    · exact hv.discarded b hb
    · exact hv.sublist.subset (List.mem_append_right _ hb)

/-- **Every operation keeps the record true.** -/
theorem step (hv : h.Valid) (op : Operation α) : (h.step op).Valid := by
  cases op with
  | add action => exact hv.add action
  | next => exact hv.release (operate_next h.queue) rfl rfl
  | all peek => cases peek <;> exact hv.release rfl rfl rfl
  | block peek => cases peek <;> exact hv.release rfl rfl rfl
  | freeze => exact hv.freeze
  | upTo id => exact hv.release rfl rfl rfl
  | discard => exact hv.discard

/-- What an operation takes from the front is there. -/
theorem leaving_le (hv : h.Valid) (op : Operation α) :
    h.queue.leaving op ≤ h.queue.pending.length := by
  cases op with
  | next => exact Nat.min_le_right ..
  | all peek => cases peek <;> simp [leaving]
  | block peek => cases peek <;> simp [leaving, hv.blocked]
  | upTo id => exact (List.takeWhile_sublist _).length_le
  | _ => exact Nat.zero_le _

end Valid

/-- **Every history of a new queue is valid.** -/
theorem valid_run (ops : List (Operation α)) : (run ops).Valid := by
  suffices ∀ h : History α, h.Valid → (ops.foldl History.step h).Valid from this _ valid_empty
  induction ops with
  | nil => exact fun _ hv => hv
  | cons op rest ih => exact fun h hv => ih (h.step op) (hv.step op)

/-- **Actions leave a queue in the order in which it accepted them, each at most
once, and none is lost.** After any operations:

* an action is refused exactly when an identifier at least as great was accepted
  before, and a refusal changes nothing;
* what was released, followed by what waits, is what was accepted without what
  was dropped, in the order of the identifiers;
* the block is no longer than the queue, and no operation takes more actions
  from the front than there are;
* the queue knows its last released action and the number of them. -/
theorem release_order (ops : List (Operation α)) :
    let h := run ops
    (∀ action, (h.queue.add? action = none ↔ ∃ b ∈ h.accepted, action.id ≤ b.id) ∧
      (h.queue.add? action = none → h.step (.add action) = h)) ∧
    (h.released ++ h.queue.pending = h.accepted.filter (!isDropped h.discarded ·) ∧
      (h.released ++ h.queue.pending).Pairwise (·.id < ·.id) ∧
      h.accepted.Pairwise (·.id < ·.id) ∧ ∀ b ∈ h.discarded, b ∈ h.accepted) ∧
    (h.queue.blocked ≤ h.queue.pending.length ∧
      ∀ op, h.queue.leaving op ≤ h.queue.pending.length ∧
        (h.queue.operate op).1 = h.queue.pending.take (h.queue.leaving op)) ∧
    (h.queue.lastReleased = h.released.getLast? ∧ h.queue.released = h.released.length) := by
  intro h
  have hv : h.Valid := valid_run ops
  exact ⟨fun action => ⟨hv.refused_iff action, step_add_of_refused⟩,
    ⟨hv.kept.symm, hv.increasing_kept, hv.increasing, hv.discarded⟩,
    ⟨hv.blocked, fun op => ⟨hv.leaving_le op, operate_fst h.queue op⟩⟩,
    ⟨hv.lastReleased, hv.count⟩⟩

end History

end Queue

end RobotMotion
