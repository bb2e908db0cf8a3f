import RobotMotion.Action.Basic

/-!
# Queues of actions

Actions wait in a queue in the order of their identifiers and leave it at the
front. A block is the part of the queue that was pending when `freeze` was last
called; what leaves the queue leaves the block.
-/

namespace RobotMotion

/-- Actions that wait to be carried out. -/
structure Queue (α : Type) where
  /-- the waiting actions, oldest first -/
  pending : List (Action α)
  /-- how many of them, counted from the front, belong to the block -/
  blocked : Nat
  /-- the identifier accepted last -/
  lastAdded : Option Nat
  /-- the action that left the queue last -/
  lastReleased : Option (Action α)
  /-- how many actions left the queue -/
  released : Nat
deriving DecidableEq, Repr

namespace Queue

variable {α : Type}

/-- Nothing accepted yet. -/
def empty : Queue α := ⟨[], 0, none, none, 0⟩

/-- Whether an identifier is above every identifier accepted so far. -/
def accepts (q : Queue α) (id : Nat) : Bool :=
  match q.lastAdded with
  | none => true
  | some last => last < id

/-- Append an action. It is refused when an identifier at least as great was
accepted before. -/
def add? (q : Queue α) (action : Action α) : Option (Queue α) :=
  if q.accepts action.id then
    some { q with pending := q.pending ++ [action], lastAdded := some action.id }
  else none

/-- The queue after offering it an action. -/
def offer (q : Queue α) (action : Action α) : Queue α := (q.add? action).getD q

/-- Release the oldest action. -/
def next? (q : Queue α) : Option (Action α × Queue α) :=
  match q.pending with
  | [] => none
  | action :: rest =>
    some (action,
      { q with
        pending := rest
        blocked := q.blocked - 1
        lastReleased := some action
        released := q.released + 1 })

/-- Release the given number of oldest actions. -/
def release (q : Queue α) (count : Nat) : List (Action α) × Queue α :=
  let leaving := q.pending.take count
  (leaving,
    { q with
      pending := q.pending.drop count
      blocked := q.blocked - count
      lastReleased := leaving.getLast?.or q.lastReleased
      released := q.released + leaving.length })

/-- Release every action. -/
def releaseAll (q : Queue α) : List (Action α) × Queue α := q.release q.pending.length

/-- The actions of the block. -/
def block (q : Queue α) : List (Action α) := q.pending.take q.blocked

/-- Release the actions of the block. -/
def releaseBlock (q : Queue α) : List (Action α) × Queue α := q.release q.blocked

/-- Make the waiting actions the block. -/
def freeze (q : Queue α) : Queue α := { q with blocked := q.pending.length }

/-- Release the actions up to an identifier. -/
def releaseUpTo (q : Queue α) (id : Nat) : List (Action α) × Queue α :=
  q.release (q.pending.takeWhile (·.id ≤ id)).length

/-- Drop the waiting actions without releasing them. -/
def discard (q : Queue α) : Queue α := { q with pending := [], blocked := 0 }

/-- The waiting actions, or those of the block. -/
def selection (q : Queue α) (blockOnly : Bool) : List (Action α) :=
  if blockOnly then q.block else q.pending

/-- A queue that was offered the given actions in order. -/
def ofList (actions : List (Action α)) : Queue α := actions.foldl offer empty

/-- **Nothing is lost or reordered by a release.** -/
theorem release_append (q : Queue α) (count : Nat) :
    (q.release count).1 ++ (q.release count).2.pending = q.pending :=
  List.take_append_drop ..

theorem pending_add? {q r : Queue α} {action : Action α} (h : q.add? action = some r) :
    r.pending = q.pending ++ [action] := by
  simp only [add?] at h
  split at h
  · obtain rfl := Option.some.inj h
    rfl
  · cases h

end Queue

end RobotMotion
