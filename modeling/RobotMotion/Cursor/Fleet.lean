import RobotMotion.Cursor.Basic

/-!
# Fleets of cursors

Cursors that feed one another. A cursor may name an earlier cursor as its
child, and passes on to it every action that it has carried out itself. Since a
child comes before its parents, passing on ends.

A fleet keeps a journal of the rejections in the order in which they occurred.
-/

namespace RobotMotion

/-- Cursors by number, and the rejections so far. -/
structure Fleet (α : Type) where
  cursors : List (Cursor α)
  journal : List Rejection
deriving DecidableEq, Repr

namespace Fleet

variable {α : Type} [Scalar α]

/-- No cursors. -/
def empty : Fleet α := ⟨[], []⟩

/-- The cursor of a number. -/
def cursor? (f : Fleet α) (i : Nat) : Option (Cursor α) := f.cursors[i]?

/-- Add a cursor at the next number. -/
def add (f : Fleet α) (c : Cursor α) : Fleet α := { f with cursors := f.cursors ++ [c] }

/-- Put a cursor in place of another. -/
def put (f : Fleet α) (i : Nat) (c : Cursor α) : Fleet α :=
  { f with cursors := f.cursors.set i c }

/-- Note a rejection, if there was one. -/
def note (f : Fleet α) (rejection : Option Rejection) : Fleet α :=
  { f with journal := f.journal ++ rejection.toList }

/-- The child of a cursor, which comes before it. -/
def childBelow (c : Cursor α) (i : Nat) : Option { j : Nat // j < i } :=
  match c.child with
  | none => none
  | some j => if h : j < i then some ⟨j, h⟩ else none

/-- Carry out a released action on a cursor, and pass it on if it applied. -/
def carryOutWith (pass : Fleet α → Action α → Fleet α) (f : Fleet α) (i : Nat) (c : Cursor α)
    (action : Action α) : Bool × Fleet α :=
  let visit := c.device.visit action
  let f := (f.put i { c with device := visit.device }).note visit.rejection
  if visit.applied then (true, pass f action) else (false, f)

/-- Issue an action to a cursor: it waits in the queue, or is carried out at
once. The answer is false when the queue refuses the action, and when it is
carried out at once and rejected. -/
def issue (f : Fleet α) (i : Nat) (action : Action α) : Bool × Fleet α :=
  match f.cursor? i with
  | none => (false, f)
  | some c =>
    match c.queue.add? action with
    | none => (false, f)
    | some queue =>
      if c.immediate then
        match queue.next? with
        | none => (false, f.put i { c with queue })
        | some (oldest, queue) =>
          let pass (f : Fleet α) (a : Action α) : Fleet α :=
            match childBelow c i with
            | none => f
            | some ⟨j, _⟩ => (issue f j a).2
          carryOutWith pass f i { c with queue } oldest
      else (true, f.put i { c with queue })
termination_by i

/-- Pass an action on to the child of a cursor. -/
def pass (c : Cursor α) (i : Nat) (f : Fleet α) (action : Action α) : Fleet α :=
  match childBelow c i with
  | none => f
  | some ⟨j, _⟩ => (f.issue j action).2

/-- Carry out a released action on a cursor. -/
def carryOut (f : Fleet α) (i : Nat) (c : Cursor α) (action : Action α) : Bool × Fleet α :=
  carryOutWith (pass c i) f i c action

/-- Release the oldest action of a cursor and carry it out. -/
def next? (f : Fleet α) (i : Nat) : Option ((Action α × Bool) × Fleet α) :=
  match f.cursor? i with
  | none => none
  | some c =>
    match c.queue.next? with
    | none => none
    | some (action, queue) =>
      let (applied, f) := f.carryOut i { c with queue } action
      some ((action, applied), f)

/-- Carry out released actions one after the other. The answer is whether all of
them applied. -/
def carryOutAll (f : Fleet α) (i : Nat) : List (Action α) → Bool × Fleet α
  | [] => (true, f)
  | action :: rest =>
    match f.cursor? i with
    | none => (true, f)
    | some c =>
      let (applied, f) := f.carryOut i c action
      let (others, f) := carryOutAll f i rest
      (applied && others, f)

/-- Release the actions of a cursor up to an identifier and carry them out. A
rejection does not stop the rest. -/
def advanceTo (f : Fleet α) (i : Nat) (id : Nat) : Bool × Fleet α :=
  match f.cursor? i with
  | none => (true, f)
  | some c =>
    let (leaving, queue) := c.queue.releaseUpTo id
    (f.put i { c with queue }).carryOutAll i leaving

/-- Give a cursor its starting pose. -/
def start (f : Fleet α) (i : Nat) (pose : InitialPose α) (settings : Settings α) :
    Except StartError (Fleet α) :=
  match f.cursor? i with
  | none => .ok f
  | some c => (c.start pose settings).map (f.put i)

end Fleet

end RobotMotion
