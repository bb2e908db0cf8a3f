import RobotMotion.Cursor.Queue
import RobotMotion.Device.Basic

/-!
# Cursors

A cursor is a device with a queue in front of it. Releasing an action carries
it out: a rejected action is used up as well and leaves the device as it was.
-/

namespace RobotMotion

/-- A device that is fed from a queue. -/
structure Cursor (α : Type) where
  name : String
  /-- whether an issued action is carried out at once -/
  immediate : Bool
  /-- the number of the cursor that receives the actions carried out here -/
  child : Option Nat
  device : Device α
  queue : Queue α
deriving DecidableEq, Repr

/-- An action that was released, what became of it, and the device after it. -/
structure Visit (α : Type) where
  action : Action α
  /-- why the action was rejected, if it was -/
  rejection : Option Rejection
  device : Device α
deriving DecidableEq, Repr

namespace Visit

variable {α : Type}

/-- Whether the action was carried out. -/
def applied (v : Visit α) : Bool := v.rejection.isNone

/-- The state after the action. -/
def state (v : Visit α) : State α := v.device.state

end Visit

/-- What comes of a device that is given an action. -/
def Device.visit {α : Type} [Scalar α] (d : Device α) (action : Action α) : Visit α :=
  match d.perform action.command with
  | .ok after => ⟨action, none, after⟩
  | .error rejection => ⟨action, some rejection, d⟩

/-- A device that could not be started, with the name of its cursor. -/
structure StartError where
  cursor : String
  error : Device.PoseError
deriving DecidableEq, Repr

/-- The wording of a failed start. -/
def StartError.message (e : StartError) : String :=
  "cursor '" ++ e.cursor ++ "': " ++
    match e.error with
    | .halfPose => "position and rotation must be initialized together"
    | .nothing => "initial pose needs a position and rotation, or axes"

namespace Cursor

variable {α : Type} [Scalar α]

/-- A cursor that knows some tools. Of two tools of one name the later is known. -/
def make (name : String) (immediate : Bool) (child : Option Nat) (tools : List (Tool α)) :
    Cursor α :=
  ⟨name, immediate, child, .blank (.ofList Tool.name tools), .empty⟩

/-- The cursor at a starting pose. Its queue and the settings put aside stay. -/
def start (c : Cursor α) (pose : InitialPose α) (settings : Settings α) :
    Except StartError (Cursor α) :=
  match c.device.start pose settings with
  | .ok device => .ok { c with device }
  | .error error => .error ⟨c.name, error⟩

/-- Release the oldest action and carry it out. -/
def next? (c : Cursor α) : Option (Visit α × Cursor α) :=
  c.queue.next?.map fun (action, queue) =>
    let visit := c.device.visit action
    (visit, { c with device := visit.device, queue })

/-- Release actions one by one and carry them out, at most the given number. -/
def run : Nat → Cursor α → List (Visit α) × Cursor α
  | 0, c => ([], c)
  | n + 1, c =>
    match c.next? with
    | none => ([], c)
    | some (visit, c) =>
      let (visits, c) := run n c
      (visit :: visits, c)

/-- A copy of the cursor that feeds nobody and whose queue holds the waiting
actions, or those of the block, alone. -/
def rehearsal (c : Cursor α) (blockOnly : Bool) : Cursor α where
  name := c.name ++ "-replay"
  immediate := false
  child := none
  device := c.device
  queue := .ofList (c.queue.selection blockOnly)

/-- Carry out everything that waits. -/
def runAll (c : Cursor α) : List (Visit α) × Cursor α := c.run c.queue.pending.length

/-- What carrying out the waiting actions, or those of the block, would do. The
cursor itself is not touched. -/
def visits (c : Cursor α) (blockOnly : Bool) : List (Visit α) :=
  (c.rehearsal blockOnly).runAll.1

end Cursor

end RobotMotion
