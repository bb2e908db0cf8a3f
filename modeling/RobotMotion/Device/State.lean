import RobotMotion.Action.Basic
import RobotMotion.Registry
import RobotMotion.Settings.Stack

/-!
# State of a device

Where a device is, what it carries, and what its outputs and heaters are set
to. A device is at a cartesian pose or at joint angles; a motion in one form
forgets the other. Settings that were put aside are kept beside the state.
-/

namespace RobotMotion

/-- The temperatures asked of the heated parts, where set, in °C. -/
structure Temperatures (α : Type) where
  extruder : Option α
  bed : Option α
  chamber : Option α
deriving DecidableEq, Repr

namespace Temperatures

variable {α : Type}

/-- No temperature set. -/
def unset : Temperatures α := ⟨none, none, none⟩

/-- The temperature asked of a part. -/
def get? (t : Temperatures α) : HeatedPart → Option α
  | .extruder => t.extruder
  | .bed => t.bed
  | .chamber => t.chamber

/-- Ask a temperature of a part. -/
def set (t : Temperatures α) (part : HeatedPart) (value : α) : Temperatures α :=
  match part with
  | .extruder => { t with extruder := some value }
  | .bed => { t with bed := some value }
  | .chamber => { t with chamber := some value }

@[simp] theorem get?_set (t : Temperatures α) (a b : HeatedPart) (value : α) :
    (t.set a value).get? b = if b = a then some value else t.get? b := by
  cases a <;> cases b <;> rfl

/-- The temperatures that are set, part by part. -/
def toList (t : Temperatures α) : List (HeatedPart × α) :=
  [HeatedPart.extruder, .bed, .chamber].filterMap fun part => (t.get? part).map (part, ·)

end Temperatures

/-- What is remembered of the state before the last applied action. -/
structure Snapshot (α : Type) where
  position : Option (Vector3 α)
  rotation : Option (Rotation α)
  axes : Option (Joints α)
  extruded : α
deriving DecidableEq, Repr

/-- The state of a device. -/
structure State (α : Type) where
  position : Option (Vector3 α)
  rotation : Option (Rotation α)
  axes : Option (Joints α)
  /-- external axes that travel with cartesian targets -/
  cartesianExternal : Option (ExternalAxes α)
  /-- external axes that travel with joint targets -/
  jointExternal : Option (ExternalAxes α)
  settings : Settings α
  /-- the attached tool -/
  tool : Option (Tool α)
  /-- the tools that can be attached -/
  tools : Registry (Tool α)
  digital : Registry Bool
  analog : Registry α
  temperatures : Temperatures α
  extruding : Bool
  /-- the length extruded so far -/
  extruded : α
  /-- whether the device was started up -/
  running : Bool
  previous : Snapshot α
deriving DecidableEq, Repr

namespace State

variable {α : Type}

/-- Nothing known but the tools. -/
def blank [Scalar α] (tools : Registry (Tool α)) : State α where
  position := none
  rotation := none
  axes := none
  cartesianExternal := none
  jointExternal := none
  settings := .standard
  tool := none
  tools := tools
  digital := .empty
  analog := .empty
  temperatures := .unset
  extruding := false
  extruded := Scalar.zero
  running := false
  previous := ⟨none, none, none, Scalar.zero⟩

/-- What is remembered of this state once the next action has applied. -/
def snapshot (s : State α) : Snapshot α := ⟨s.position, s.rotation, s.axes, s.extruded⟩

/-- The cartesian pose, if both parts are defined. -/
def pose? (s : State α) : Option (Vector3 α × Rotation α) :=
  match s.position, s.rotation with
  | some position, some rotation => some (position, rotation)
  | _, _ => none

/-- The length extruded by the last applied action. -/
def extrudedDelta [Scalar α] (s : State α) : α := s.extruded - s.previous.extruded

end State

/-- Where a device starts. -/
structure InitialPose (α : Type) where
  position : Option (Vector3 α)
  rotation : Option (Rotation α)
  axes : Option (Joints α)
  externalAxes : Option (ExternalAxes α)
deriving DecidableEq, Repr

/-- A pose that says nothing. -/
def InitialPose.unknown {α : Type} : InitialPose α := ⟨none, none, none, none⟩

end RobotMotion
