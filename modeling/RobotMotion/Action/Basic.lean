import RobotMotion.Geometry.Axes
import RobotMotion.Settings.Basic
import RobotMotion.Tool.Basic

/-!
# Actions

A `Command` says what a device is to do, and an `Action` is a command with an
identifier. Identifiers are handed out in increasing order, starting at one.
-/

namespace RobotMotion

/-- The heated parts of a printing device. -/
inductive HeatedPart where
  | extruder
  | bed
  | chamber
deriving DecidableEq, Repr

/-- The word for a heated part. -/
def HeatedPart.text : HeatedPart → String
  | .extruder => "extruder"
  | .bed => "bed"
  | .chamber => "chamber"

/-- Which external axes a command writes. -/
inductive AxesTarget where
  /-- those that travel with cartesian targets -/
  | cartesian
  /-- those that travel with joint targets -/
  | joint
  /-- both -/
  | all
deriving DecidableEq, Repr

/-- The word for a set of external axes. -/
def AxesTarget.text : AxesTarget → String
  | .cartesian => "cartesian"
  | .joint => "joint"
  | .all => "all"

/-- Whether the axes that travel with cartesian targets are written. -/
def AxesTarget.hasCartesian : AxesTarget → Bool
  | .cartesian | .all => true
  | .joint => false

/-- Whether the axes that travel with joint targets are written. -/
def AxesTarget.hasJoint : AxesTarget → Bool
  | .joint | .all => true
  | .cartesian => false

/-- What a device is to do. A relative command is added to the present value. -/
inductive Command (α : Type) where
  /-- a numeric setting -/
  | setting (which : Quantity) (value : α) (relative : Bool)
  | motionMode (mode : MotionType)
  | referenceFrame (frame : ReferenceFrame)
  /-- put the settings aside -/
  | pushSettings
  /-- take back the settings put aside last -/
  | popSettings
  | translation (delta : Vector3 α) (relative : Bool)
  | rotation (rotation : Rotation α) (relative : Bool)
  /-- a translation and a rotation at once; the order matters to the relative form only -/
  | transformation (translation : Vector3 α) (rotation : Rotation α) (relative : Bool)
      (translationFirst : Bool)
  | axes (joints : Joints α) (relative : Bool)
  /-- one external axis, numbered from one -/
  | externalAxis (index : Nat) (value : α) (target : AxesTarget) (relative : Bool)
  | defineTool (tool : Tool α)
  | attachTool (name : String)
  | detachTool
  | writeDigital (pin : String) (on : Bool) (toolPin : Bool)
  | writeAnalog (pin : String) (value : α) (toolPin : Bool)
  | wait (millis : Nat)
  | message (text : String)
  | comment (text : String)
  | temperature (part : HeatedPart) (value : α) (waits : Bool) (relative : Bool)
  | extrusion (on : Bool)
  /-- start up or shut down the device -/
  | initialization (on : Bool)
  /-- code of the target language, passed through -/
  | customCode (code : String) (isDeclaration : Bool)
deriving DecidableEq, Repr

namespace Command

variable {α : Type}

/-- Whether the command leads to a new target. -/
def isMotion : Command α → Bool
  | .translation .. | .rotation .. | .transformation .. | .axes .. => true
  | _ => false

/-- The name of the kind of command, as diagnostics show it. -/
def name : Command α → String
  | .setting .speed .. => "Speed"
  | .setting .acceleration .. => "Acceleration"
  | .setting .precision .. => "Precision"
  | .setting .extrusionRate .. => "ExtrusionRate"
  | .motionMode _ => "MotionMode"
  | .referenceFrame _ => "ReferenceFrame"
  | .pushSettings => "PushSettings"
  | .popSettings => "PopSettings"
  | .translation .. => "Translation"
  | .rotation .. => "Rotation"
  | .transformation .. => "Transformation"
  | .axes .. => "Axes"
  | .externalAxis .. => "ExternalAxis"
  | .defineTool _ => "DefineTool"
  | .attachTool _ => "AttachTool"
  | .detachTool => "DetachTool"
  | .writeDigital .. => "WriteDigitalIO"
  | .writeAnalog .. => "WriteAnalogIO"
  | .wait _ => "Wait"
  | .message _ => "Message"
  | .comment _ => "Comment"
  | .temperature .. => "Temperature"
  | .extrusion _ => "Extrusion"
  | .initialization _ => "Initialization"
  | .customCode .. => "CustomCode"

end Command

/-- A command with its identifier. -/
structure Action (α : Type) where
  id : Nat
  command : Command α
deriving DecidableEq, Repr

/-- The least number that is too great for an identifier of 64 bits. -/
def Action.idLimit : Nat := Nat.pow 2 64

/-- Hands out identifiers: each is one more than the last. -/
structure IdSource where
  /-- the last identifier handed out, zero at the start -/
  last : Nat
deriving DecidableEq, Repr

namespace IdSource

/-- Nothing handed out yet. -/
def start : IdSource := ⟨0⟩

/-- The next identifier. -/
def next (ids : IdSource) : Nat := ids.last + 1

/-- An action under the next identifier, and what is left to hand out. -/
def stamp {α : Type} (ids : IdSource) (command : Command α) : Action α × IdSource :=
  (⟨ids.next, command⟩, ⟨ids.next⟩)

end IdSource

end RobotMotion
