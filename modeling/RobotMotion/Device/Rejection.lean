import RobotMotion.Decimal.Layout

/-!
# Rejections

Why a device cannot carry out a command, and the wording of each reason.
-/

namespace RobotMotion

/-- The motions that speak of a cartesian pose. -/
inductive PoseMotion where
  | translation
  | rotation
  | transformation
deriving DecidableEq, Repr

/-- The word for a motion. -/
def PoseMotion.text : PoseMotion → String
  | .translation => "translation"
  | .rotation => "rotation"
  | .transformation => "transformation"

/-- Why a command was not carried out. -/
inductive Rejection where
  /-- the device has no starting pose -/
  | notInitialized
  /-- a relative motion has no pose to start from -/
  | noAbsolutePose (motion : PoseMotion)
  /-- a translation to a point has no rotation to keep -/
  | missingRotation
  /-- a rotation to an orientation has no position to keep -/
  | missingPosition
  /-- relative joint angles have nothing to be added to -/
  | noAbsoluteAxes
  /-- there is no external axis of this number -/
  | externalAxisIndex (index : Nat)
  /-- a relative external axis value has nothing to be added to -/
  | noAbsoluteExternalAxis (index : Nat)
  /-- no tool is known by this name -/
  | unknownTool (name : String)
  /-- there is no tool to detach -/
  | noToolAttached
  /-- no settings were put aside -/
  | emptySettingsStack
deriving DecidableEq, Repr

/-- The wording of a rejection. -/
def Rejection.message : Rejection → String
  | .notInitialized => "cursor has no initial pose"
  | .noAbsolutePose motion =>
    "relative " ++ motion.text ++ " requires an absolute position and rotation"
  | .missingRotation => "absolute translation requires a defined rotation"
  | .missingPosition => "absolute rotation requires a defined position"
  | .noAbsoluteAxes => "relative axes require absolute axes to be defined"
  | .externalAxisIndex index =>
    "external axis index " ++ Decimal.natural index ++ " is out of range 1..=6"
  | .noAbsoluteExternalAxis index =>
    "relative external axis " ++ Decimal.natural index ++ " has no absolute value"
  | .unknownTool name => "tool \"" ++ name ++ "\" is not defined"
  | .noToolAttached => "no tool is attached"
  | .emptySettingsStack => "settings stack is empty"

end RobotMotion
