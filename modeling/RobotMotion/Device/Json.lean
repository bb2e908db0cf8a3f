import RobotMotion.Device.State
import RobotMotion.Json.Record

/-!
# Starting poses in JSON

A starting pose as a record in which any part may be missing or null.
-/

namespace RobotMotion.InitialPose

/-- The fields of a starting pose in their order. -/
def fieldNames : List String := ["position", "rotation", "axes", "external_axes"]

/-- A starting pose as JSON. -/
def toJson (p : InitialPose Float) : Json :=
  .object
    [ ("position", .ofOption (.ofReals ·.toList) p.position),
      ("rotation", .ofOption (.ofReals ·.toList) p.rotation),
      ("axes", .ofOption (.ofReals ·.toList) p.axes),
      ("external_axes", .ofOption (.ofReals? ·.toList) p.externalAxes) ]

/-- A starting pose read from JSON. -/
def ofJson? (j : Json) : Option (InitialPose Float) := do
  let fields ← j.record? fieldNames
  return {
    position := ← Json.defaulted fields "position" none (Json.nullable? Json.vector3?)
    rotation := ← Json.defaulted fields "rotation" none (Json.nullable? Json.rotation?)
    axes := ← Json.defaulted fields "axes" none (Json.nullable? Json.joints?)
    externalAxes := ← Json.defaulted fields "external_axes" none
      (Json.nullable? Json.externalAxes?) }

end RobotMotion.InitialPose
