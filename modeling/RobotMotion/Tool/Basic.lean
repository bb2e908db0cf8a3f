import RobotMotion.Geometry.Rotation

/-!
# Tools

A tool is mounted on the flange of the robot. Its center point is what the
positions of a program speak about.
-/

namespace RobotMotion

/-- A tool that can be mounted on the flange. Lengths are in mm, the weight in
kg, everything seen from the flange. -/
structure Tool (α : Type) where
  name : String
  /-- where the tool center point lies -/
  tcpPosition : Vector3 α
  /-- how the tool center point is turned -/
  tcpOrientation : Rotation α
  weight : α
  centerOfGravity : Vector3 α
deriving DecidableEq, Repr

/-- A tool whose orientation is brought to unit length. -/
def Tool.make {α : Type} [Scalar α] (name : String) (tcpPosition : Vector3 α)
    (tcpOrientation : Rotation α) (weight : α) (centerOfGravity : Vector3 α) : Tool α :=
  ⟨name, tcpPosition, tcpOrientation.normalize, weight, centerOfGravity⟩

end RobotMotion
