import RobotMotion.Geometry.Rotation

/-!
# Orientations in angles

Other ways to state a rotation over doubles: an axis with an angle, a rotation
vector (the axis scaled by the angle), and the three angles yaw, pitch and roll
about the moving axes `z`, `y` and `x`. Angles are in degrees unless said
otherwise.
-/

namespace RobotMotion

namespace Angle

/-- Half a turn in radians. -/
def pi : Float := 3.141592653589793

/-- Degrees to radians. -/
def toRadians (degrees : Float) : Float := degrees * (pi / 180.0)

/-- Radians to degrees. -/
def toDegrees (radians : Float) : Float := radians * (180.0 / pi)

/-- Angles and distances below this count as none. -/
def tolerance : Float := 1e-6

end Angle

/-- The direction of a vector, unless it has none. -/
def Vector3.direction? (v : Vector3 Float) : Option (Vector3 Float) :=
  let r := 1.0 / v.length
  if r.isFinite && r > 0.0 then some (v.scale r) else none

namespace Rotation

/-- The rotation about a unit axis by an angle in radians. -/
def aboutUnit (axis : Vector3 Float) (angle : Float) : Rotation Float :=
  let s := Float.sin (angle * 0.5)
  let c := Float.cos (angle * 0.5)
  ⟨axis.x * s, axis.y * s, axis.z * s, c⟩

/-- Axis and angle in radians of a rotation of unit length. Without a vector
part the axis is the first one. -/
def axisAngle (q : Rotation Float) : Vector3 Float × Float :=
  let v := q.vectorPart
  let l := v.length
  if l ≥ 1e-8 then (v.divide l, 2.0 * Float.atan2 l q.w) else (⟨1.0, 0.0, 0.0⟩, 0.0)

/-- The rotation about an axis of any length by an angle in degrees. An axis
without a direction counts as the third one. -/
def ofAxisAngle (axis : Vector3 Float) (degrees : Float) : Rotation Float :=
  aboutUnit (axis.direction?.getD Vector3.unitZ) (Angle.toRadians degrees)

/-- Axis and angle in degrees. A turn too small to have an axis is reported
about the third one. -/
def axisAngleDegrees (q : Rotation Float) : Vector3 Float × Float :=
  let (axis, angle) := q.normalize.axisAngle
  if angle.abs < Angle.tolerance then (Vector3.unitZ, 0.0) else (axis, Angle.toDegrees angle)

/-- The axis scaled by the angle in radians. Of the two turns that give the
rotation the shorter is taken, so the angle never exceeds half a turn. -/
def rotationVector (q : Rotation Float) : Vector3 Float :=
  let n := q.normalize
  let (axis, angle) := (if n.w < 0.0 then n.opposite else n).axisAngle
  if angle.abs < Angle.tolerance then Vector3.zero else axis.scale angle

/-- The rotation of a rotation vector. -/
def ofRotationVector (v : Vector3 Float) : Rotation Float :=
  let angle := v.length
  if angle < Angle.tolerance then identity else aboutUnit (v.divide angle) angle

/-- Yaw, pitch and roll in degrees. Where the pitch is a quarter turn the roll
is taken as zero. -/
def yawPitchRoll (q : Rotation Float) : Float × Float × Float :=
  let (c0, c1, c2) := q.normalize.columns
  let cy := Float.sqrt (c2.z * c2.z + c1.z * c1.z)
  let pitch := Float.atan2 (-c0.z) cy
  let (yaw, roll) :=
    if cy > 16.0 * 2.220446049250313e-16 then
      (Float.atan2 c0.y c0.x, Float.atan2 c1.z c2.z)
    else (Float.atan2 (-c1.x) c1.y, 0.0)
  (Angle.toDegrees yaw, Angle.toDegrees pitch, Angle.toDegrees roll)

/-- The rotation of yaw, pitch and roll in degrees. -/
def ofYawPitchRoll (yaw pitch roll : Float) : Rotation Float :=
  let ti := Angle.toRadians yaw * 0.5
  let tj := Angle.toRadians pitch * 0.5
  let th := Angle.toRadians roll * 0.5
  let si := Float.sin ti
  let ci := Float.cos ti
  let sj := Float.sin tj
  let cj := Float.cos tj
  let sh := Float.sin th
  let ch := Float.cos th
  let cc := ci * ch
  let cs := ci * sh
  let sc := si * ch
  let ss := si * sh
  { x := cj * cs - sj * sc
    y := cj * ss + sj * cc
    z := cj * sc - sj * cs
    w := cj * cc + sj * ss }

/-- Whether two rotations are the same up to a tolerance on the inner product. -/
def close (a b : Rotation Float) (tolerance : Float) : Bool :=
  (a.normalize.dot b.normalize).abs > 1.0 - tolerance

end Rotation

end RobotMotion
