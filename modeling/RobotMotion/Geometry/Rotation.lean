import RobotMotion.Geometry.Vector3

/-!
# Rotations

A rotation of space is a quaternion, written `x, y, z, w` with the scalar part
last. A quaternion that a program supplies need not have unit length; the
motion rules bring it to unit length where they store it.
-/

namespace RobotMotion

/-- A rotation as a quaternion. -/
structure Rotation (α : Type) where
  x : α
  y : α
  z : α
  w : α
deriving DecidableEq, Repr

namespace Rotation

variable {α : Type} [Scalar α]

/-- The rotation that moves nothing. -/
def identity : Rotation α := ⟨Scalar.zero, Scalar.zero, Scalar.zero, Scalar.one⟩

/-- The vector part. -/
def vectorPart (q : Rotation α) : Vector3 α := ⟨q.x, q.y, q.z⟩

/-- The inner product of the four components. -/
def dot (a b : Rotation α) : α := a.x * b.x + a.y * b.y + a.z * b.z + a.w * b.w

/-- Every component times a factor. -/
def scale (q : Rotation α) (k : α) : Rotation α := ⟨q.x * k, q.y * k, q.z * k, q.w * k⟩

/-- The length of the quaternion. -/
def length (q : Rotation α) : α := Scalar.sqrt (q.dot q)

/-- The quaternion brought to unit length. -/
def normalize (q : Rotation α) : Rotation α := q.scale (Scalar.one / q.length)

/-- The opposite quaternion, which stands for the same rotation. -/
def opposite (q : Rotation α) : Rotation α := ⟨-q.x, -q.y, -q.z, -q.w⟩

/-- The conjugate, which undoes a rotation of unit length. -/
def conjugate (q : Rotation α) : Rotation α := ⟨-q.x, -q.y, -q.z, q.w⟩

/-- The rotation that turns by the second and then by the first. -/
def compose (a b : Rotation α) : Rotation α :=
  { x := a.w * b.x + a.x * b.w + a.y * b.z - a.z * b.y
    y := a.w * b.y - a.x * b.z + a.y * b.w + a.z * b.x
    z := a.w * b.z + a.x * b.y - a.y * b.x + a.z * b.w
    w := a.w * b.w - a.x * b.x - a.y * b.y - a.z * b.z }

instance : Mul (Rotation α) := ⟨compose⟩

/-- A vector turned by a rotation. -/
def turn (q : Rotation α) (v : Vector3 α) : Vector3 α :=
  let b := q.vectorPart
  v.scale (q.w * q.w - b.dot b) + b.scale (v.dot b * Scalar.two)
    + (b.cross v).scale (q.w * Scalar.two)

/-- The columns of the matrix of a rotation of unit length. -/
def columns (q : Rotation α) : Vector3 α × Vector3 α × Vector3 α :=
  let one : α := Scalar.one
  let x2 := q.x + q.x
  let y2 := q.y + q.y
  let z2 := q.z + q.z
  let xx := q.x * x2
  let xy := q.x * y2
  let xz := q.x * z2
  let yy := q.y * y2
  let yz := q.y * z2
  let zz := q.z * z2
  let wx := q.w * x2
  let wy := q.w * y2
  let wz := q.w * z2
  (⟨one - (yy + zz), xy + wz, xz - wy⟩,
   ⟨xy - wz, one - (xx + zz), yz + wx⟩,
   ⟨xz + wy, yz - wx, one - (xx + yy)⟩)

/-- The components of a rotation brought to unit length, scalar part first, as
robot controllers expect them. -/
def scalarFirst (q : Rotation α) : List α :=
  let n := q.normalize
  [n.w, n.x, n.y, n.z]

/-- The rows of the matrix of a rotation. -/
def matrixRows (q : Rotation α) : List (List α) :=
  let (c0, c1, c2) := q.normalize.columns
  [[c0.x, c1.x, c2.x], [c0.y, c1.y, c2.y], [c0.z, c1.z, c2.z]]

/-- The components in order, scalar part last. -/
def toList (q : Rotation α) : List α := [q.x, q.y, q.z, q.w]

end Rotation

end RobotMotion
