import RobotMotion.Scalar

/-!
# Vectors of space

Points and displacements in millimetres. Sums of products are evaluated from
left to right, so that the results over doubles are fixed to the last bit.
-/

namespace RobotMotion

/-- A point or a displacement. -/
structure Vector3 (α : Type) where
  x : α
  y : α
  z : α
deriving DecidableEq, Repr

namespace Vector3

variable {α : Type} [Scalar α]

/-- The origin. -/
def zero : Vector3 α := ⟨Scalar.zero, Scalar.zero, Scalar.zero⟩

/-- The direction of the third axis. -/
def unitZ : Vector3 α := ⟨Scalar.zero, Scalar.zero, Scalar.one⟩

instance : Add (Vector3 α) := ⟨fun a b => ⟨a.x + b.x, a.y + b.y, a.z + b.z⟩⟩
instance : Sub (Vector3 α) := ⟨fun a b => ⟨a.x - b.x, a.y - b.y, a.z - b.z⟩⟩

/-- Every component times a factor. -/
def scale (v : Vector3 α) (k : α) : Vector3 α := ⟨v.x * k, v.y * k, v.z * k⟩

/-- Every component divided by a divisor. -/
def divide (v : Vector3 α) (k : α) : Vector3 α := ⟨v.x / k, v.y / k, v.z / k⟩

/-- The inner product. -/
def dot (a b : Vector3 α) : α := a.x * b.x + a.y * b.y + a.z * b.z

/-- The vector product. -/
def cross (a b : Vector3 α) : Vector3 α :=
  ⟨a.y * b.z - b.y * a.z, a.z * b.x - b.z * a.x, a.x * b.y - b.x * a.y⟩

/-- The Euclidean length. -/
def length (v : Vector3 α) : α := Scalar.sqrt (v.dot v)

/-- The length of the way between two points. -/
def distance (a b : Vector3 α) : α := (a - b).length

/-- The components in order. -/
def toList (v : Vector3 α) : List α := [v.x, v.y, v.z]

end Vector3

end RobotMotion
