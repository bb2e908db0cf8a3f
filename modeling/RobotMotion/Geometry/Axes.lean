import RobotMotion.Geometry.Orientation
import RobotMotion.Decimal.Layout

/-!
# Joint values and external axes

Six joint angles in degrees, and six external axes of which any may be unset.
External axes are numbered from one.
-/

namespace RobotMotion

/-- The angles of the six joints. -/
structure Joints (α : Type) where
  values : Vector α 6
deriving DecidableEq, Repr

namespace Joints

variable {α : Type} [Scalar α]

/-- Joint by joint the sum. -/
def add (a b : Joints α) : Joints α := ⟨a.values.zipWith (· + ·) b.values⟩

instance : Add (Joints α) := ⟨add⟩

/-- The angles in joint order. -/
def toList (j : Joints α) : List α := j.values.toList

omit [Scalar α] in
@[simp] theorem length_toList (j : Joints α) : j.toList.length = 6 := j.values.length_toList

/-- The angles in radians, in joint order. -/
def radians (j : Joints Float) : List Float := j.toList.map Angle.toRadians

@[simp] theorem length_radians (j : Joints Float) : j.radians.length = 6 := by simp [radians]

/-- The angles in brackets. -/
def text (j : Joints Float) : String :=
  "[" ++ String.intercalate ", " (j.toList.map Decimal.plain) ++ "]"

end Joints

/-- The values of the six external axes, where set. -/
structure ExternalAxes (α : Type) where
  values : Vector (Option α) 6
deriving DecidableEq, Repr

namespace ExternalAxes

variable {α : Type}

/-- No axis set. -/
def empty : ExternalAxes α := ⟨Vector.replicate 6 none⟩

/-- Whether an axis number names one of the axes. -/
def inRange (index : Nat) : Bool := 1 ≤ index ∧ index ≤ 6

/-- The value of an axis, if there is such an axis and it is set. -/
def get? (axes : ExternalAxes α) (index : Nat) : Option α :=
  if h : 1 ≤ index ∧ index ≤ 6 then axes.values[index - 1] else none

/-- The axes with one of them set. A number out of range changes nothing. -/
def set (axes : ExternalAxes α) (index : Nat) (value : α) : ExternalAxes α :=
  if h : 1 ≤ index ∧ index ≤ 6 then ⟨axes.values.set (index - 1) (some value)⟩ else axes

/-- Whether no axis is set. -/
def isEmpty (axes : ExternalAxes α) : Bool := axes.values.all Option.isNone

/-- The values in axis order. -/
def toList (axes : ExternalAxes α) : List (Option α) := axes.values.toList

end ExternalAxes

/-- A vector in brackets. -/
def Vector3.text (v : Vector3 Float) : String :=
  "[" ++ String.intercalate ", " (v.toList.map Decimal.plain) ++ "]"

end RobotMotion
