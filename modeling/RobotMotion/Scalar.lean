/-!
# Scalars

The arithmetic that positions, rotations and settings are computed with. The
motion rules are written once over any `Scalar`: a controller runs them over
doubles, and the same rules can be read over exact numbers.
-/

namespace RobotMotion

/-- A number type with the operations that the motion rules use. `less` is the
comparison as the machine makes it: over doubles it fails on a value that is
not a number. -/
class Scalar (α : Type) extends Add α, Sub α, Mul α, Div α, Neg α where
  /-- a whole number as a scalar -/
  ofNat : Nat → α
  /-- the square root -/
  sqrt : α → α
  /-- whether the first number is below the second -/
  less : α → α → Bool

instance : Scalar Float where
  ofNat := Float.ofNat
  sqrt := Float.sqrt
  less a b := a < b

namespace Scalar

variable {α : Type} [Scalar α]

/-- The number zero. -/
def zero : α := ofNat 0

/-- The number one. -/
def one : α := ofNat 1

/-- The number two. -/
def two : α := ofNat 2

/-- A number cut off below at zero. A value that compares with nothing is kept. -/
def nonNegative (x : α) : α := if less x zero then zero else x

/-- The value that a command asks for: the number itself, or the number added
to the present value. -/
def shifted (relative : Bool) (present value : α) : α :=
  if relative then present + value else value

end Scalar

end RobotMotion
