import RobotMotion.Decimal.Binary64

/-!
# Messages on the wire

A message to a controller is a text or a row of 32-bit integers, the most
significant byte of each first. Values that are not whole are sent scaled and
rounded; a value that does not fit is not sent at all.
-/

namespace RobotMotion.Wire

/-- A message to a controller. -/
inductive Message where
  | text (frame : String)
  | binary (words : List Int)
deriving DecidableEq, Repr

/-- The least number above the 32-bit integers with sign, `2 ^ 31`. -/
def wordLimit : Int := 2147483648

/-- The bytes of a 32-bit integer, the most significant first. -/
def wordBytes (n : Int) : List UInt8 :=
  let m := (n % (2 * wordLimit)).toNat
  [m / 16777216, m / 65536 % 256, m / 256 % 256, m % 256].map Nat.toUInt8

/-- The 32-bit integer that four bytes make. -/
def wordOfBytes (a b c d : UInt8) : Int :=
  let m : Int := ((a.toNat * 256 + b.toNat) * 256 + c.toNat) * 256 + d.toNat
  if m < wordLimit then m else m - 2 * wordLimit

/-- The bytes of a message. -/
def Message.bytes : Message → List UInt8
  | .text frame => frame.toUTF8.toList
  | .binary words => words.flatMap wordBytes

/-- Whether a number fits into 32 bits with sign. -/
def fitsWord (n : Int) : Bool := -wordLimit ≤ n && n < wordLimit

theorem fitsWord_iff {n : Int} : fitsWord n = true ↔ -wordLimit ≤ n ∧ n < wordLimit := by
  rw [fitsWord, Bool.and_eq_true, decide_eq_true_iff, decide_eq_true_iff]

/-- The 32-bit integer nearest to a number. -/
def clampedWord (n : Int) : Int := max (-wordLimit) (min n (wordLimit - 1))

/-- A double as a 32-bit integer. Its fraction is cut off, what is too large or too small is
clamped, and what is not a number is zero. -/
def truncatedWord (x : Float) : Int :=
  match Decimal.Binary64.ofFloat x with
  | .nan => 0
  | .infinite negative => if negative then -wordLimit else wordLimit - 1
  | .finite negative mantissa exponent =>
    let n := Decimal.binaryNumerator mantissa exponent / Decimal.binaryDenominator exponent
    clampedWord (if negative then -(n : Int) else n)

/-- Nothing but words comes of it. -/
theorem fitsWord_truncatedWord (x : Float) : fitsWord (truncatedWord x) = true := by
  rw [truncatedWord]
  split
  · decide
  · split <;> decide
  · rw [fitsWord_iff, clampedWord, wordLimit]
    omega

/-- The least 32-bit integer as a double. -/
def leastWord : Float := -2147483648.0

/-- The greatest 32-bit integer as a double. -/
def greatestWord : Float := 2147483647.0

/-- A value times a factor as a 32-bit integer, ties away from zero. Absent when
it does not fit. -/
def fixedPoint (value factor : Float) : Option Int :=
  let scaled := Decimal.roundWhole (value * factor)
  if scaled.isFinite && leastWord ≤ scaled && scaled ≤ greatestWord then
    some (truncatedWord scaled)
  else none

theorem fitsWord_of_fixedPoint {value factor : Float} {n : Int}
    (h : fixedPoint value factor = some n) : fitsWord n = true := by
  rw [fixedPoint] at h
  split at h
  · obtain rfl := Option.some.inj h
    exact fitsWord_truncatedWord _
  · cases h

/-- An identifier as a 32-bit integer, if it fits. -/
def wireId (id : Nat) : Option Int := if id < wordLimit then some id else none

/-- The identifier of a message that asks for no acknowledgment. -/
def noAcknowledgment : Nat := 0

/-! ### Factors -/

/-- The factor for metres. -/
def distanceFactor : Float := 10000.0

/-- The factor for radians. -/
def angleFactor : Float := 10000.0

/-- The factor for seconds. -/
def timeFactor : Float := 1000.0

/-- The factor for kilograms. -/
def massFactor : Float := 1000.0

/-- The factor for volts. -/
def voltageFactor : Float := 1000000.0

end RobotMotion.Wire
