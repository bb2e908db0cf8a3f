import RobotMotion.Decimal.Rounding

/-!
# Doubles as exact numbers

A double is not a number, an infinity, or exactly `± mantissa · 2 ^ exponent`.
`Binary64.ofFloat` reads this off the bits, so that every rounding of a double
to a text or to a whole number is arithmetic on natural numbers.
-/

namespace RobotMotion.Decimal

/-- The value of a double. -/
inductive Binary64 where
  /-- not a number -/
  | nan
  /-- an infinity -/
  | infinite (negative : Bool)
  /-- the number `± mantissa · 2 ^ exponent`; zero has a sign too -/
  | finite (negative : Bool) (mantissa : Nat) (exponent : Int)
deriving DecidableEq, Repr

namespace Binary64

/-- The value that the sign, the eleven exponent bits and the fifty-two
fraction bits of a double stand for. -/
def ofFields (negative : Bool) (field fraction : Nat) : Binary64 :=
  if field = 2047 then
    if fraction = 0 then .infinite negative else .nan
  else if field = 0 then .finite negative fraction (-1074)
  else .finite negative (Nat.pow 2 52 + fraction) (field - 1075)

/-- The value of a double. -/
def ofFloat (x : Float) : Binary64 :=
  let bits := x.toBits.toNat
  ofFields (bits / Nat.pow 2 63 == 1) (bits / Nat.pow 2 52 % Nat.pow 2 11) (bits % Nat.pow 2 52)

end Binary64

/-- The numerator of `mantissa · 2 ^ exponent` as a fraction over
`binaryDenominator exponent`. -/
def binaryNumerator (mantissa : Nat) (exponent : Int) : Nat :=
  mantissa * Nat.pow 2 exponent.toNat

/-- The denominator that goes with `binaryNumerator`. -/
def binaryDenominator (exponent : Int) : Nat := Nat.pow 2 (-exponent).toNat

theorem binaryDenominator_pos (exponent : Int) : 0 < binaryDenominator exponent :=
  Nat.two_pow_pos _

/-- A double rounded to a whole double, ties away from zero. The sign stays,
also when the result is zero; what is whole or not finite is kept. -/
def roundWhole (x : Float) : Float :=
  match Binary64.ofFloat x with
  | .finite negative mantissa (.negSucc e) =>
    let n := Float.ofNat (roundDiv .away mantissa (Nat.pow 2 (e + 1)))
    if negative then -n else n
  | _ => x

end RobotMotion.Decimal
