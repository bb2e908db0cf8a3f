import RobotMotion.Decimal.Layout

/-!
# Fixed decimal places

A double rounded to a given number of decimal places, ties to even on its exact
value. A result whose digits are all zero carries no sign.
-/

namespace RobotMotion.Decimal

/-- The value `mantissa · 2 ^ exponent` in units of `10 ^ -places`, rounded. -/
def fixedUnits (places mantissa : Nat) (exponent : Int) : Nat :=
  roundDiv .even (binaryNumerator mantissa exponent * Nat.pow 10 places)
    (binaryDenominator exponent)

/-- A number of units of `10 ^ -places` as whole digits, a point and `places`
digits; without places there is no point. -/
def placed (places units : Nat) : String :=
  let whole := natural (units / Nat.pow 10 places)
  if places = 0 then whole
  else
    let digits := Nat.toDigits 10 (units % Nat.pow 10 places)
    whole ++ "." ++ zeros (places - digits.length) ++ String.ofList digits

/-- A double with a fixed number of decimal places. -/
def fixed (x : Float) (places : Nat) : String :=
  match Binary64.ofFloat x with
  | .nan => "NaN"
  | .infinite negative => if negative then "-inf" else "inf"
  | .finite negative mantissa exponent =>
    let units := fixedUnits places mantissa exponent
    (if negative && units != 0 then "-" else "") ++ placed places units

end RobotMotion.Decimal
