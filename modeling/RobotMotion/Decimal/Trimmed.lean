import RobotMotion.Decimal.Layout

/-!
# Trimmed numbers

Instructions show numbers to six places, so that the noise of a sum such as
`0.1 + 0.2` does not appear. The number is scaled, rounded with ties away from
zero, scaled back and written with its shortest digits; zero has no sign.
-/

namespace RobotMotion.Decimal

/-- A double rounded to six places by scaling it up and down again. A value too
large to be scaled becomes infinite. -/
def toSixPlaces (x : Float) : Float := roundWhole (x * 1e6) / 1e6

/-- The text of a number in an instruction. -/
def trimmed (x : Float) : String :=
  let r := toSixPlaces x
  if r == 0.0 then "0" else plain r

end RobotMotion.Decimal
