import RobotMotion.Decimal.Layout
import RobotMotion.Text.Blank
import RobotMotion.Text.Numeral

/-!
# Pins

Outputs are addressed by texts. Where a controller numbers its outputs, the text
has to be a number in a range, with blanks around it allowed.
-/

namespace RobotMotion

/-- The number of a pin, if it lies in a range. It is read as a number of 64 bits. -/
def pinNumber? (low high : Int) (pin : String) : Option Int :=
  match Text.signed? 64 (Text.trimmed pin.toList) with
  | some n => if low ≤ n ∧ n ≤ high then some n else none
  | none => none

/-- The text of a pin number. -/
def pinText (n : Int) : String := Decimal.integer n

end RobotMotion
