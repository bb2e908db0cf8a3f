/-!
# Whole numbers in texts

Decimal digits of the ASCII range, at least one of them, with leading zeros
allowed, after an optional sign. Nothing else may stand in the text.
-/

namespace RobotMotion.Text

/-- The number that decimal digits make. Absent when there are none or when
another character stands among them. -/
def digits? (s : List Char) : Option Nat :=
  if !s.isEmpty && s.all Char.isDigit then
    some (s.foldl (fun n c => 10 * n + (c.toNat - '0'.toNat)) 0)
  else none

/-- A number without sign; a plus may stand in front. -/
def natural? : List Char → Option Nat
  | '+' :: rest => digits? rest
  | s => digits? s

/-- A number with an optional sign. -/
def integer? : List Char → Option Int
  | '-' :: rest => (digits? rest).map fun n => -(n : Int)
  | s => (natural? s).map Int.ofNat

/-- A number with an optional sign, where it can be held in a number of bits. -/
def signed? (bits : Nat) (s : List Char) : Option Int :=
  let limit : Int := Nat.pow 2 (bits - 1)
  (integer? s).filter fun n => -limit ≤ n && n < limit

end RobotMotion.Text
