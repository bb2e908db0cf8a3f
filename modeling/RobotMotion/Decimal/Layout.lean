import RobotMotion.Decimal.Shortest

/-!
# Decimal texts

How a double is written with its shortest digits. A `Layout` fixes where
positional notation ends and whether a whole number shows a decimal point:
`Layout.plain` is used in reports and instructions and never has an exponent,
`Layout.saved` is used in saved files.
-/

namespace RobotMotion.Decimal

/-- The decimal digits of a natural number. -/
def natural (n : Nat) : String := String.ofList (Nat.toDigits 10 n)

/-- The decimal digits of a whole number, with a sign where it is negative. -/
def integer (n : Int) : String := (if n < 0 then "-" else "") ++ natural n.natAbs

/-- The text that a given number of zeros makes. -/
def zeros (n : Nat) : String := String.ofList (List.replicate n '0')

/-- The choices that a decimal text leaves open. -/
structure Layout where
  /-- which of two equally near shortest decimals is written -/
  tie : Tie
  /-- the positions of the decimal point that are written without an exponent,
  counted from the first digit; all of them when absent -/
  positional : Option (Int × Int)
  /-- whether a whole number without an exponent ends in `.0` -/
  pointed : Bool

namespace Layout

/-- Never an exponent, and no point on whole numbers. -/
def plain : Layout := ⟨.away, none, false⟩

/-- Positional from `1e-5` up to below `1e16`, always with a point; a signed
exponent beyond. -/
def saved : Layout := ⟨.even, some (-4, 16), true⟩

/-- Whether a number whose decimal point stands at a position is written
without an exponent. -/
def isPositional (l : Layout) (point : Int) : Bool :=
  match l.positional with
  | none => true
  | some (least, greatest) => least ≤ point ∧ point ≤ greatest

end Layout

/-- Digits written positionally. -/
def Digits.positional (d : Digits) (pointed : Bool) : String :=
  let digits := Nat.toDigits 10 d.coefficient
  match d.exponent with
  | .ofNat k => String.ofList digits ++ zeros k ++ if pointed then ".0" else ""
  | .negSucc k =>
    let places := k + 1
    if places < digits.length then
      let whole := digits.length - places
      String.ofList (digits.take whole) ++ "." ++ String.ofList (digits.drop whole)
    else "0." ++ zeros (places - digits.length) ++ String.ofList digits

/-- Digits written with a signed exponent. -/
def Digits.scientific (d : Digits) : String :=
  let digits := Nat.toDigits 10 d.coefficient
  let power := d.exponent + digits.length - 1
  let sign := if power < 0 then "-" else "+"
  let head := String.ofList (digits.take 1)
  let tail := if digits.length ≤ 1 then "" else "." ++ String.ofList (digits.drop 1)
  head ++ tail ++ "e" ++ sign ++ natural power.natAbs

/-- The text of a double's value in a layout. -/
def Binary64.text (l : Layout) : Binary64 → String
  | .nan => "NaN"
  | .infinite negative => if negative then "-inf" else "inf"
  | .finite negative 0 _ =>
    (if negative then "-0" else "0") ++ if l.pointed then ".0" else ""
  | .finite negative mantissa exponent =>
    let d := shortest l.tie mantissa exponent
    let point := d.exponent + (Nat.toDigits 10 d.coefficient).length
    (if negative then "-" else "") ++
      if l.isPositional point then d.positional l.pointed else d.scientific

/-- The fewest digits that read back as a double, without an exponent. -/
def plain (x : Float) : String := (Binary64.ofFloat x).text .plain

/-- The text of a double in a saved file. -/
def saved (x : Float) : String := (Binary64.ofFloat x).text .saved

end RobotMotion.Decimal
