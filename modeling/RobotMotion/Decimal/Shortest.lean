import RobotMotion.Decimal.Binary64

/-!
# Shortest digits

The decimal `coefficient · 10 ^ exponent` with the fewest digits among those that
read back as a given double, and the nearest of these. Everything is decided on
natural numbers: the numbers that read back as the double form an interval, and
on each decimal grid only the two neighbours of the double need to be tried.
-/

namespace RobotMotion.Decimal

/-- A positive decimal number `coefficient · 10 ^ exponent`. -/
structure Digits where
  coefficient : Nat
  exponent : Int
deriving DecidableEq, Repr

/-- The numbers that read back as one double, as fractions over a common
`unit`: those from `below` to `above`, the ends included when `closed`. -/
structure Basin where
  below : Nat
  value : Nat
  above : Nat
  unit : Nat
  closed : Bool
deriving Repr

namespace Basin

/-- The basin of the double `mantissa · 2 ^ exponent`. The gap to the next
smaller double halves below a power of two. -/
def ofBinary (mantissa : Nat) (exponent : Int) : Basin :=
  let scale (n : Nat) := binaryNumerator n (exponent - 2)
  let gap := if mantissa = Nat.pow 2 52 ∧ -1074 < exponent then 1 else 2
  { below := scale (4 * mantissa - gap)
    value := scale (4 * mantissa)
    above := scale (4 * mantissa + 2)
    unit := binaryDenominator (exponent - 2)
    closed := mantissa % 2 = 0 }

/-- Whether `10 ^ k` is at most the value. -/
def atLeastPower (b : Basin) (k : Int) : Bool :=
  b.unit * Nat.pow 10 k.toNat ≤ b.value * Nat.pow 10 (-k).toNat

/-- The greatest `k` with `10 ^ k` at most the value. The bit lengths leave
three candidates. -/
def decade (b : Basin) : Int :=
  let guess := ((b.value.log2 : Int) - b.unit.log2) * 30103 / 100000
  if b.atLeastPower (guess + 1) then guess + 1
  else if b.atLeastPower guess then guess
  else guess - 1

/-- Whether `n · 10 ^ k` lies in the basin. -/
def holds (b : Basin) (k : Int) (n : Nat) : Bool :=
  let point := n * b.unit * Nat.pow 10 k.toNat
  let low := b.below * Nat.pow 10 (-k).toNat
  let high := b.above * Nat.pow 10 (-k).toNat
  if b.closed then low ≤ point ∧ point ≤ high else low < point ∧ point < high

/-- The multiple of `10 ^ k` in the basin that is nearest to the value, if the
basin holds one. -/
def nearestOnGrid? (b : Basin) (tie : Tie) (k : Int) : Option Nat :=
  let num := b.value * Nat.pow 10 (-k).toNat
  let den := b.unit * Nat.pow 10 k.toNat
  let low := num / den
  match b.holds k low, b.holds k (low + 1) with
  | true, true => some (roundDiv tie num den)
  | true, false => some low
  | false, true => some (low + 1)
  | false, false => none

end Basin

/-- The fewest digits that read back as the double `mantissa · 2 ^ exponent`,
nearest to it among those. The coarsest grid that can meet the basin is that of
the next power of ten above the value, and seventeen digits always suffice. -/
def shortest (tie : Tie) (mantissa : Nat) (exponent : Int) : Digits :=
  let b := Basin.ofBinary mantissa exponent
  let top := b.decade + 1
  let onGrid (i : Nat) : Option Digits :=
    (b.nearestOnGrid? tie (top - i)).map (Digits.mk · (top - i))
  ((List.range 18).findSome? onGrid).getD ⟨mantissa * Nat.pow 2 exponent.toNat, 0⟩

end RobotMotion.Decimal
