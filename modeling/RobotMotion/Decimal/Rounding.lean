/-!
# Rounding a quotient

A quotient of natural numbers goes to the nearest whole number. What is left to
choose is the side of an exact tie: `Tie.even` takes the even neighbour,
`Tie.away` the larger one. The result is never further than half a unit from
the quotient (`roundDiv_le`, `le_roundDiv`).
-/

namespace RobotMotion.Decimal

/-- The neighbour that a number exactly between two whole numbers goes to. -/
inductive Tie where
  /-- the even neighbour -/
  | even
  /-- the neighbour further from zero -/
  | away
deriving DecidableEq, Repr

/-- The whole number nearest to `num / den`. -/
def roundDiv (tie : Tie) (num den : Nat) : Nat :=
  let whole := num / den
  let rest := num % den
  if 2 * rest < den then whole
  else if den < 2 * rest then whole + 1
  else match tie with
    | .even => if whole % 2 = 0 then whole else whole + 1
    | .away => whole + 1

/-- **Never more than half a unit above.** -/
theorem roundDiv_le (tie : Tie) (num : Nat) {den : Nat} (h : 0 < den) :
    2 * (roundDiv tie num den * den) ≤ 2 * num + den := by
  have split := Nat.div_add_mod num den
  have small := Nat.mod_lt num h
  rw [Nat.mul_comm] at split
  have grow : (num / den + 1) * den = num / den * den + den := Nat.succ_mul ..
  simp only [roundDiv]
  split
  · omega
  · split
    · omega
    · cases tie <;> simp only <;> (try split) <;> omega

/-- **Never more than half a unit below.** -/
theorem le_roundDiv (tie : Tie) (num : Nat) {den : Nat} (h : 0 < den) :
    2 * num ≤ 2 * (roundDiv tie num den * den) + den := by
  have split := Nat.div_add_mod num den
  have small := Nat.mod_lt num h
  rw [Nat.mul_comm] at split
  have grow : (num / den + 1) * den = num / den * den + den := Nat.succ_mul ..
  simp only [roundDiv]
  split
  · omega
  · split
    · omega
    · cases tie <;> simp only <;> (try split) <;> omega

end RobotMotion.Decimal
