import ExprLang.Double.Basic

-- From a ratio or a decimal to the nearest double.

namespace ExprLang.Double

-- The integer nearest to a quotient. A half goes to the even neighbour.
def roundDiv (num den : Nat) : Nat :=
  let floor := num / den
  let twice := 2 * (num % den)
  if twice < den ∨ (twice = den ∧ floor % 2 = 0) then floor else floor + 1

-- Whole quotients are not rounded.
theorem roundDiv_mul_right (n : Nat) {den : Nat} (h : 0 < den) : roundDiv (n * den) den = n := by
  simp [roundDiv, Nat.mul_div_cancel n h, h]

-- A magnitude keeps 53 bits, but none below the least one. Rounding up to the next
-- power of two carries into the exponent, as the ranks are consecutive.
def nearestRank (num den : Nat) : Nat :=
  let units := num * Nat.pow 2 unitBits
  let shift := Nat.log2 (units / den) - 52
  shift * Nat.pow 2 52 + roundDiv units (den * Nat.pow 2 shift)

-- The number `digits * 10 ^ exponent`, rounded.
def ofDecimal (negative : Bool) (digits : Nat) : Int → Double
  | .ofNat exponent => ofRank negative (nearestRank (digits * Nat.pow 10 exponent) 1)
  | .negSucc exponent => ofRank negative (nearestRank digits (Nat.pow 10 (exponent + 1)))

end ExprLang.Double
