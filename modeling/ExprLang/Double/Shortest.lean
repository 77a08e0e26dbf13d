import ExprLang.Double.Rounding

-- The decimal with the fewest digits that reads back as a given double.

namespace ExprLang.Double

-- How many digits a number has. Zero has none.
def decimalLength (n : Nat) : Nat :=
  if n = 0 then 0 else decimalLength (n / 10) + 1

-- The value `digits * 10 ^ exponent`.
structure Decimal where
  digits : Nat
  exponent : Int
deriving DecidableEq

-- Where the decimal point stands, counted from before the first digit: a
-- positive value lies below 10 to this power and not below a tenth of that.
def pointPosition (num den : Nat) : Int :=
  if den ≤ num then decimalLength (num / den) else 1 - (decimalLength ((den - 1) / num) : Int)

-- A value in units of 10 to the given power.
def inUnitsOf (num den : Nat) : Int → Nat × Nat
  | .ofNat exponent => (num, den * Nat.pow 10 exponent)
  | .negSucc exponent => (num * Nat.pow 10 (exponent + 1), den)

-- The two integers around a quotient, the nearer one first. From the middle
-- both are as near, and the even one goes first.
def neighbours (num den : Nat) : List Nat :=
  let floor := num / den
  let twice := 2 * (num % den)
  if twice < den ∨ (twice = den ∧ floor % 2 = 0) then [floor, floor + 1] else [floor + 1, floor]

-- A decimal of so many digits that reads back as the magnitude of `x`.
def ofLength? (x : Double) (length : Nat) : Option Decimal :=
  let num := x.numerator
  let den := Nat.pow 2 x.denominatorBits
  let exponent := pointPosition num den - length
  let (scaled, unit) := inUnitsOf num den exponent
  ((neighbours scaled unit).find? fun digits => (ofDecimal false digits exponent).rank = x.rank).map
    (⟨·, exponent⟩)

-- All digits of the magnitude: a power of five turns the halvings into tenths.
def exact (x : Double) : Decimal :=
  ⟨x.numerator * Nat.pow 5 x.denominatorBits, -(x.denominatorBits : Int)⟩

-- Seventeen digits are always enough. Reading back is checked for each length,
-- so no proof needs that fact; the exact value would serve if they were not.
def shortest (x : Double) : Decimal :=
  ((List.range 17).findSome? fun n => x.ofLength? (n + 1)).getD x.exact

end ExprLang.Double
