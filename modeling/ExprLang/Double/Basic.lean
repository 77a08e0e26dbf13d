-- Numbers in the binary64 format, all but NaN.

namespace ExprLang

-- The rank of infinity: one for each magnitude below it.
def Double.infinityRank : Nat := 2047 * Nat.pow 2 52

-- `rank` is the place of the magnitude among all magnitudes in increasing
-- order: zero, the 2 ^ 52 - 1 subnormal ones, then 2 ^ 52 for each exponent.
structure Double where
  negative : Bool
  rank : Nat
  rank_le : rank ≤ Double.infinityRank
deriving DecidableEq

namespace Double

-- A rank past the end is infinity.
def ofRank (negative : Bool) (rank : Nat) : Double :=
  ⟨negative, min rank infinityRank, Nat.min_le_right _ _⟩

instance : Inhabited Double := ⟨ofRank false 0⟩

def isInfinite (x : Double) : Bool := x.rank = infinityRank

-- Two zeros are the same number, whatever their signs.
def same (x y : Double) : Bool :=
  x.rank = y.rank && (x.negative = y.negative || x.rank = 0)

-- The least magnitude above zero is 2 ^ -unitBits.
def unitBits : Nat := 1074

-- The magnitude is `significand * 2 ^ shift` in units of that.
def significand (x : Double) : Nat :=
  if x.rank < Nat.pow 2 52 then x.rank else Nat.pow 2 52 + x.rank % Nat.pow 2 52

def shift (x : Double) : Nat := x.rank / Nat.pow 2 52 - 1

-- Numerator and denominator of the magnitude; the denominator is a power of two.
def numerator (x : Double) : Nat := x.significand * Nat.pow 2 (x.shift - unitBits)

def denominatorBits (x : Double) : Nat := unitBits - x.shift

theorem same_refl (x : Double) : x.same x := by simp [same]

theorem same_comm (x y : Double) : x.same y = y.same x := by
  rw [Bool.eq_iff_iff]
  simp only [same, Bool.and_eq_true, Bool.or_eq_true, decide_eq_true_eq]
  constructor <;> rintro ⟨h, hs | hz⟩ <;> simp_all

end Double

end ExprLang
