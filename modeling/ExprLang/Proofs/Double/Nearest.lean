import ExprLang.Proofs.Double.Rounding
import Mathlib.Algebra.Order.Field.Rat
import Mathlib.Tactic.FieldSimp
import Mathlib.Tactic.Linarith
import Mathlib.Tactic.Positivity
import Mathlib.Tactic.Ring

-- Rounding finds the double that lies nearest to a ratio. Of two that lie as near,
-- it takes the one of even rank.

namespace ExprLang.Double

-- The magnitude in units of the least one. Infinity counts as the power of two that would
-- come next.
def units (x : Double) : Nat := x.significand * 2 ^ x.shift

def magnitude (x : Double) : ℚ := x.units / 2 ^ unitBits

-- No magnitude lies nearer to the value, and none as near if the rank is odd.
def Nearest (x : Double) (value : ℚ) : Prop :=
  ∀ other : Double, |x.magnitude - value| < |other.magnitude - value| ∨
    |x.magnitude - value| = |other.magnitude - value| ∧ (other.rank = x.rank ∨ x.rank % 2 = 0)

section Quotients

variable {num den m : Nat}

theorem le_roundDiv (hden : 0 < den) (h : m * den ≤ num) : m ≤ roundDiv num den := by
  have hfloor : m ≤ num / den := (Nat.le_div_iff_mul_le hden).mpr h
  unfold roundDiv
  dsimp only
  split <;> omega

theorem roundDiv_le (hden : 0 < den) (h : num ≤ m * den) : roundDiv num den ≤ m := by
  have hfloor : num / den ≤ m := Nat.div_le_of_le_mul (by rwa [Nat.mul_comm])
  rcases Nat.lt_or_eq_of_le hfloor with hlt | heq
  · unfold roundDiv
    dsimp only
    split <;> omega
  · have hsplit := Nat.div_add_mod num den
    rw [heq, Nat.mul_comm] at hsplit
    have hmod : num % den = 0 := by omega
    simp [roundDiv, hmod, hden, heq]

-- The quotient is off by a half at most, and by a half only if it is even.
theorem roundDiv_error (num : Nat) (hden : 0 < den) :
    2 * |(roundDiv num den * den : Int) - num| ≤ den ∧
      (2 * |(roundDiv num den * den : Int) - num| = den → roundDiv num den % 2 = 0) := by
  have hsplit : (num : Int) = (num / den : Nat) * den + (num % den : Nat) := by
    exact_mod_cast (Nat.div_add_mod' num den).symm
  have hmod : num % den < den := Nat.mod_lt _ hden
  unfold roundDiv
  dsimp only
  split
  · have hoff : |((num / den : Nat) * den : Int) - num| = (num % den : Nat) := by
      rw [hsplit, sub_add_cancel_left, abs_neg, Nat.abs_cast]
    rw [hoff]
    omega
  · have hoff : |((num / den + 1 : Nat) * den : Int) - num| = (den - num % den : Nat) := by
      have heq : ((num / den + 1 : Nat) * den : Int) - num = (den - num % den : Nat) := by
        rw [hsplit, Nat.cast_sub hmod.le]
        push_cast
        ring
      rw [heq, Nat.abs_cast]
    rw [hoff]
    omega

-- Another integer lies a whole step away from the quotient.
theorem roundDiv_nearest (num : Nat) (hden : 0 < den) (k : Nat) :
    |(roundDiv num den * den : Int) - num| < |(k * den : Int) - num| ∨
      |(roundDiv num den * den : Int) - num| = |(k * den : Int) - num| ∧
        (k = roundDiv num den ∨ roundDiv num den % 2 = 0) := by
  by_cases hk : k = roundDiv num den
  · exact .inr ⟨by rw [hk], .inl hk⟩
  · obtain ⟨herror, heven⟩ := roundDiv_error num hden
    have hstep : (den : Int) ≤ |(k * den : Int) - roundDiv num den * den| := by
      have hne : (k : Int) - roundDiv num den ≠ 0 := by omega
      have hpos := Int.one_le_abs hne
      rw [← sub_mul, abs_mul, Nat.abs_cast]
      exact le_mul_of_one_le_left (Int.natCast_nonneg den) hpos
    have htriangle := abs_sub_le (k * den : Int) num (roundDiv num den * den)
    rw [abs_sub_comm (num : Int)] at htriangle
    omega

end Quotients

section Units

variable {x y : Double} {num den shift quotient : Nat}

theorem significand_lt (x : Double) : x.significand < 2 ^ 53 := by
  unfold significand
  simp only [Nat.pow_eq]
  split <;> omega

theorem rank_eq_of_units_eq (h : x.units = y.units) : x.rank = y.rank := by
  have hshift : x.shift = y.shift := by
    rw [← x.shift_eq_log2, ← y.shift_eq_log2]
    exact congrArg (fun units => units.log2 - 52) h
  rw [units, units, hshift] at h
  have hsignificand := Nat.eq_of_mul_eq_mul_right (Nat.two_pow_pos _) h
  rw [← x.shift_mul_add_significand, ← y.shift_mul_add_significand, hshift, hsignificand]

-- A quotient in units of a power of two has 53 bits, or it is the first that has one
-- more. Only subnormal ones have fewer.
theorem units_of_rank_eq (hrank : x.rank = shift * 2 ^ 52 + quotient) (hle : quotient ≤ 2 ^ 53)
    (hlow : shift = 0 ∨ 2 ^ 52 ≤ quotient) : x.units = quotient * 2 ^ shift := by
  by_cases hcarry : quotient = 2 ^ 53
  · have hshift : x.shift = shift + 1 := by
      unfold Double.shift
      simp only [Nat.pow_eq]
      omega
    have hsignificand : x.significand = 2 ^ 52 := by
      unfold significand
      simp only [Nat.pow_eq]
      split <;> omega
    rw [units, hshift, hsignificand, hcarry]
    ring
  · have hshift : x.shift = shift := by
      unfold Double.shift
      simp only [Nat.pow_eq]
      omega
    have hsignificand : x.significand = quotient := by
      unfold significand
      simp only [Nat.pow_eq]
      split <;> omega
    rw [units, hshift, hsignificand]

theorem units_lt_of_shift_lt (h : x.shift < shift) : x.units < 2 ^ 52 * 2 ^ shift := by
  calc
    x.units < 2 ^ 53 * 2 ^ x.shift :=
      Nat.mul_lt_mul_of_pos_right x.significand_lt (Nat.two_pow_pos _)
    _ = 2 ^ 52 * 2 ^ (x.shift + 1) := by ring
    _ ≤ 2 ^ 52 * 2 ^ shift := Nat.mul_le_mul_left _ (Nat.pow_le_pow_right (by decide) h)

-- The quotient to which a ratio is rounded, and the power of two in units of which it
-- is one.
theorem exists_quotient (num : Nat) (hden : 0 < den) :
    ∃ shift quotient, (num / den).log2 - 52 = shift ∧
      roundDiv num (den * 2 ^ shift) = quotient ∧ quotient ≤ 2 ^ 53 ∧
      (shift = 0 ∨ 2 ^ 52 ≤ quotient ∧ 2 ^ 52 * 2 ^ shift * den ≤ num) := by
  generalize hshift : (num / den).log2 - 52 = shift
  have hstep : 0 < den * 2 ^ shift := Nat.mul_pos hden (Nat.two_pow_pos _)
  refine ⟨shift, _, rfl, rfl, roundDiv_le hstep ?_, ?_⟩
  · have hlt : num / den < 2 ^ (53 + shift) :=
      Nat.lt_of_lt_of_le Nat.lt_log2_self (Nat.pow_le_pow_right (by decide) (by omega))
    rw [Nat.pow_add, Nat.div_lt_iff_lt_mul hden] at hlt
    calc
      num ≤ 2 ^ 53 * 2 ^ shift * den := Nat.le_of_lt hlt
      _ = 2 ^ 53 * (den * 2 ^ shift) := by ring
  · by_cases hzero : shift = 0
    · exact .inl hzero
    · have hne : num / den ≠ 0 := by
        intro heq
        rw [heq] at hshift
        exact hzero hshift.symm
      have hle : 2 ^ (52 + shift) ≤ num / den := (Nat.le_log2 hne).mp (by omega)
      rw [Nat.pow_add, Nat.le_div_iff_mul_le hden] at hle
      refine .inr ⟨le_roundDiv hstep ?_, hle⟩
      calc
        2 ^ 52 * (den * 2 ^ shift) = 2 ^ 52 * 2 ^ shift * den := by ring
        _ ≤ num := hle

-- The same as to be nearest to the ratio, which is in the least units here.
def NearestUnits (x : Double) (num den : Nat) : Prop :=
  ∀ other : Double, |(x.units * den : Int) - num| < |(other.units * den : Int) - num| ∨
    |(x.units * den : Int) - num| = |(other.units * den : Int) - num| ∧
      (other.rank = x.rank ∨ x.rank % 2 = 0)

-- Below the ratio the greater magnitude is the nearer one.
theorem dist_lt_of_lt {lower upper : Nat} (hden : 0 < den) (hlt : lower < upper)
    (hle : upper * den ≤ num) : |(upper * den : Int) - num| < |(lower * den : Int) - num| := by
  have hmul : (lower * den : Int) < upper * den := by
    exact_mod_cast Nat.mul_lt_mul_of_pos_right hlt hden
  have hle' : (upper * den : Int) ≤ num := by exact_mod_cast hle
  rw [abs_of_nonpos (by omega), abs_of_nonpos (by omega)]
  omega

-- Magnitudes that are multiples of the unit are integers beside the quotient. The
-- others lie below all quotients of 53 bits.
theorem nearestUnits_of_rank_eq (hden : 0 < den)
    (hquotient : roundDiv num (den * 2 ^ shift) = quotient) (hle : quotient ≤ 2 ^ 53)
    (hlow : shift = 0 ∨ 2 ^ 52 ≤ quotient ∧ 2 ^ 52 * 2 ^ shift * den ≤ num)
    (hrank : x.rank = shift * 2 ^ 52 + quotient) : x.NearestUnits num den := by
  intro y
  have hstep : 0 < den * 2 ^ shift := Nat.mul_pos hden (Nat.two_pow_pos _)
  have hunits : x.units = quotient * 2 ^ shift :=
    units_of_rank_eq hrank hle (hlow.imp_right And.left)
  have hscale (k : Nat) : (((k * 2 ^ shift : Nat) : Int) * den) = k * (den * 2 ^ shift : Nat) := by
    push_cast
    ring
  by_cases hshift : y.shift < shift
  · have hbelow : 2 ^ 52 * 2 ^ shift * den ≤ num := (hlow.resolve_left (by omega)).2
    have hlt := dist_lt_of_lt hden (units_lt_of_shift_lt hshift) hbelow
    have hnearest := roundDiv_nearest num hstep (2 ^ 52)
    rw [hquotient, ← hscale, ← hscale, ← hunits] at hnearest
    omega
  · obtain ⟨more, hmore⟩ := Nat.exists_eq_add_of_le (Nat.le_of_not_lt hshift)
    have hother : y.units = y.significand * 2 ^ more * 2 ^ shift := by
      rw [units, hmore, Nat.pow_add]
      ring
    have hnearest := roundDiv_nearest num hstep (y.significand * 2 ^ more)
    rw [hquotient, ← hscale, ← hscale, ← hunits, ← hother] at hnearest
    refine hnearest.imp_right (And.imp_right (Or.imp (fun heq => ?_) fun heven => ?_))
    · exact rank_eq_of_units_eq (by rw [hother, heq, hunits])
    · omega

-- Beyond the range infinity is the greatest magnitude that there is. Its exponent is
-- left open, which is too large to be computed here.
theorem nearestUnits_infinity {top : Nat} (hden : 0 < den)
    (hrank : x.rank = top * 2 ^ 52 + 2 ^ 52) (hinfinite : x.rank = infinityRank)
    (hle : 2 ^ 52 * 2 ^ top * den ≤ num) : x.NearestUnits num den := by
  intro y
  have hunits : x.units = 2 ^ 52 * 2 ^ top :=
    units_of_rank_eq hrank (by decide) (.inr (Nat.le_refl _))
  by_cases hsame : y.rank = x.rank
  · have hy : y.units = 2 ^ 52 * 2 ^ top :=
      units_of_rank_eq (hsame.trans hrank) (by decide) (.inr (Nat.le_refl _))
    exact .inr ⟨by rw [hunits, hy], .inl hsame⟩
  · have hshift : y.shift < top := by
      have hlt : y.rank < top * 2 ^ 52 + 2 ^ 52 := by
        have hbound := y.rank_le
        omega
      have hpos : 0 < top := by
        have htop : top * 2 ^ 52 + 2 ^ 52 = infinityRank := hrank.symm.trans hinfinite
        unfold infinityRank at htop
        simp only [Nat.pow_eq] at htop
        omega
      unfold Double.shift
      simp only [Nat.pow_eq]
      omega
    rw [← hunits] at hle
    exact .inl (dist_lt_of_lt hden (hunits ▸ units_lt_of_shift_lt hshift) hle)

end Units

section Ratios

variable {num den : Nat}

-- A distance of two ratios, multiplied by both denominators.
theorem dist_mul (units num : Nat) {unit den : Nat} (hunit : 0 < unit) (hden : 0 < den) :
    |(units / unit : ℚ) - num / den| * (unit * den) =
      ((|(units * den : Int) - (num * unit : Nat)| : Int) : ℚ) := by
  have hunit' : (0 : ℚ) < unit := Nat.cast_pos.mpr hunit
  have hden' : (0 : ℚ) < den := Nat.cast_pos.mpr hden
  have hboth : (0 : ℚ) < unit * den := mul_pos hunit' hden'
  have hsub : ((units / unit : ℚ) - num / den) * (unit * den) = units * den - num * unit := by
    field_simp
  rw [← abs_of_pos hboth, ← abs_mul, hsub]
  push_cast
  rfl

theorem nearest_iff {x : Double} (hden : 0 < den) :
    x.Nearest (num / den) ↔ x.NearestUnits (num * 2 ^ unitBits) den := by
  generalize hunit : 2 ^ unitBits = unit
  have hpos : 0 < unit := by
    rw [← hunit]
    exact pow_pos (by decide) unitBits
  have hmagnitude (y : Double) : y.magnitude = y.units / unit := by
    rw [magnitude, ← hunit, Nat.cast_pow, Nat.cast_ofNat]
  have hscale : (0 : ℚ) < unit * den := mul_pos (Nat.cast_pos.mpr hpos) (Nat.cast_pos.mpr hden)
  refine forall_congr' fun y => ?_
  rw [← mul_lt_mul_iff_left₀ hscale, ← mul_left_inj' hscale.ne', hmagnitude, hmagnitude,
    dist_mul _ _ hpos hden, dist_mul _ _ hpos hden, Int.cast_lt, Int.cast_inj]

-- A ratio is rounded to the nearest double.
theorem nearest_nearestRank (negative : Bool) (num : Nat) (hden : 0 < den) :
    (ofRank negative (nearestRank num den)).Nearest (num / den) := by
  rw [nearest_iff hden]
  generalize hunits : num * 2 ^ unitBits = units
  obtain ⟨shift, quotient, hshift, hquotient, hle, hlow⟩ := exists_quotient units hden
  have hrank : nearestRank num den = shift * 2 ^ 52 + quotient := by
    simp only [nearestRank, Nat.pow_eq, hunits, hshift, hquotient]
  rw [hrank]
  by_cases hrange : shift * 2 ^ 52 + quotient ≤ infinityRank
  · exact nearestUnits_of_rank_eq hden hquotient hle hlow (Nat.min_eq_left hrange)
  · obtain ⟨top, hpositive, htop⟩ : ∃ top > 0, infinityRank = top * 2 ^ 52 + 2 ^ 52 :=
      ⟨2046, by decide, rfl⟩
    have hbeyond : top ≤ shift := by omega
    have hrank : min (shift * 2 ^ 52 + quotient) infinityRank = infinityRank :=
      Nat.min_eq_right (by omega)
    have hpow : 2 ^ 52 * 2 ^ top ≤ 2 ^ 52 * 2 ^ shift :=
      Nat.mul_le_mul_left _ (Nat.pow_le_pow_right (by decide) hbeyond)
    rcases hlow with rfl | ⟨-, hbelow⟩
    · omega
    · exact nearestUnits_infinity hden (hrank.trans htop) hrank
        (Nat.le_trans (Nat.mul_le_mul_right _ hpow) hbelow)

-- So is a decimal.
theorem nearest_ofDecimal (negative : Bool) (digits places : Nat) :
    (ofDecimal negative digits (-(places : Int))).Nearest (digits / 10 ^ places) := by
  have hten : 0 < 10 ^ places := Nat.pow_pos (by decide)
  rw [ofDecimal_eq negative digits 0 places (by omega), Nat.pow_zero, Nat.mul_one]
  exact_mod_cast nearest_nearestRank negative digits hten

end Ratios

end ExprLang.Double
