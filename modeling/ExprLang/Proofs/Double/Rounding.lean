import ExprLang.Double.Shortest
import Mathlib.Algebra.Order.Ring.Nat

-- Rounding looks at the value of a ratio or of a decimal, and not at how it is
-- written. It gives back a double from its own value, and sends to zero or to
-- infinity what is far outside the range.

namespace ExprLang.Double

section Scaling

variable {k : Nat}

theorem roundDiv_mul_mul (num den : Nat) (hk : 0 < k) :
    roundDiv (num * k) (den * k) = roundDiv num den := by
  have hfloor : num * k / (den * k) = num / den := Nat.mul_div_mul_right _ _ hk
  have htwice : 2 * (num * k % (den * k)) = 2 * (num % den) * k := by
    rw [Nat.mul_mod_mul_right, Nat.mul_assoc]
  simp only [roundDiv, hfloor, htwice, Nat.mul_lt_mul_right hk, Nat.mul_left_inj hk.ne']

theorem nearestRank_mul_mul (num den : Nat) (hk : 0 < k) :
    nearestRank (num * k) (den * k) = nearestRank num den := by
  have hunits : num * k * Nat.pow 2 unitBits = num * Nat.pow 2 unitBits * k := Nat.mul_right_comm ..
  have hden (s : Nat) : den * k * Nat.pow 2 s = den * Nat.pow 2 s * k := Nat.mul_right_comm ..
  simp only [nearestRank, hunits, hden, Nat.mul_div_mul_right _ _ hk, roundDiv_mul_mul _ _ hk]

private theorem ten_pos : 0 < 10 := by decide

-- The power of ten as a quotient of two powers.
theorem ofDecimal_eq (negative : Bool) (digits : Nat) {exponent : Int} (up down : Nat)
    (h : exponent = up - down) :
    ofDecimal negative digits exponent =
      ofRank negative (nearestRank (digits * 10 ^ up) (10 ^ down)) := by
  cases exponent with
  | ofNat e =>
    have heq : (e : Int) = up - down := h
    obtain rfl : up = e + down := by omega
    have hpow : 0 < 10 ^ down := Nat.pow_pos ten_pos
    have hscale := nearestRank_mul_mul (digits * 10 ^ e) 1 hpow
    rw [Nat.one_mul, Nat.mul_assoc, ← Nat.pow_add] at hscale
    rw [hscale]
    rfl
  | negSucc e =>
    obtain rfl : down = e + 1 + up := by omega
    rw [Nat.pow_add, nearestRank_mul_mul _ _ (Nat.pow_pos ten_pos)]
    rfl

-- Zeros behind the digits may go into the exponent.
theorem ofDecimal_mul_pow (negative : Bool) (digits zeros : Nat) (exponent : Int) :
    ofDecimal negative (digits * 10 ^ zeros) exponent =
      ofDecimal negative digits (exponent + zeros) := by
  have hmore : exponent + zeros =
      ((zeros + exponent.toNat : Nat) : Int) - ((-exponent).toNat : Int) := by omega
  rw [ofDecimal_eq negative _ _ _ (Int.toNat_sub_toNat_neg exponent).symm,
    ofDecimal_eq negative _ _ _ hmore, Nat.mul_assoc, ← Nat.pow_add]

end Scaling

section Exact

variable (x : Double)

-- In units of the least magnitude.
theorem numerator_mul_pow :
    x.numerator * 2 ^ unitBits = x.significand * 2 ^ x.shift * 2 ^ x.denominatorBits := by
  have hpow : x.shift - unitBits + unitBits = x.shift + x.denominatorBits := by
    unfold denominatorBits
    omega
  unfold numerator
  rw [Nat.pow_eq, Nat.mul_assoc, Nat.mul_assoc, ← Nat.pow_add, ← Nat.pow_add, hpow]

-- A significand below 53 bits is that of a subnormal double.
theorem shift_eq_log2 : (x.significand * 2 ^ x.shift).log2 - 52 = x.shift := by
  unfold significand shift
  simp only [Nat.pow_eq]
  by_cases hsubnormal : x.rank < 2 ^ 52
  · have hshift : x.rank / 2 ^ 52 - 1 = 0 := by omega
    rw [if_pos hsubnormal, hshift, Nat.pow_zero, Nat.mul_one]
    by_cases hzero : x.rank = 0
    · rw [hzero]
      rfl
    · have hlog := (Nat.log2_lt hzero).mpr hsubnormal
      omega
  · rw [if_neg hsubnormal]
    generalize hk : x.rank / 2 ^ 52 - 1 = k
    have hlow : 2 ^ (52 + k) ≤ (2 ^ 52 + x.rank % 2 ^ 52) * 2 ^ k := by
      rw [Nat.pow_add]
      exact Nat.mul_le_mul_right _ (by omega)
    have hhigh : (2 ^ 52 + x.rank % 2 ^ 52) * 2 ^ k < 2 ^ (52 + k + 1) := by
      rw [Nat.add_right_comm, Nat.pow_add]
      exact Nat.mul_lt_mul_of_pos_right (by omega) (Nat.two_pow_pos k)
    have hne : (2 ^ 52 + x.rank % 2 ^ 52) * 2 ^ k ≠ 0 := by
      have hpos := Nat.two_pow_pos (52 + k)
      omega
    rw [(Nat.log2_eq_iff hne).mpr ⟨hlow, hhigh⟩]
    omega

theorem shift_mul_add_significand : x.shift * 2 ^ 52 + x.significand = x.rank := by
  unfold significand shift
  simp only [Nat.pow_eq]
  split <;> omega

theorem nearestRank_self : nearestRank x.numerator (2 ^ x.denominatorBits) = x.rank := by
  have hbits : 0 < 2 ^ x.denominatorBits := Nat.two_pow_pos _
  have hround : roundDiv (x.significand * 2 ^ x.shift * 2 ^ x.denominatorBits)
      (2 ^ x.denominatorBits * 2 ^ x.shift) = x.significand := by
    rw [Nat.mul_assoc, Nat.mul_comm (2 ^ x.denominatorBits)]
    exact roundDiv_mul_right _ (Nat.mul_pos (Nat.two_pow_pos _) hbits)
  simp only [nearestRank, Nat.pow_eq, numerator_mul_pow, Nat.mul_div_cancel _ hbits,
    shift_eq_log2, hround, shift_mul_add_significand]

theorem rank_exact : (ofDecimal false x.exact.digits x.exact.exponent).rank = x.rank := by
  have hten : 10 ^ x.denominatorBits = 2 ^ x.denominatorBits * 5 ^ x.denominatorBits :=
    Nat.mul_pow 2 5 _
  rw [ofDecimal_eq false _ 0 x.denominatorBits (by simp [exact])]
  simp only [exact, Nat.pow_eq, Nat.pow_zero, Nat.mul_one, hten]
  rw [nearestRank_mul_mul _ _ (Nat.pow_pos (by decide)), nearestRank_self]
  exact Nat.min_eq_left x.rank_le

-- Whatever length was settled on, its decimal has been read back.
theorem rank_shortest : (ofDecimal false x.shortest.digits x.shortest.exponent).rank = x.rank := by
  unfold shortest
  cases hfound : (List.range 17).findSome? fun n => x.ofLength? (n + 1) with
  | none => exact x.rank_exact
  | some decimal =>
    obtain ⟨n, -, hlength⟩ := List.exists_of_findSome?_eq_some hfound
    simp only [ofLength?, Option.map_eq_some_iff] at hlength
    obtain ⟨digits, hfind, rfl⟩ := hlength
    simpa using List.find?_some hfind

-- The sign goes its own way.
theorem ofDecimal_eq_of_rank {digits : Nat} {exponent : Int}
    (h : (ofDecimal false digits exponent).rank = x.rank) :
    ofDecimal x.negative digits exponent = x := by
  cases exponent <;> cases x <;> simpa [ofDecimal, ofRank] using h

end Exact

section Range

variable {num den k m n : Nat}

theorem two_pow_le_ten_pow (h : m ≤ 3 * n) : 2 ^ m ≤ 10 ^ n :=
  calc
    2 ^ m ≤ 2 ^ (3 * n) := Nat.pow_le_pow_right (by decide) h
    _ = (2 ^ 3) ^ n := Nat.pow_mul 2 3 n
    _ ≤ 10 ^ n := Nat.pow_le_pow_left (by decide) n

theorem roundDiv_eq_zero (h : 2 * num < den) : roundDiv num den = 0 := by
  have hfloor : num / den = 0 := Nat.div_eq_of_lt (by omega)
  have hmod : num % den = num := Nat.mod_eq_of_lt (by omega)
  simp [roundDiv, hfloor, hmod, h]

-- In units of any power of two a quotient is small if it is so small a power of ten.
theorem two_mul_mul_pow_lt (hden : 0 < den) (h : num * 10 ^ n ≤ den) (hm : 2 + m ≤ 3 * n) :
    2 * (num * 2 ^ m) < den := by
  by_cases hnum : num = 0
  · rwa [hnum, Nat.zero_mul]
  have hpos : 0 < num * 2 ^ m := Nat.mul_pos (Nat.pos_of_ne_zero hnum) (Nat.two_pow_pos m)
  have hle : num * 2 ^ (2 + m) ≤ den :=
    Nat.le_trans (Nat.mul_le_mul_left num (two_pow_le_ten_pow hm)) h
  rw [Nat.pow_add, Nat.mul_left_comm] at hle
  omega

-- And large if it is so large a power of ten.
theorem le_log2_mul_pow_div (hden : 0 < den) (h : den * 10 ^ n ≤ num) (hk : k ≤ 3 * n) :
    k + m ≤ (num * Nat.pow 2 m / den).log2 := by
  have hunits : 2 ^ (k + m) ≤ num * Nat.pow 2 m / den := by
    rw [Nat.pow_eq, Nat.le_div_iff_mul_le hden, Nat.pow_add, Nat.mul_right_comm]
    refine Nat.mul_le_mul_right _ (Nat.le_trans ?_ h)
    rw [Nat.mul_comm]
    exact Nat.mul_le_mul_left den (two_pow_le_ten_pow hk)
  have hne : num * Nat.pow 2 m / den ≠ 0 :=
    Nat.ne_of_gt (Nat.lt_of_lt_of_le (Nat.two_pow_pos _) hunits)
  exact (Nat.le_log2 hne).mpr hunits

-- The two ends of the range. Only here does it matter how many units make one.
theorem nearestRank_eq_zero (hden : 0 < den) (h : num * 10 ^ 400 ≤ den) :
    nearestRank num den = 0 := by
  have hsmall := two_mul_mul_pow_lt (m := unitBits) hden h (by decide)
  have hfloor : num * 2 ^ unitBits / den = 0 := Nat.div_eq_of_lt (by omega)
  simp only [nearestRank, Nat.pow_eq, hfloor, Nat.log2_zero, Nat.zero_sub, Nat.zero_mul,
    Nat.zero_add, Nat.pow_zero, Nat.mul_one, roundDiv_eq_zero hsmall]

theorem nearestRank_zero (hden : 0 < den) : nearestRank 0 den = 0 := by
  refine nearestRank_eq_zero hden ?_
  rw [Nat.zero_mul]
  exact Nat.zero_le _

theorem infinityRank_le_nearestRank (hden : 0 < den) (h : den * 10 ^ 400 ≤ num) :
    infinityRank ≤ nearestRank num den := by
  have hlog := le_log2_mul_pow_div (k := 1200) (m := unitBits) hden h (by decide)
  have hbits : 2047 + 52 ≤ 1200 + unitBits := by decide
  have hshift : 2047 ≤ Nat.log2 (num * Nat.pow 2 unitBits / den) - 52 :=
    Nat.le_sub_of_add_le (Nat.le_trans hbits hlog)
  unfold nearestRank
  exact Nat.le_add_right_of_le (Nat.mul_le_mul_right _ hshift)

end Range

end ExprLang.Double
