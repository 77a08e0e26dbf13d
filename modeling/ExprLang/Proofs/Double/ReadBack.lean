import ExprLang.Double.Numeral
import ExprLang.Proofs.Double.Rounding
import ExprLang.Proofs.Text.Joined
import Mathlib.Data.List.Induction
import Mathlib.Data.List.TakeWhile
import Mathlib.Tactic.Ring

-- The text of a double reads back as that double, so no two have the same text.
-- It is made of digits and of a few signs and letters.

namespace ExprLang.Double

section Digits

variable {n : Nat}

-- What the characters of a numeral are worth, if they are digits.
def valueOf (digits : List Char) : Nat := ofDigits (digits.map (·.toNat - 48))

theorem ofDigits_append (first second : List Nat) :
    ofDigits (first ++ second) = ofDigits first * 10 ^ second.length + ofDigits second := by
  induction second using List.reverseRecOn with
  | nil => simp [ofDigits]
  | append_singleton second digit ih =>
    have hlast (digits : List Nat) :
        ofDigits (digits ++ [digit]) = 10 * ofDigits digits + digit := by simp [ofDigits]
    rw [← List.append_assoc, hlast, hlast, ih, List.length_append, List.length_singleton,
      Nat.pow_succ]
    ring

theorem valueOf_append (first second : List Char) :
    valueOf (first ++ second) = valueOf first * 10 ^ second.length + valueOf second := by
  rw [valueOf, List.map_append, ofDigits_append, List.length_map]
  rfl

theorem valueOf_zeros (n : Nat) : valueOf (List.replicate n '0') = 0 := by
  induction n with
  | zero => rfl
  | succ n ih =>
    rw [List.replicate_succ', valueOf_append, ih]
    rfl

theorem digitChar_spec :
    ∀ d < 10, (Nat.digitChar d).isDigit = true ∧ (Nat.digitChar d).toNat - 48 = d := by
  decide

theorem valueOf_decimalDigits (n : Nat) : valueOf (decimalDigits n) = n := by
  fun_induction decimalDigits n with
  | case1 => rfl
  | case2 n hn ih =>
    have hlast : valueOf [Nat.digitChar (n % 10)] = n % 10 := by
      have hdigit := (digitChar_spec (n % 10) (Nat.mod_lt _ (by decide))).2
      simpa [valueOf, ofDigits] using hdigit
    rw [valueOf_append, ih, hlast, List.length_singleton, Nat.pow_one]
    omega

theorem isDigit_decimalDigits (n : Nat) : ∀ c ∈ decimalDigits n, c.isDigit = true := by
  fun_induction decimalDigits n with
  | case1 => simp
  | case2 n hn ih =>
    intro c hc
    rcases List.mem_append.mp hc with hc | hc
    · exact ih c hc
    · obtain rfl := List.mem_singleton.mp hc
      exact (digitChar_spec (n % 10) (Nat.mod_lt _ (by decide))).1

theorem lt_pow_decimalLength (n : Nat) : n < 10 ^ decimalLength n := by
  fun_induction decimalLength n with
  | case1 => decide
  | case2 n hn ih =>
    rw [Nat.pow_succ]
    omega

theorem pow_decimalLength_le (hn : n ≠ 0) : 10 ^ decimalLength n ≤ 10 * n := by
  fun_induction decimalLength n with
  | case1 => contradiction
  | case2 n _ ih =>
    by_cases hmore : n / 10 = 0
    · rw [hmore, decimalLength, if_pos rfl]
      omega
    · have hle := ih hmore
      rw [Nat.pow_succ]
      omega

-- How many digits a number has tells between which powers of ten it lies.
theorem mul_pow_mul_pow_le {up down far : Nat} (h : decimalLength n + up + far ≤ down) :
    n * 10 ^ up * 10 ^ far ≤ 10 ^ down :=
  calc
    n * 10 ^ up * 10 ^ far ≤ 10 ^ decimalLength n * 10 ^ up * 10 ^ far :=
      Nat.mul_le_mul_right _ (Nat.mul_le_mul_right _ (Nat.le_of_lt (lt_pow_decimalLength n)))
    _ = 10 ^ (decimalLength n + up + far) := by rw [Nat.pow_add, Nat.pow_add]
    _ ≤ 10 ^ down := Nat.pow_le_pow_right (by decide) h

theorem pow_mul_pow_le_mul_pow {up down far : Nat} (hn : n ≠ 0)
    (h : down + far < decimalLength n + up) : 10 ^ down * 10 ^ far ≤ n * 10 ^ up := by
  have hten : 0 < 10 := by decide
  refine Nat.le_of_mul_le_mul_left ?_ hten
  calc
    10 * (10 ^ down * 10 ^ far) = 10 ^ (down + far + 1) := by ring
    _ ≤ 10 ^ (decimalLength n + up) := Nat.pow_le_pow_right (by decide) h
    _ = 10 ^ decimalLength n * 10 ^ up := Nat.pow_add ..
    _ ≤ 10 * n * 10 ^ up := Nat.mul_le_mul_right _ (pow_decimalLength_le hn)
    _ = 10 * (n * 10 ^ up) := Nat.mul_assoc ..

end Digits

section Reading

variable {whole fraction rest : List Char}

-- Nothing that goes on with the digits before it.
def EndsDigits (rest : List Char) : Prop := ∀ c ∈ rest.head?, c.isDigit = false

theorem endsDigits_nil : EndsDigits [] := by simp [EndsDigits]

theorem endsDigits_point (rest : List Char) : EndsDigits ('.' :: rest) := by simp [EndsDigits]

theorem endsDigits_mark (rest : List Char) : EndsDigits ('e' :: rest) := by simp [EndsDigits]

theorem splitDigits_append {digits : List Char} (hdigits : ∀ c ∈ digits, c.isDigit = true)
    (hrest : EndsDigits rest) :
    splitDigits (digits ++ rest) = (digits.map (·.toNat - 48), rest) := by
  obtain ⟨htake, hdrop⟩ := Text.span_append hdigits hrest
  rw [splitDigits, htake, hdrop]

theorem readExponent?_digits {digits : List Char} (hdigits : ∀ c ∈ digits, c.isDigit = true)
    (hne : digits ≠ []) :
    readExponent? ('e' :: '-' :: digits) = some (-(valueOf digits : Int)) ∧
      readExponent? ('e' :: '+' :: digits) = some (valueOf digits : Int) := by
  have hsplit := splitDigits_append hdigits endsDigits_nil
  rw [List.append_nil] at hsplit
  obtain ⟨c, digits, rfl⟩ := List.exists_cons_of_ne_nil hne
  constructor <;> simp only [readExponent?, hsplit, List.map_cons] <;> rfl

theorem valueOf_append_zeros (digits : List Char) (n : Nat) :
    valueOf (digits ++ List.replicate n '0') = valueOf digits * 10 ^ n := by
  rw [valueOf_append, valueOf_zeros, Nat.add_zero, List.length_replicate]

theorem isDigit_append_zeros {digits : List Char} (n : Nat)
    (hdigits : ∀ c ∈ digits, c.isDigit = true) :
    ∀ c ∈ digits ++ List.replicate n '0', c.isDigit = true := by
  intro c hc
  rcases List.mem_append.mp hc with hc | hc
  · exact hdigits c hc
  · rw [List.eq_of_mem_replicate hc]
    rfl

theorem isDigit_zeros_append {digits : List Char} (n : Nat)
    (hdigits : ∀ c ∈ digits, c.isDigit = true) :
    ∀ c ∈ List.replicate n '0' ++ digits, c.isDigit = true := by
  intro c hc
  rcases List.mem_append.mp hc with hc | hc
  · rw [List.eq_of_mem_replicate hc]
    rfl
  · exact hdigits c hc

theorem valueOf_zeros_append (n : Nat) (digits : List Char) :
    valueOf (List.replicate n '0' ++ digits) = valueOf digits := by
  rw [valueOf_append, valueOf_zeros, Nat.zero_mul, Nat.zero_add]

-- A sign and the digits of an exponent, a short one filled up with zeros.
theorem exponentText_spec (exponent : Int) : ∃ digits,
    exponentText exponent = (if exponent < 0 then '-' else '+') :: digits ∧
      digits ≠ [] ∧ (∀ c ∈ digits, c.isDigit = true) ∧ valueOf digits = exponent.natAbs := by
  refine ⟨List.replicate (2 - (decimalDigits exponent.natAbs).length) '0' ++
    decimalDigits exponent.natAbs, rfl, ?_,
    isDigit_zeros_append _ (isDigit_decimalDigits _), ?_⟩
  · rw [← List.length_pos_iff, List.length_append, List.length_replicate]
    omega
  · rw [valueOf_zeros_append, valueOf_decimalDigits]

theorem readExponent?_exponentText (exponent : Int) :
    readExponent? ('e' :: exponentText exponent) = some exponent := by
  obtain ⟨digits, htext, hne, hdigits, hvalue⟩ := exponentText_spec exponent
  obtain ⟨hminus, hplus⟩ := readExponent?_digits hdigits hne
  rw [htext]
  by_cases hneg : exponent < 0
  · rw [if_pos hneg, hminus, hvalue]
    exact congrArg some (by omega)
  · rw [if_neg hneg, hplus, hvalue]
    exact congrArg some (by omega)

-- Far from the range of doubles the power of ten makes no difference.
theorem ofNumeral_eq (negative : Bool) (digits : Nat) (exponent : Int) :
    ofNumeral negative digits exponent = ofDecimal negative digits exponent := by
  have hten : 0 < 10 ^ (-exponent).toNat := Nat.pow_pos (by decide)
  rw [ofNumeral, ofDecimal_eq negative digits _ _ (Int.toNat_sub_toNat_neg exponent).symm]
  by_cases hzero : digits = 0
  · rw [if_pos (.inl hzero), hzero, Nat.zero_mul, nearestRank_zero hten]
  split_ifs with hsmall hlarge
  · have hlow : decimalLength digits + exponent.toNat + 400 ≤ (-exponent).toNat := by omega
    rw [nearestRank_eq_zero hten (mul_pow_mul_pow_le hlow)]
  · have hhigh : (-exponent).toNat + 400 < decimalLength digits + exponent.toNat := by omega
    have hrank := infinityRank_le_nearestRank hten (pow_mul_pow_le_mul_pow hzero hhigh)
    simp only [ofRank, Nat.min_eq_right hrank, Nat.min_self]
  · rfl

-- A text that begins with a digit is not the name of infinity.
theorem append_not_infinity (hwhole : ∀ c ∈ whole, c.isDigit = true) (hne : whole ≠ []) :
    ¬(whole ++ rest = ['i', 'n', 'f'] ∨ whole ++ rest = "infinity".toList) := by
  obtain ⟨c, digits, rfl⟩ := List.exists_cons_of_ne_nil hne
  have hdigit := hwhole c List.mem_cons_self
  rintro (h | h)
  · obtain rfl := (List.cons.inj h).1
    cases hdigit
  · obtain rfl : c = 'i' := (List.cons.inj h).1
    cases hdigit

theorem readMagnitude?_point (negative : Bool) (hwhole : ∀ c ∈ whole, c.isDigit = true)
    (hne : ¬(whole = [] ∧ fraction = [])) (hfraction : ∀ c ∈ fraction, c.isDigit = true)
    (hrest : EndsDigits rest) :
    readMagnitude? negative (whole ++ '.' :: (fraction ++ rest)) =
      (readExponent? rest).map fun exponent =>
        ofDecimal negative (valueOf (whole ++ fraction)) (exponent - fraction.length) := by
  have hname : ¬(whole ++ '.' :: (fraction ++ rest) = ['i', 'n', 'f'] ∨
      whole ++ '.' :: (fraction ++ rest) = "infinity".toList) := by
    have hpoint : '.' ∈ whole ++ '.' :: (fraction ++ rest) := by simp
    rintro (h | h) <;> exact absurd (h ▸ hpoint) (by decide)
  rw [readMagnitude?, if_neg hname, splitDigits_append hwhole (endsDigits_point _)]
  simp only [splitDigits_append hfraction hrest, List.map_eq_nil_iff, hne, if_false,
    ofNumeral_eq, ← List.map_append, List.length_map]
  rfl

theorem readMagnitude?_unpointed (negative : Bool) (hwhole : ∀ c ∈ whole, c.isDigit = true)
    (hne : whole ≠ []) (hrest : EndsDigits rest) (hpoint : rest.head? ≠ some '.') :
    readMagnitude? negative (whole ++ rest) =
      (readExponent? rest).map (ofDecimal negative (valueOf whole)) := by
  rw [readMagnitude?, if_neg (append_not_infinity hwhole hne), splitDigits_append hwhole hrest]
  dsimp only
  split
  · exact absurd List.head?_cons hpoint
  · simp [hne, ofNumeral_eq, valueOf]

end Reading

section Layouts

variable {core : List Char} {point : Int}

theorem readMagnitude?_scientific (negative : Bool) (hcore : ∀ c ∈ core, c.isDigit = true)
    (hne : core ≠ []) (hpoint : point < -3 ∨ 16 < point) :
    readMagnitude? negative (layout core point) =
      some (ofDecimal negative (valueOf core) (point - core.length)) := by
  unfold layout
  rw [if_pos hpoint]
  match core, hne with
  | [d], hne =>
    have hread := readMagnitude?_unpointed negative hcore hne
      (endsDigits_mark (exponentText (point - 1))) (by simp)
    rw [readExponent?_exponentText] at hread
    exact hread
  | d :: e :: more, _ =>
    have hfirst : ∀ c ∈ [d], c.isDigit = true := fun c hc => hcore c (by simp_all)
    have hmore : ∀ c ∈ e :: more, c.isDigit = true := fun c hc => hcore c (by simp_all)
    have hread := readMagnitude?_point negative hfirst (by simp) hmore
      (endsDigits_mark (exponentText (point - 1)))
    rw [readExponent?_exponentText] at hread
    refine hread.trans (congrArg (fun exponent => some (ofDecimal negative _ exponent)) ?_)
    simp only [List.length_cons]
    omega

theorem readMagnitude?_small (negative : Bool) (hcore : ∀ c ∈ core, c.isDigit = true)
    (hpoint : ¬(point < -3 ∨ 16 < point)) (hsmall : point ≤ 0) :
    readMagnitude? negative (layout core point) =
      some (ofDecimal negative (valueOf core) (point - core.length)) := by
  have hzero : ∀ c ∈ ['0'], c.isDigit = true := List.forall_mem_singleton.mpr rfl
  have hfraction := isDigit_zeros_append (-point).toNat hcore
  have hread := readMagnitude?_point negative hzero (by simp) hfraction endsDigits_nil
  have hvalue : valueOf (['0'] ++ (List.replicate (-point).toNat '0' ++ core)) = valueOf core := by
    rw [valueOf_append, valueOf_zeros_append]
    simp [valueOf, ofDigits]
  rw [List.append_nil, hvalue] at hread
  unfold layout
  rw [if_neg hpoint, if_pos hsmall]
  refine hread.trans (congrArg (fun exponent => some (ofDecimal negative _ exponent)) ?_)
  simp only [List.length_append, List.length_replicate]
  omega

theorem readMagnitude?_whole (negative : Bool) (hcore : ∀ c ∈ core, c.isDigit = true)
    (hne : core ≠ []) (hpoint : ¬(point < -3 ∨ 16 < point)) (hlarge : ¬point ≤ 0)
    (hlength : core.length ≤ point.toNat) :
    readMagnitude? negative (layout core point) =
      some (ofDecimal negative (valueOf core) (point - core.length)) := by
  generalize hzeros : point.toNat - core.length = zeros
  have hwhole := isDigit_append_zeros zeros hcore
  have hzero : ∀ c ∈ ['0'], c.isDigit = true := List.forall_mem_singleton.mpr rfl
  have hread := readMagnitude?_point negative hwhole (by simp [hne]) hzero endsDigits_nil
  -- the zero behind the point is one more at the end of the digits
  have hdigits : core ++ List.replicate zeros '0' ++ ['0'] =
      core ++ List.replicate (zeros + 1) '0' := by
    rw [List.append_assoc, List.replicate_succ']
  rw [hdigits, valueOf_append_zeros] at hread
  unfold layout
  rw [if_neg hpoint, if_neg hlarge]
  simp only [if_pos hlength, hzeros]
  refine hread.trans ?_
  simp only [readExponent?, Option.map_some, ofDecimal_mul_pow, List.length_singleton]
  exact congrArg (fun exponent => some (ofDecimal negative _ exponent)) (by omega)

theorem readMagnitude?_middle (negative : Bool) (hcore : ∀ c ∈ core, c.isDigit = true)
    (hpoint : ¬(point < -3 ∨ 16 < point)) (hlarge : ¬point ≤ 0)
    (hlength : ¬core.length ≤ point.toNat) :
    readMagnitude? negative (layout core point) =
      some (ofDecimal negative (valueOf core) (point - core.length)) := by
  have hwhole : ∀ c ∈ core.take point.toNat, c.isDigit = true :=
    fun c hc => hcore c (List.mem_of_mem_take hc)
  have hfraction : ∀ c ∈ core.drop point.toNat, c.isDigit = true :=
    fun c hc => hcore c (List.mem_of_mem_drop hc)
  have hne : core.take point.toNat ≠ [] := by
    rw [← List.length_pos_iff, List.length_take]
    omega
  have hread := readMagnitude?_point negative hwhole (fun h => hne h.1) hfraction endsDigits_nil
  rw [List.append_nil, List.take_append_drop] at hread
  unfold layout
  rw [if_neg hpoint, if_neg hlarge]
  simp only [if_neg hlength]
  refine hread.trans (congrArg (fun exponent => some (ofDecimal negative _ exponent)) ?_)
  rw [List.length_drop]
  omega

-- However the digits are laid out, they are read as they were meant.
theorem readMagnitude?_layout (negative : Bool) (hcore : ∀ c ∈ core, c.isDigit = true)
    (hne : core ≠ []) (point : Int) :
    readMagnitude? negative (layout core point) =
      some (ofDecimal negative (valueOf core) (point - core.length)) := by
  by_cases hpoint : point < -3 ∨ 16 < point
  · exact readMagnitude?_scientific negative hcore hne hpoint
  by_cases hsmall : point ≤ 0
  · exact readMagnitude?_small negative hcore hpoint hsmall
  by_cases hlength : core.length ≤ point.toNat
  · exact readMagnitude?_whole negative hcore hne hpoint hsmall hlength
  · exact readMagnitude?_middle negative hcore hpoint hsmall hlength

theorem exists_digit_layout (hcore : ∀ c ∈ core, c.isDigit = true) (hne : core ≠ [])
    (point : Int) : ∃ c rest, layout core point = c :: rest ∧ c.isDigit = true := by
  obtain ⟨c, more, rfl⟩ := List.exists_cons_of_ne_nil hne
  have hc := hcore c List.mem_cons_self
  unfold layout
  split_ifs with hpoint hsmall
  · cases more <;> exact ⟨c, _, rfl, hc⟩
  · exact ⟨'0', _, rfl, rfl⟩
  · obtain ⟨n, hn⟩ : ∃ n, point.toNat = n + 1 := ⟨point.toNat - 1, by omega⟩
    dsimp only
    split_ifs
    · exact ⟨c, _, rfl, hc⟩
    · rw [hn]
      exact ⟨c, _, rfl, hc⟩

-- A digit, or a mark of those between digits.
def IsNumeral (c : Char) : Prop := c.isDigit = true ∨ c ∈ ['.', 'e', '+', '-']

theorem isNumeral_exponentText (exponent : Int) : ∀ c ∈ exponentText exponent, IsNumeral c := by
  obtain ⟨digits, htext, -, hdigits, -⟩ := exponentText_spec exponent
  rw [htext]
  intro c hc
  rcases List.mem_cons.mp hc with rfl | hc
  · split <;> simp [IsNumeral]
  · exact .inl (hdigits c hc)

theorem isNumeral_layout (hcore : ∀ c ∈ core, c.isDigit = true) (point : Int) :
    ∀ c ∈ layout core point, IsNumeral c := by
  have hdigits : ∀ c ∈ core, IsNumeral c := fun c hc => .inl (hcore c hc)
  have hexponent := isNumeral_exponentText (point - 1)
  have hpoint : IsNumeral '.' := .inr (by decide)
  have hmark : IsNumeral 'e' := .inr (by decide)
  have hzero : IsNumeral '0' := .inl rfl
  have hzeros (n : Nat) : ∀ c ∈ List.replicate n '0', IsNumeral c := by
    intro c hc
    rwa [List.eq_of_mem_replicate hc]
  unfold layout
  split_ifs
  · match core with
    | [] => simp
    | [d] =>
      simp only [List.forall_mem_cons] at hdigits ⊢
      exact ⟨hdigits.1, hmark, hexponent⟩
    | d :: e :: more =>
      simp only [List.cons_append, List.forall_mem_cons, List.forall_mem_append] at hdigits ⊢
      exact ⟨hdigits.1, hpoint, hdigits.2.1, hdigits.2.2, hmark, hexponent⟩
  · simp only [List.cons_append, List.forall_mem_cons, List.forall_mem_append]
    exact ⟨hzero, hpoint, hzeros _, hdigits⟩
  · dsimp only
    split_ifs
    · simp only [List.forall_mem_cons, List.forall_mem_append]
      exact ⟨⟨hdigits, hzeros _⟩, hpoint, hzero, by simp⟩
    · simp only [List.forall_mem_append, List.forall_mem_cons]
      exact ⟨fun c hc => hdigits c (List.mem_of_mem_take hc), hpoint,
        fun c hc => hdigits c (List.mem_of_mem_drop hc)⟩

end Layouts

section Magnitudes

variable (x : Double)

theorem exists_zeros (digits : List Char) :
    ∃ zeros, digits = dropTrailingZeros digits ++ List.replicate zeros '0' := by
  have hsplit := List.takeWhile_append_dropWhile (p := (· = '0')) (l := digits.reverse)
  have hzeros : digits.reverse.takeWhile (· = '0') =
      List.replicate (digits.reverse.takeWhile (· = '0')).length '0' := by
    refine List.eq_replicate_of_mem fun c hc => ?_
    simpa using List.mem_takeWhile_imp hc
  refine ⟨(digits.reverse.takeWhile (· = '0')).length, ?_⟩
  rw [dropTrailingZeros, ← List.reverse_replicate, ← hzeros, ← List.reverse_append, hsplit,
    List.reverse_reverse]

theorem rank_ofDecimal_zero (negative : Bool) (exponent : Int) :
    (ofDecimal negative 0 exponent).rank = 0 := by
  have hten : 0 < 10 ^ (-exponent).toNat := Nat.pow_pos (by decide)
  rw [ofDecimal_eq negative 0 _ _ (Int.toNat_sub_toNat_neg exponent).symm, Nat.zero_mul,
    nearestRank_zero hten]
  rfl

-- What is laid out are digits with a value that rounds to the magnitude.
theorem exists_layout (hfinite : x.isInfinite = false) (hrank : x.rank ≠ 0) :
    ∃ core point, x.magnitudeText = layout core point ∧ core ≠ [] ∧
      (∀ c ∈ core, c.isDigit = true) ∧
      ofDecimal x.negative (valueOf core) (point - core.length) = x := by
  obtain ⟨zeros, hzeros⟩ := exists_zeros (decimalDigits x.shortest.digits)
  have hdigits := isDigit_decimalDigits x.shortest.digits
  have hvalue := valueOf_decimalDigits x.shortest.digits
  have hshortest := x.rank_shortest
  have htext : x.magnitudeText = layout (dropTrailingZeros (decimalDigits x.shortest.digits))
      ((decimalDigits x.shortest.digits).length + x.shortest.exponent) := by
    simp [magnitudeText, hfinite, hrank]
  generalize dropTrailingZeros (decimalDigits x.shortest.digits) = core at *
  rw [hzeros] at hdigits hvalue htext
  rw [valueOf_append_zeros] at hvalue
  refine ⟨core, _, htext, ?_, fun c hc => hdigits c (List.mem_append_left _ hc), ?_⟩
  · rintro rfl
    rw [← hvalue, valueOf, List.map_nil, ofDigits, List.foldl_nil, Nat.zero_mul,
      rank_ofDecimal_zero] at hshortest
    exact hrank hshortest.symm
  · have hexponent : ((core ++ List.replicate zeros '0').length : Int) + x.shortest.exponent -
        core.length = x.shortest.exponent + zeros := by
      rw [List.length_append, List.length_replicate]
      omega
    rw [hexponent, ← ofDecimal_mul_pow, hvalue]
    exact x.ofDecimal_eq_of_rank hshortest

-- A magnitude is written as a name, as zero or as digits that have been laid out.
theorem magnitudeText_cases :
    (x.rank = infinityRank ∧ x.magnitudeText = ['i', 'n', 'f']) ∨
      (x.rank = 0 ∧ x.magnitudeText = ['0', '.', '0']) ∨
      ∃ core point, x.magnitudeText = layout core point ∧ core ≠ [] ∧
        (∀ c ∈ core, c.isDigit = true) ∧
        ofDecimal x.negative (valueOf core) (point - core.length) = x := by
  by_cases hinfinite : x.isInfinite = true
  · have hrank : x.rank = infinityRank := by simpa [isInfinite] using hinfinite
    exact .inl ⟨hrank, by simp [magnitudeText, hinfinite]⟩
  have hfinite := Bool.eq_false_iff.mpr hinfinite
  by_cases hrank : x.rank = 0
  · exact .inr (.inl ⟨hrank, by simp [magnitudeText, hfinite, hrank]⟩)
  · exact .inr (.inr (x.exists_layout hfinite hrank))

theorem readMagnitude?_magnitudeText : readMagnitude? x.negative x.magnitudeText = some x := by
  obtain ⟨hrank, htext⟩ | ⟨hrank, htext⟩ | ⟨core, point, htext, hne, hcore, hvalue⟩ :=
    x.magnitudeText_cases
  · rw [htext, readMagnitude?, if_pos (.inl rfl)]
    cases x
    simp_all [ofRank]
  · have hzero : ∀ c ∈ ['0'], c.isDigit = true := List.forall_mem_singleton.mpr rfl
    have hread := readMagnitude?_point x.negative hzero (by simp) hzero endsDigits_nil
    rw [htext]
    refine hread.trans (congrArg some (x.ofDecimal_eq_of_rank ?_))
    rw [hrank]
    exact rank_ofDecimal_zero false _
  · rw [htext, readMagnitude?_layout x.negative hcore hne, hvalue]

theorem exists_head_magnitudeText :
    ∃ c rest, x.magnitudeText = c :: rest ∧ c ≠ '-' ∧ c ≠ '+' := by
  obtain ⟨-, htext⟩ | ⟨-, htext⟩ | ⟨core, point, htext, hne, hcore, -⟩ := x.magnitudeText_cases
  · exact ⟨'i', _, htext, by decide⟩
  · exact ⟨'0', _, htext, by decide⟩
  · obtain ⟨c, rest, hlayout, hc⟩ := exists_digit_layout hcore hne point
    refine ⟨c, rest, htext.trans hlayout, ?_, ?_⟩
    · rintro rfl
      cases hc
    · rintro rfl
      cases hc

theorem read?_text : read? x.text = some x := by
  have hread := x.readMagnitude?_magnitudeText
  obtain ⟨c, rest, htext, hminus, hplus⟩ := x.exists_head_magnitudeText
  rw [read?, text, String.toList_ofList]
  by_cases hneg : x.negative = true
  · rw [if_pos hneg]
    rwa [hneg] at hread
  · rw [if_neg hneg, htext]
    rw [Bool.eq_false_iff.mpr hneg, htext] at hread
    split
    · rename_i heq
      exact absurd (List.cons.inj heq).1 hminus
    · rename_i heq
      exact absurd (List.cons.inj heq).1 hplus
    · exact hread

theorem text_injective : Function.Injective text := by
  intro x y h
  have hread := x.read?_text
  rw [h, y.read?_text] at hread
  exact (Option.some.inj hread).symm

theorem mem_text : ∀ c ∈ x.text.toList, IsNumeral c ∨ c ∈ ['i', 'n', 'f'] := by
  have hmagnitude : ∀ c ∈ x.magnitudeText, IsNumeral c ∨ c ∈ ['i', 'n', 'f'] := by
    obtain ⟨-, htext⟩ | ⟨-, htext⟩ | ⟨core, point, htext, -, hcore, -⟩ := x.magnitudeText_cases
    · rw [htext]
      exact fun c hc => .inr hc
    · rw [htext]
      simp [IsNumeral]
    · rw [htext]
      exact fun c hc => .inl (isNumeral_layout hcore point c hc)
  rw [text, String.toList_ofList]
  split
  · exact List.forall_mem_cons.mpr ⟨.inl (.inr (by decide)), hmagnitude⟩
  · exact hmagnitude

end Magnitudes

end ExprLang.Double
