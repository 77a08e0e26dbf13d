import ExprLang.Pattern.Reader
import ExprLang.Proofs.Double.Nearest
import ExprLang.Proofs.Double.Spelling
import ExprLang.Proofs.Pattern.Greedy
import ExprLang.Proofs.Token.Numeral

-- The number of a lexeme is that of the longest numeral with which it begins, whatever
-- comes behind.

namespace ExprLang

open Text

def CharSet.decimalDigits : CharSet := ⟨false, CharSet.digits⟩

-- Digits with a point or without one, or else a point with digits behind it. What is
-- tried first is taken if it matches at all.
def numeralPattern (digit : CharSet) : Pattern :=
  .either
    (.sequence (.plus (.oneOf digit))
      (.optional (.sequence (.literal '.') (.star (.oneOf digit)))))
    (.sequence (.literal '.') (.plus (.oneOf digit)))

example : PatternEngine.ofText Pattern "\\d+(?:\\.\\d*)?|\\.\\d+" =
    .ok (numeralPattern .decimalDigits) := rfl

section Matching

variable {next : Pattern.Continuation} {atStart : Bool} {taken : Nat}
  {cs whole fraction rest : List Char}

theorem contains_decimalDigits (c : Char) :
    CharSet.decimalDigits.contains c = isDecimalDigit c := by
  have hrange (start : Nat) : (decide (start ≤ c.toNat) && decide (c.toNat ≤ start + 9)) =
      (decide (start ≤ c.toNat) && decide (c.toNat < start + 10)) := by
    congr 2
    simp only [eq_iff_iff]
    omega
  rw [isDecimalDigit, decimalDigit?, Option.isSome_map, List.isSome_find?]
  simp only [CharSet.contains, CharSet.decimalDigits, CharSet.digits, decimalDigits,
    Ranges.contains, List.any_map, Bool.bne_false, Function.comp_def]
  exact List.any_congr rfl hrange

namespace Pattern

theorem run_point (next : Continuation) (rest : List Char) (body : Pattern) :
    (sequence (literal '.') body).run next ⟨atStart, taken, '.' :: rest⟩ =
      body.run next ⟨false, taken + 1, rest⟩ := rfl

theorem run_point_of_head? (next : Continuation) (body : Pattern) (h : cs.head? ≠ some '.') :
    (sequence (literal '.') body).run next ⟨atStart, taken, cs⟩ = none := by
  cases cs with
  | nil => rfl
  | cons c rest =>
    have hne : ¬ (CharSet.single '.').contains c = true := by
      intro hcontains
      have heq : '.'.toNat ≤ c.toNat ∧ c.toNat ≤ '.'.toNat := by
        simpa [CharSet.contains, CharSet.single, Ranges.contains] using hcontains
      exact h (congrArg some (Char.toNat_inj.mp (Nat.le_antisymm heq.2 heq.1)))
    exact run_oneOf_of_not_contains hne

theorem run_plus_digits (hnext : ∀ cursor, (next cursor).isSome = true)
    (hwhole : ∀ c ∈ whole, isDecimalDigit c = true) (hne : whole ≠ [])
    (hrest : EndsDecimal rest) :
    ∃ after, (plus (oneOf .decimalDigits)).run next ⟨atStart, taken, whole ++ rest⟩ =
      next ⟨after, taken + whole.length, rest⟩ := by
  obtain ⟨c, more, rfl⟩ := List.exists_cons_of_ne_nil hne
  obtain ⟨hc, hmore⟩ := List.forall_mem_cons.mp hwhole
  obtain ⟨after, hrounds⟩ := exists_rounds_oneOf hnext (Nat.le_refl (more ++ rest).length)
  obtain ⟨htake, hdrop⟩ := span_append hmore hrest
  have hset : CharSet.decimalDigits.contains = isDecimalDigit := funext contains_decimalDigits
  refine ⟨after, ?_⟩
  rw [List.cons_append, plus, run, run_oneOf_of_contains (by rw [hset, hc]), run_star, hrounds,
    hset, htake, hdrop, List.length_cons, Nat.add_right_comm]
  rfl

theorem run_plus_ends (h : EndsDecimal cs) :
    (plus (oneOf .decimalDigits)).run next ⟨atStart, taken, cs⟩ = none := by
  cases cs with
  | nil => rfl
  | cons c rest =>
    have hne : ¬ CharSet.decimalDigits.contains c = true := by
      rw [contains_decimalDigits, h c rfl]
      exact Bool.false_ne_true
    exact run_oneOf_of_not_contains hne

theorem run_star_digits (start : Nat) (hfraction : ∀ c ∈ fraction, isDecimalDigit c = true)
    (hrest : EndsDecimal rest) :
    (star (oneOf .decimalDigits)).run (fun after => some (after.taken - start))
      ⟨atStart, taken, fraction ++ rest⟩ = some (taken + fraction.length - start) := by
  have hset : CharSet.decimalDigits.contains = isDecimalDigit := funext contains_decimalDigits
  rw [run_star, rounds_oneOf start (Nat.le_refl _), hset, (span_append hfraction hrest).1]

theorem run_optional (body : Pattern) (next : Continuation) (cursor : Cursor) :
    (optional body).run next cursor = (body.run next cursor).or (next cursor) := by
  rw [optional, run, run, Option.orElse_eq_orElse, Option.orElse_eq_or]

end Pattern

-- What is tried first is the longest.
theorem Front.matchLength? {found : Option (List Char × List Char × List Char)}
    (h : Front cs found) : (numeralPattern .decimalDigits).matchLength? ⟨atStart, taken, cs⟩ =
      found.map (·.1.length) := by
  have hlast (cursor : Cursor) : (some (cursor.taken - taken)).isSome = true := rfl
  have hnext (cursor : Cursor) :
      ((Pattern.optional (.sequence (.literal '.') (.star (.oneOf .decimalDigits)))).run
        (fun after => some (after.taken - taken)) cursor).isSome = true := by
    rw [Pattern.run_optional, Option.isSome_or, hlast, Bool.or_true]
  unfold Pattern.matchLength? numeralPattern
  rw [Pattern.run, Option.orElse_eq_orElse, Option.orElse_eq_or, Pattern.run]
  cases h with
  | @whole whole rest hwhole hne hrest hpoint =>
    obtain ⟨after, hrun⟩ := Pattern.run_plus_digits hnext hwhole hne hrest
    rw [hrun, Pattern.run_optional, Pattern.run_point_of_head? _ _ hpoint]
    simp
  | @pointed whole fraction rest hwhole hfraction hne hrest =>
    by_cases hempty : whole = []
    · subst hempty
      have hfraction' : fraction ≠ [] := fun heq => hne ⟨rfl, heq⟩
      obtain ⟨after, hrun⟩ := Pattern.run_plus_digits hlast hfraction hfraction' hrest
      rw [List.nil_append, Pattern.run_plus_ends (endsDecimal_point _), Pattern.run_point, hrun]
      simp only [Option.none_or, Option.map_some, Option.some.injEq, List.nil_append,
        List.length_cons]
      omega
    · obtain ⟨after, hrun⟩ :=
        Pattern.run_plus_digits hnext hwhole hempty (endsDecimal_point (fraction ++ rest))
      rw [hrun, Pattern.run_optional, Pattern.run_point,
        Pattern.run_star_digits taken hfraction hrest]
      simp only [Option.some_or, Option.map_some, Option.some.injEq, List.length_append,
        List.length_cons]
      omega
  | missing hends hpoint =>
    rw [Pattern.run_plus_ends hends]
    cases cs with
    | nil => rfl
    | cons c rest =>
      by_cases hc : c = '.'
      · subst hc
        rw [Pattern.run_point, Pattern.run_plus_ends (hpoint rest rfl)]
        rfl
      · rw [Pattern.run_point_of_head? _ _ (by simpa using hc)]
        rfl

theorem Front.matchText? {found : Option (List Char × List Char × List Char)}
    (h : Front cs found) : (numeralPattern .decimalDigits).matchText? ⟨atStart, taken, cs⟩ =
      found.map (·.1) := by
  rw [Pattern.matchText?, h.matchLength?]
  cases found with
  | none => rfl
  | some found =>
    obtain ⟨numeral, whole, fraction⟩ := found
    exact congrArg some (List.prefix_iff_eq_take.mp h.longestNumeral.isPrefix).symm

end Matching

section Values

variable {s : String} {numeral whole fraction : List Char}

-- What the digits before and after a point are worth together.
def numeralValue (whole fraction : List Char) : ℚ :=
  Double.ofDigits (digitValues (whole ++ fraction)) / 10 ^ fraction.length

theorem parseNumber_eq (h : LongestNumeral s.toList numeral whole fraction) :
    parseNumber s = .ofDecimal false (Double.ofDigits (digitValues (whole ++ fraction)))
      (-(fraction.length : Int)) := by
  obtain ⟨-, hfraction, -, -⟩ := h.isNumeral.spec
  rw [parseNumber, h.front.numeralAt?, Option.map_some]
  dsimp only
  rw [length_digitValues hfraction, digitValues, digitValues, digitValues, List.filterMap_append]

theorem negative_ofDecimal (negative : Bool) (digits : Nat) (exponent : Int) :
    (Double.ofDecimal negative digits exponent).negative = negative := by
  cases exponent <;> rfl

-- A lexeme is as much as the longest numeral at its front, and zero without one. What is
-- tried first finds that numeral, and it can always be read.
theorem parseNumber_longest_numeral (s : String) :
    (∃ numeral whole fraction, LongestNumeral s.toList numeral whole fraction ∧
      (numeralPattern .decimalDigits).matchText? (Cursor.ofPosition s.toList 0) = some numeral ∧
      Double.readAny? (String.ofList numeral) = some (parseNumber s) ∧
      (parseNumber s).negative = false ∧
      (parseNumber s).Nearest (numeralValue whole fraction) ∧
      ∀ other : String, LongestNumeral other.toList numeral whole fraction →
        parseNumber other = parseNumber s) ∨
    (∀ numeral whole fraction, numeral <+: s.toList → ¬Numeral numeral whole fraction) ∧
      (numeralPattern .decimalDigits).matchText? (Cursor.ofPosition s.toList 0) = none ∧
      parseNumber s = .ofRank false 0 := by
  obtain ⟨found, hfront⟩ := exists_front s.toList
  cases found with
  | none =>
    refine .inr ⟨hfront.not_numeral, hfront.matchText?, ?_⟩
    rw [parseNumber, hfront.numeralAt?]
    rfl
  | some found =>
    obtain ⟨numeral, whole, fraction⟩ := found
    have hlongest := hfront.longestNumeral
    have heq := parseNumber_eq hlongest
    refine .inl ⟨numeral, whole, fraction, hlongest, hfront.matchText?, ?_, ?_, ?_, ?_⟩
    · rw [heq]
      exact Double.readAny?_numeral hlongest.isNumeral
    · rw [heq, negative_ofDecimal]
    · rw [heq]
      exact Double.nearest_ofDecimal _ _ _
    · intro other hother
      rw [heq, parseNumber_eq hother]

end Values

end ExprLang
