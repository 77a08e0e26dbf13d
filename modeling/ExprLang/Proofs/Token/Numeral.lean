import ExprLang.Proofs.Text.Joined
import ExprLang.Token.Numeral
import Mathlib.Data.List.Infix
import Mathlib.Data.List.TakeWhile

-- Numerals of decimal digits of any scripts, and how a text begins with one.

namespace ExprLang

namespace Text

def isDecimalDigit (c : Char) : Bool := (decimalDigit? c).isSome

-- What the digits of a text are worth, each by itself.
def digitValues (cs : List Char) : List Nat := cs.filterMap decimalDigit?

end Text

open Text

-- The text of a numeral, with its digits before and after the point.
inductive Numeral : List Char → List Char → List Char → Prop where
  | whole {whole : List Char} (hwhole : ∀ c ∈ whole, isDecimalDigit c = true) (hne : whole ≠ []) :
      Numeral whole whole []
  | pointed {whole fraction : List Char} (hwhole : ∀ c ∈ whole, isDecimalDigit c = true)
      (hne : whole ≠ []) (hfraction : ∀ c ∈ fraction, isDecimalDigit c = true) :
      Numeral (whole ++ '.' :: fraction) whole fraction
  | fraction {fraction : List Char} (hfraction : ∀ c ∈ fraction, isDecimalDigit c = true)
      (hne : fraction ≠ []) : Numeral ('.' :: fraction) [] fraction

-- The longest numeral among all with which a text begins.
structure LongestNumeral (cs numeral whole fraction : List Char) : Prop where
  isNumeral : Numeral numeral whole fraction
  isPrefix : numeral <+: cs
  longest : ∀ other whole' fraction', other <+: cs → Numeral other whole' fraction' →
    other.length ≤ numeral.length

-- No digit goes on here.
def EndsDecimal (rest : List Char) : Prop := ∀ c ∈ rest.head?, isDecimalDigit c = false

-- The numeral at the front of a text, its digits, and what follows it.
inductive Front : List Char → Option (List Char × List Char × List Char) → Prop where
  | whole {whole rest : List Char} (hwhole : ∀ c ∈ whole, isDecimalDigit c = true)
      (hne : whole ≠ []) (hrest : EndsDecimal rest) (hpoint : rest.head? ≠ some '.') :
      Front (whole ++ rest) (some (whole, whole, []))
  | pointed {whole fraction rest : List Char} (hwhole : ∀ c ∈ whole, isDecimalDigit c = true)
      (hfraction : ∀ c ∈ fraction, isDecimalDigit c = true) (hne : ¬(whole = [] ∧ fraction = []))
      (hrest : EndsDecimal rest) :
      Front (whole ++ '.' :: (fraction ++ rest)) (some (whole ++ '.' :: fraction, whole, fraction))
  | missing {cs : List Char} (hends : EndsDecimal cs)
      (hpoint : ∀ rest, cs = '.' :: rest → EndsDecimal rest) : Front cs none

section Digits

variable {digits rest cs : List Char}

theorem isDecimalDigit_point : isDecimalDigit '.' = false := rfl

theorem endsDecimal_point (rest : List Char) : EndsDecimal ('.' :: rest) := by
  simp [EndsDecimal, isDecimalDigit_point]

theorem exists_digits (cs : List Char) :
    ∃ digits rest, cs = digits ++ rest ∧ (∀ c ∈ digits, isDecimalDigit c = true) ∧
      EndsDecimal rest := by
  refine ⟨_, _, List.takeWhile_append_dropWhile.symm, fun c hc => List.mem_takeWhile_imp hc, ?_⟩
  intro c hc
  have hhead := List.head?_dropWhile_not isDecimalDigit cs
  rw [Option.mem_def.mp hc] at hhead
  exact hhead

theorem splitDecimalDigits_eq (cs : List Char) :
    splitDecimalDigits cs =
      (digitValues (cs.takeWhile isDecimalDigit), cs.dropWhile isDecimalDigit) := by
  induction cs with
  | nil => rfl
  | cons c rest ih =>
    unfold splitDecimalDigits
    cases hdigit : decimalDigit? c with
    | none => simp [isDecimalDigit, hdigit, digitValues]
    | some digit => simp [isDecimalDigit, hdigit, digitValues, ih]

theorem splitDecimalDigits_append (hdigits : ∀ c ∈ digits, isDecimalDigit c = true)
    (hrest : EndsDecimal rest) :
    splitDecimalDigits (digits ++ rest) = (digitValues digits, rest) := by
  obtain ⟨htake, hdrop⟩ := span_append hdigits hrest
  rw [splitDecimalDigits_eq, htake, hdrop]

theorem splitDecimalDigits_of_ends (h : EndsDecimal cs) : splitDecimalDigits cs = ([], cs) := by
  obtain ⟨htake, hdrop⟩ := span_none h
  rw [splitDecimalDigits_eq, htake, hdrop]
  rfl

-- The digits at the front end in one place only, and fewer may be taken but not more.
theorem append_inj_of_ends {digits' rest' : List Char}
    (hdigits : ∀ c ∈ digits, isDecimalDigit c = true) (hrest : EndsDecimal rest)
    (hdigits' : ∀ c ∈ digits', isDecimalDigit c = true) (hrest' : EndsDecimal rest')
    (h : digits ++ rest = digits' ++ rest') : digits = digits' ∧ rest = rest' := by
  obtain ⟨htake, hdrop⟩ := span_append hdigits hrest
  obtain ⟨htake', hdrop'⟩ := span_append hdigits' hrest'
  exact ⟨by rw [← htake, h, htake'], by rw [← hdrop, h, hdrop']⟩

theorem length_le_of_append_eq {some tail : List Char}
    (hsome : ∀ c ∈ some, isDecimalDigit c = true)
    (hdigits : ∀ c ∈ digits, isDecimalDigit c = true) (hrest : EndsDecimal rest)
    (h : some ++ tail = digits ++ rest) : some.length ≤ digits.length := by
  obtain ⟨htake, -⟩ := span_append hdigits hrest
  rw [← h, List.takeWhile_append_of_pos hsome] at htake
  rw [← htake]
  exact (List.prefix_append _ _).length_le

theorem length_digitValues (hdigits : ∀ c ∈ digits, isDecimalDigit c = true) :
    (digitValues digits).length = digits.length :=
  List.filterMap_length_eq_length.mpr hdigits

theorem digitValues_eq_nil (hdigits : ∀ c ∈ digits, isDecimalDigit c = true) :
    digitValues digits = [] ↔ digits = [] := by
  rw [← List.length_eq_zero_iff, length_digitValues hdigits, List.length_eq_zero_iff]

end Digits

section Fronts

variable {cs numeral whole fraction : List Char}

theorem exists_front (cs : List Char) : ∃ found, Front cs found := by
  obtain ⟨whole, rest, rfl, hwhole, hrest⟩ := exists_digits cs
  by_cases hpoint : rest.head? = some '.'
  · obtain ⟨behind, rfl⟩ := List.head?_eq_some_iff.mp hpoint
    obtain ⟨fraction, rest, rfl, hfraction, hends⟩ := exists_digits behind
    by_cases hne : whole = [] ∧ fraction = []
    · obtain ⟨rfl, rfl⟩ := hne
      refine ⟨none, .missing (endsDecimal_point _) fun more heq => ?_⟩
      obtain rfl := (List.cons.inj heq).2
      exact hends
    · exact ⟨_, .pointed hwhole hfraction hne hends⟩
  · by_cases hne : whole = []
    · subst hne
      refine ⟨none, .missing hrest fun more heq => absurd ?_ hpoint⟩
      rw [List.nil_append] at heq
      rw [heq, List.head?_cons]
    · exact ⟨_, .whole hwhole hne hrest hpoint⟩

-- The numeral that is looked for is the one at the front.
theorem Front.numeralAt? {found : Option (List Char × List Char × List Char)}
    (h : Front cs found) : numeralAt? cs =
      found.map fun numeral => (digitValues numeral.2.1, digitValues numeral.2.2) := by
  cases h with
  | @whole whole rest hwhole hne hrest hpoint =>
    have hvalues : digitValues whole ≠ [] := (digitValues_eq_nil hwhole).not.mpr hne
    simp only [ExprLang.numeralAt?, splitDecimalDigits_append hwhole hrest]
    split
    · exact absurd List.head?_cons hpoint
    · rw [if_neg (by simp [hvalues])]
      rfl
  | @pointed whole fraction rest hwhole hfraction hne hrest =>
    have hvalues : ¬(digitValues whole = [] ∧ digitValues fraction = []) := by
      rwa [digitValues_eq_nil hwhole, digitValues_eq_nil hfraction]
    simp only [ExprLang.numeralAt?, splitDecimalDigits_append hwhole (endsDecimal_point _),
      splitDecimalDigits_append hfraction hrest, if_neg hvalues]
    rfl
  | missing hends hpoint =>
    simp only [ExprLang.numeralAt?, splitDecimalDigits_of_ends hends]
    split
    · next rest => simp [splitDecimalDigits_of_ends (hpoint rest rfl)]
    · rfl

-- Of two points in a row the second goes with no numeral before it, and the first with
-- none behind it.
example : numeralAt? "1..2".toList = some ([1], []) ∧ numeralAt? "..5".toList = none := ⟨rfl, rfl⟩

-- A numeral has a point or it has not.
theorem Numeral.spec (h : Numeral numeral whole fraction) :
    (∀ c ∈ whole, isDecimalDigit c = true) ∧ (∀ c ∈ fraction, isDecimalDigit c = true) ∧
      ¬(whole = [] ∧ fraction = []) ∧
      (numeral = whole ∧ fraction = [] ∨ numeral = whole ++ '.' :: fraction) := by
  cases h with
  | whole hwhole hne => exact ⟨hwhole, by simp, fun h => hne h.1, .inl ⟨rfl, rfl⟩⟩
  | pointed hwhole hne hfraction => exact ⟨hwhole, hfraction, fun h => hne h.1, .inr rfl⟩
  | fraction hfraction hne => exact ⟨by simp, hfraction, fun h => hne h.2, .inr rfl⟩

theorem Numeral.of_pointed (hwhole : ∀ c ∈ whole, isDecimalDigit c = true)
    (hfraction : ∀ c ∈ fraction, isDecimalDigit c = true) (hne : ¬(whole = [] ∧ fraction = [])) :
    Numeral (whole ++ '.' :: fraction) whole fraction := by
  by_cases hempty : whole = []
  · subst hempty
    exact .fraction hfraction fun h => hne ⟨rfl, h⟩
  · exact .pointed hwhole hempty hfraction

theorem Front.longestNumeral (h : Front cs (some (numeral, whole, fraction))) :
    LongestNumeral cs numeral whole fraction := by
  cases h with
  | @whole _ rest hwhole hne hrest hpoint =>
    refine ⟨.whole hwhole hne, List.prefix_append _ _, fun other whole' fraction' hother h' => ?_⟩
    obtain ⟨tail, htail⟩ := hother
    obtain ⟨hwhole', -, -, ⟨rfl, -⟩ | rfl⟩ := h'.spec
    · exact length_le_of_append_eq hwhole' hwhole hrest htail
    · rw [List.append_assoc] at htail
      obtain ⟨-, rfl⟩ := append_inj_of_ends hwhole' (endsDecimal_point _) hwhole hrest htail
      exact absurd List.head?_cons hpoint
  | @pointed _ _ rest hwhole hfraction hne hrest =>
    refine ⟨.of_pointed hwhole hfraction hne, ⟨rest, by simp⟩,
      fun other whole' fraction' hother h' => ?_⟩
    obtain ⟨tail, htail⟩ := hother
    obtain ⟨hwhole', hfraction', -, ⟨rfl, -⟩ | rfl⟩ := h'.spec
    · have hle := length_le_of_append_eq hwhole' hwhole (endsDecimal_point _) htail
      rw [List.length_append]
      omega
    · rw [List.append_assoc] at htail
      obtain ⟨rfl, hmore⟩ :=
        append_inj_of_ends hwhole' (endsDecimal_point _) hwhole (endsDecimal_point _) htail
      have hle := length_le_of_append_eq hfraction' hfraction hrest (List.cons.inj hmore).2
      simp only [List.length_append, List.length_cons]
      omega

theorem Front.not_numeral (h : Front cs none) :
    ∀ other whole fraction, other <+: cs → ¬Numeral other whole fraction := by
  cases h with
  | missing hends hpoint =>
    rintro other whole fraction ⟨tail, htail⟩ h'
    have hnil : ∀ c ∈ ([] : List Char), isDecimalDigit c = true := by simp
    obtain ⟨hwhole, hfraction, hne, ⟨rfl, rfl⟩ | rfl⟩ := h'.spec
    · have hle := length_le_of_append_eq hwhole hnil hends htail
      exact hne ⟨List.eq_nil_of_length_eq_zero (Nat.le_zero.mp hle), rfl⟩
    · rw [List.append_assoc, ← List.nil_append cs] at htail
      obtain ⟨rfl, rfl⟩ := append_inj_of_ends hwhole (endsDecimal_point _) hnil hends htail
      have hle := length_le_of_append_eq hfraction hnil (hpoint _ rfl) rfl
      exact hne ⟨rfl, List.eq_nil_of_length_eq_zero (Nat.le_zero.mp hle)⟩

theorem Numeral.unique {whole' fraction' : List Char} (h : Numeral numeral whole fraction)
    (h' : Numeral numeral whole' fraction') : whole = whole' ∧ fraction = fraction' := by
  have hnil : EndsDecimal [] := by simp [EndsDecimal]
  obtain ⟨hwhole, -, -, hshape⟩ := h.spec
  obtain ⟨hwhole', -, -, hshape'⟩ := h'.spec
  have hparts : ∃ rest rest', EndsDecimal rest ∧ EndsDecimal rest' ∧
      whole ++ rest = whole' ++ rest' ∧ (rest = rest' → fraction = fraction') := by
    rcases hshape with ⟨rfl, rfl⟩ | rfl <;> rcases hshape' with ⟨heq, rfl⟩ | heq
    · exact ⟨[], [], hnil, hnil, by simpa using heq, fun _ => rfl⟩
    · exact ⟨[], _, hnil, endsDecimal_point fraction', by simpa using heq, by simp⟩
    · exact ⟨_, [], endsDecimal_point fraction, hnil, by simpa using heq, by simp⟩
    · exact ⟨_, _, endsDecimal_point fraction, endsDecimal_point fraction', heq, by simp⟩
  obtain ⟨rest, rest', hrest, hrest', heq, hfraction⟩ := hparts
  obtain ⟨hsame, hmore⟩ := append_inj_of_ends hwhole hrest hwhole' hrest' heq
  exact ⟨hsame, hfraction hmore⟩

-- A text has one longest numeral, and that is its front.
theorem LongestNumeral.front (h : LongestNumeral cs numeral whole fraction) :
    Front cs (some (numeral, whole, fraction)) := by
  obtain ⟨found, hfront⟩ := exists_front cs
  cases found with
  | none => exact absurd h.isNumeral (hfront.not_numeral _ _ _ h.isPrefix)
  | some found =>
    obtain ⟨other, whole', fraction'⟩ := found
    have hother := hfront.longestNumeral
    have hle := h.longest _ _ _ hother.isPrefix hother.isNumeral
    have hge := hother.longest _ _ _ h.isPrefix h.isNumeral
    obtain rfl : numeral = other :=
      (List.prefix_of_prefix_length_le h.isPrefix hother.isPrefix hge).eq_of_length
        (Nat.le_antisymm hge hle)
    obtain ⟨rfl, rfl⟩ := h.isNumeral.unique hother.isNumeral
    exact hfront

end Fronts

end ExprLang
