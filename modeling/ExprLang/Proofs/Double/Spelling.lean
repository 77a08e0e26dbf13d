import ExprLang.Double.Spelling
import ExprLang.Proofs.Double.ReadBack
import ExprLang.Proofs.Token.Numeral

-- A numeral of decimal digits is spelled as a number, whatever the scripts. What it
-- reads as are the values of its digits.

namespace ExprLang

open Text

section Characters

variable {c : Char} {digit : Nat} {cs : List Char}

theorem exists_start (h : decimalDigit? c = some digit) :
    ∃ start ∈ decimalZeros, digit < 10 ∧ c.toNat = start + digit := by
  obtain ⟨start, hfind, rfl⟩ := Option.map_eq_some_iff.mp h
  have hrange := List.find?_some hfind
  simp only [Bool.and_eq_true, decide_eq_true_eq] at hrange
  exact ⟨start, List.mem_of_find?_eq_some hfind, by omega, by omega⟩

theorem blanks_not_digits :
    ∀ start ∈ decimalZeros, ∀ digit < 10, blanks.contains (start + digit) = false := by
  decide +kernel

theorem not_blank_of_digit (h : isDecimalDigit c = true) : isBlank c = false := by
  obtain ⟨digit, hdigit⟩ := Option.isSome_iff_exists.mp h
  obtain ⟨start, hstart, hlt, hcode⟩ := exists_start hdigit
  rw [isBlank, hcode]
  exact blanks_not_digits start hstart digit hlt

theorem trim_eq_self (h : ∀ c ∈ cs, isBlank c = false) : trim cs = cs := by
  have hhead : ∀ c ∈ cs.head?, isBlank c = false := fun c hc => h c (List.mem_of_mem_head? hc)
  have hlast : ∀ c ∈ cs.reverse.head?, isBlank c = false :=
    fun c hc => h c (List.mem_reverse.mp (List.mem_of_mem_head? hc))
  rw [trim, (span_none hhead).2, (span_none hlast).2, List.reverse_reverse]

end Characters

theorem Numeral.mem {numeral whole fraction : List Char} (h : Numeral numeral whole fraction) :
    ∀ c ∈ numeral, isDecimalDigit c = true ∨ c = '.' := by
  obtain ⟨hwhole, hfraction, -, ⟨rfl, -⟩ | rfl⟩ := h.spec
  · exact fun c hc => .inl (hwhole c hc)
  · simp only [List.forall_mem_append, List.forall_mem_cons]
    exact ⟨fun c hc => .inl (hwhole c hc), .inr trivial, fun c hc => .inl (hfraction c hc)⟩

namespace Double

section Plain

variable {c : Char} {cs whole fraction numeral : List Char}

theorem plainChar_digit (h : isDecimalDigit c = true) : (plainChar c).isDigit = true ∧
    decimalDigit? c = some ((plainChar c).toNat - 48) := by
  obtain ⟨digit, hdigit⟩ := Option.isSome_iff_exists.mp h
  obtain ⟨-, -, hlt, -⟩ := exists_start hdigit
  obtain ⟨hascii, hvalue⟩ := digitChar_spec digit hlt
  rw [plainChar, hdigit]
  exact ⟨hascii, by rw [hvalue]⟩

theorem isDigit_map_plainChar (h : ∀ c ∈ cs, isDecimalDigit c = true) :
    ∀ c ∈ cs.map plainChar, c.isDigit = true :=
  List.forall_mem_map.mpr fun c hc => (plainChar_digit (h c hc)).1

theorem valueOf_map_plainChar (h : ∀ c ∈ cs, isDecimalDigit c = true) :
    valueOf (cs.map plainChar) = ofDigits (digitValues cs) := by
  rw [valueOf, List.map_map]
  congr 1
  induction cs with
  | nil => rfl
  | cons c cs ih =>
    obtain ⟨hc, hcs⟩ := List.forall_mem_cons.mp h
    have hvalues : digitValues (c :: cs) = ((plainChar c).toNat - 48) :: digitValues cs :=
      List.filterMap_cons_some (plainChar_digit hc).2
    rw [List.map_cons, ih hcs, hvalues]
    rfl

-- Without underscores nothing is left out.
theorem ungroup?_eq_some (h : '_' ∉ cs) (afterDigit : Bool) :
    ungroup? afterDigit cs = some cs := by
  induction cs generalizing afterDigit with
  | nil => rfl
  | cons c cs ih =>
    obtain ⟨hc, hcs⟩ := not_or.mp (List.mem_cons.not.mp h)
    rw [ungroup?, if_neg (Ne.symm hc), ih hcs]
    · rfl
    · rintro d rest rfl
      exact absurd rfl hc

theorem read?_ofList (h : ∀ c ∈ cs, c.isDigit = true ∨ c = '.') :
    read? (String.ofList cs) = readMagnitude? false cs := by
  rw [read?, String.toList_ofList]
  split
  · exact absurd (h '-' List.mem_cons_self) (by decide)
  · exact absurd (h '+' List.mem_cons_self) (by decide)
  · rfl

theorem readAny?_of_mem (h : ∀ c ∈ cs, isDecimalDigit c = true ∨ c = '.') :
    readAny? (String.ofList cs) = readMagnitude? false (cs.map plainChar) := by
  have hblank : ∀ c ∈ cs, isBlank c = false := by
    intro c hc
    rcases h c hc with hdigit | rfl
    · exact not_blank_of_digit hdigit
    · rfl
  have hplain : ∀ c ∈ cs.map plainChar, c.isDigit = true ∨ c = '.' :=
    List.forall_mem_map.mpr fun c hc => (h c hc).imp (fun hdigit => (plainChar_digit hdigit).1)
      fun hpoint => by rw [hpoint]; rfl
  have hgroup : '_' ∉ cs.map plainChar := fun hmem => absurd (hplain '_' hmem) (by decide)
  rw [readAny?, plainSpelling?, String.toList_ofList, trim_eq_self hblank,
    ungroup?_eq_some hgroup]
  exact read?_ofList hplain

-- The numeral is accepted, and is worth what its digits are with the point in its place.
theorem readAny?_numeral (h : Numeral numeral whole fraction) :
    readAny? (String.ofList numeral) = some (ofDecimal false
      (ofDigits (digitValues (whole ++ fraction))) (-(fraction.length : Int))) := by
  obtain ⟨hwhole, hfraction, hne, hshape⟩ := h.spec
  have hall : ∀ c ∈ whole ++ fraction, isDecimalDigit c = true :=
    List.forall_mem_append.mpr ⟨hwhole, hfraction⟩
  rw [readAny?_of_mem h.mem, ← valueOf_map_plainChar hall]
  rcases hshape with ⟨rfl, rfl⟩ | rfl
  · have hne' : numeral.map plainChar ≠ [] := by simpa using hne
    have hread := readMagnitude?_unpointed false (isDigit_map_plainChar hwhole) hne' endsDigits_nil
      (by simp)
    rw [List.append_nil] at hread
    rw [hread, List.append_nil]
    rfl
  · have hne' : ¬(whole.map plainChar = [] ∧ fraction.map plainChar = []) := by simpa using hne
    have hread := readMagnitude?_point false (isDigit_map_plainChar hwhole) hne'
      (isDigit_map_plainChar hfraction) endsDigits_nil
    have hpoint : plainChar '.' = '.' := rfl
    rw [List.append_nil] at hread
    rw [List.map_append, List.map_cons, hpoint, hread, List.map_append, List.length_map]
    simp [readExponent?]

end Plain

end Double

end ExprLang
