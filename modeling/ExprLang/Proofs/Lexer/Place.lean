import ExprLang.Proofs.Lexer.Segment
import Mathlib.Data.List.Induction

-- Lines and columns told by the newlines before a place, without counting on
-- from one character to the next.

namespace ExprLang

-- What stands behind the last newline.
def lastLine (cs : List Char) : List Char := (cs.reverse.takeWhile (· ≠ '\n')).reverse

-- The place in a file that has these characters before it.
def Location.behind (file : String) (before : List Char) : Location where
  file := file
  line := (1 + before.count '\n' : Nat)
  column := (1 + (lastLine before).length : Nat)
  offset := before.length

variable {before run source : List Char} {c : Char} {file : String} {position : Nat}

theorem lastLine_newline : lastLine (before ++ ['\n']) = [] := by
  simp [lastLine]

theorem lastLine_append_of_not_mem (h : '\n' ∉ run) :
    lastLine (before ++ run) = lastLine before ++ run := by
  have hrun : ∀ c ∈ run.reverse, decide (c ≠ '\n') = true := by
    intro c hc
    have hmem : c ∈ run := List.mem_reverse.mp hc
    exact decide_eq_true fun heq => h (heq ▸ hmem)
  rw [lastLine, List.reverse_append, List.takeWhile_append_of_pos hrun, List.reverse_append,
    List.reverse_reverse, lastLine]

-- Counting on character by character comes to the same.
theorem placeBehind_eq (before : List Char) :
    placeBehind before = (1 + before.count '\n', 1 + (lastLine before).length) := by
  induction before using List.reverseRecOn with
  | nil => rfl
  | append_singleton before c ih =>
    have hstep : placeBehind (before ++ [c]) = advancePlace (placeBehind before) c := by
      simp only [placeBehind, List.foldl_append, List.foldl_cons, List.foldl_nil]
    rw [hstep, ih, advancePlace]
    by_cases hnewline : c = '\n'
    · subst hnewline
      rw [if_pos rfl, lastLine_newline]
      simp [Nat.add_assoc]
    · have hnot : '\n' ∉ [c] := by simpa using Ne.symm hnewline
      rw [if_neg hnewline, lastLine_append_of_not_mem hnot]
      simp [hnewline, Nat.add_assoc]

theorem locationIn_eq_behind (h : position ≤ source.length) :
    locationIn file source position = .behind file (source.take position) := by
  have hlength : (source.take position).length = position := by
    rw [List.length_take, Nat.min_eq_left h]
  simp only [locationIn, Location.behind, placeBehind_eq, hlength]

-- A token lies where the characters before its first one say.
theorem Cuts.place_of_mem {α : Type} [PatternEngine α] {rules : List Rule}
    {segments : List Segment} {stop : Nat} {token : Token}
    (h : Cuts α rules source position segments stop)
    (hmem : token ∈ tokensOf file source position segments) :
    ∃ offset < source.length, token.location? = some (.behind file (source.take offset)) ∧
      token.lexeme.toList = (source.drop offset).take token.lexeme.length ∧ token.lexeme ≠ "" := by
  obtain ⟨piece, hpiece, bare, hbare, rfl⟩ := mem_tokensOf.mp hmem
  have hbegins := h.begins_of_mem_placed piece hpiece
  have hlt := hbegins.lt_length
  have hlexeme : bare.lexeme.toList = piece.2.text := Segment.lexeme_of_token? hbare
  refine ⟨piece.1, hlt, ?_, ?_, ?_⟩
  · exact congrArg some (locationIn_eq_behind (Nat.le_of_lt hlt))
  · change bare.lexeme.toList = (source.drop piece.1).take bare.lexeme.length
    rw [← String.length_toList, hlexeme, hbegins.drop_eq, List.take_left]
  · intro hempty
    have hnil : bare.lexeme.toList = [] := by
      rw [show bare.lexeme = "" from hempty, String.toList_empty]
    exact hbegins.text_spec.2 (hlexeme.symm.trans hnil)

-- On one line only the column and the offset go on.
theorem Location.shift_behind (h : '\n' ∉ run) :
    (Location.behind file before).shift run.length = .behind file (before ++ run) := by
  have hcount : (before ++ run).count '\n' = before.count '\n' := by
    rw [List.count_append, List.count_eq_zero_of_not_mem h, Nat.add_zero]
  simp only [behind, shift, hcount, lastLine_append_of_not_mem h, List.length_append,
    Int.natCast_add, Int.add_assoc]

-- No place in a source is one of those that stand for no place at all.
theorem Location.behind_ne (name : String) : Location.behind file before ≠ ⟨name, 0, 0, 0⟩ := by
  intro h
  have hline := congrArg Location.line h
  simp only [behind] at hline
  omega

end ExprLang
