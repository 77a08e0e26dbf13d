import ExprLang.Proofs.Lexer.Place
import ExprLang.Proofs.Lexer.Tokenize
import ExprLang.Proofs.Pattern.Anchorless
import Mathlib.Data.List.Basic
import Mathlib.Data.List.TakeWhile

-- Behind a segment a lexer goes on as if what is left were a source of its own,
-- unless a rule asks for the start of the text.

namespace ExprLang

def Anchorless (rules : List Rule) : Prop :=
  ∀ rule ∈ rules, ∃ pattern, PatternEngine.ofText Pattern rule.pattern = .ok pattern ∧
    pattern.mentionsStart = false

theorem Anchorless.readable {rules : List Rule} (h : Anchorless rules) : Readable Pattern rules :=
  fun rule hrule => (h rule hrule).imp fun _ => And.left

-- Where a place of a text lies in a longer one in which the text begins here. Only
-- the first line of the text has something before it.
def Location.onward (start place : Location) : Location where
  file := place.file
  line := place.line + (start.line - 1)
  column := if place.line = 1 then place.column + (start.column - 1) else place.column
  offset := place.offset + start.offset

def Token.onward (token : Token) (start : Location) : Token :=
  token.withLocation (token.location?.map start.onward)

-- What a lexer for these rules makes of a source, if it makes tokens of it.
def Lexer.Yields (source file : String) (rules : List Rule) (cache : PatternCache Pattern)
    (tokens : List Token) : Prop :=
  ∃ filled lexer final after, Lexer.new source file rules cache = (filled, .ok lexer) ∧
    lexer.tokenize filled = .ok (final, after) ∧ final.tokens = tokens

section Places

variable {run : List Char}

theorem lastLine_append_of_mem (before : List Char) (h : '\n' ∈ run) :
    lastLine (before ++ run) = lastLine run := by
  have hshort : (run.reverse.takeWhile (· ≠ '\n')).length ≠ run.reverse.length := by
    intro hlength
    have hall := List.takeWhile_eq_self_iff.mp
      ((List.takeWhile_prefix (· ≠ '\n')).eq_of_length hlength)
    simpa using hall '\n' (List.mem_reverse.mpr h)
  rw [lastLine, List.reverse_append, List.takeWhile_append, if_neg hshort, lastLine]

theorem Location.behind_append (file : String) (before run : List Char) :
    Location.behind file (before ++ run) = (behind file before).onward (behind file run) := by
  by_cases hmem : '\n' ∈ run
  · have hcount : 0 < run.count '\n' := List.count_pos_iff.mpr hmem
    have hline : ¬ (behind file run).line = 1 := by
      simp only [behind]
      omega
    rw [onward, if_neg hline]
    simp only [behind, lastLine_append_of_mem before hmem, List.count_append, List.length_append,
      Location.mk.injEq, true_and]
    omega
  · have hcount : run.count '\n' = 0 := List.count_eq_zero_of_not_mem hmem
    have hlast : lastLine run = run := by
      rw [← List.nil_append run, lastLine_append_of_not_mem hmem]
      rfl
    have hline : (behind file run).line = 1 := by
      simp only [behind, hcount]
      rfl
    rw [onward, if_pos hline]
    simp only [behind, lastLine_append_of_not_mem hmem, hlast, hcount, List.count_append,
      List.length_append, Location.mk.injEq, true_and]
    omega

theorem locationIn_drop (file : String) {source : List Char} {start position : Nat}
    (hstart : start ≤ source.length) (hposition : position ≤ (source.drop start).length) :
    locationIn file source (start + position) =
      (locationIn file source start).onward (locationIn file (source.drop start) position) := by
  have hboth : start + position ≤ source.length := by
    rw [List.length_drop] at hposition
    omega
  rw [locationIn_eq_behind hboth, locationIn_eq_behind hstart, locationIn_eq_behind hposition,
    List.take_add, Location.behind_append]

end Places

section Cuts

variable {rules : List Rule} {source : List Char} {start position stop : Nat} {segment : Segment}
  {segments : List Segment} {file : String}

theorem Rule.taken?_drop {rule : Rule} (hrules : Anchorless rules) (hrule : rule ∈ rules) :
    rule.taken? Pattern source (start + position) =
      rule.taken? Pattern (source.drop start) position := by
  obtain ⟨pattern, hpattern, hstart⟩ := hrules rule hrule
  rw [taken?, taken?, hpattern]
  exact congrArg (Option.filter _)
    (Pattern.matchText?_eq_of_alike hstart (Cursor.ofPosition_alike_drop source start position))

theorem Segment.begins_drop (hrules : Anchorless rules) :
    segment.Begins Pattern rules source (start + position) ↔
      segment.Begins Pattern rules (source.drop start) position := by
  have hfirst : firstTaken? Pattern rules source (start + position) =
      firstTaken? Pattern rules (source.drop start) position := by
    rw [firstTaken?, firstTaken?, ← List.head?_filterMap, ← List.head?_filterMap]
    exact congrArg List.head? <| List.filterMap_congr fun rule hrule => by
      rw [Rule.taken?_drop hrules hrule]
  rw [Segment.begins_iff, Segment.begins_iff, Segment.next?, Segment.next?, hfirst,
    List.drop_drop]

theorem Cuts.of_drop (hrules : Anchorless rules)
    (h : Cuts Pattern rules (source.drop start) position segments stop) :
    Cuts Pattern rules source (start + position) segments (start + stop) := by
  induction h with
  | nil => exact .nil
  | cons hbegins _ ih =>
    rw [← Nat.add_assoc] at ih
    exact .cons ((Segment.begins_drop hrules).mpr hbegins) ih

theorem Cuts.tokensOf_drop (h : Cuts Pattern rules (source.drop start) position segments stop)
    (hstart : start ≤ source.length) :
    tokensOf file source (start + position) segments =
      (tokensOf file (source.drop start) position segments).map
        (·.onward (locationIn file source start)) := by
  induction h with
  | nil => rfl
  | cons hbegins _ ih =>
    rw [tokensOf_cons, tokensOf_cons, List.map_append, Nat.add_assoc, ih,
      locationIn_drop file hstart (Nat.le_of_lt hbegins.lt_length)]
    congr 1
    cases Segment.token? _ <;> rfl

theorem Token.BeginsAt.onward {token : Token} {offset : Nat} (h : token.BeginsAt offset) :
    (token.onward (locationIn file source start)).BeginsAt (start + offset) := by
  obtain ⟨place, hplace, hoffset⟩ := Option.map_eq_some_iff.mp h
  have hlocation : (token.onward (locationIn file source start)).location? =
      some ((locationIn file source start).onward place) := by
    rw [Token.onward, Token.withLocation, hplace]
    rfl
  rw [BeginsAt, hlocation, Nat.add_comm, Int.natCast_add, ← hoffset]
  rfl

end Cuts

namespace Lexer

variable {rules : List Rule} {cache other : PatternCache Pattern}

theorem exists_yields (source file : String) (hcache : cache.Sound)
    (hrules : Readable Pattern rules) :
    ∃ segments, Cuts Pattern rules source.toList 0 segments source.toList.length ∧
      Yields source file rules cache (tokensOf file source.toList 0 segments) := by
  obtain ⟨filled, hnew, hfilled⟩ := exists_new source file hcache hrules
  obtain ⟨segments, after, hcuts, htokenize, -⟩ :=
    exists_tokenize (start source file rules) hfilled hrules
  exact ⟨segments, hcuts, filled, _, _, after, hnew, htokenize, rfl⟩

-- Without start anchors every match at a position is one at the start of what is
-- left there. So the tokens from a boundary on are those of the text behind it.
theorem tokenize_restart {before : List Segment} {boundary : Nat} (source file : String)
    (hcache : cache.Sound) (hother : other.Sound) (hrules : Anchorless rules)
    (hbefore : Cuts Pattern rules source.toList 0 before boundary) :
    (∀ rule ∈ rules, ∀ position, ∃ text? after after',
      cache.matchText? rule.pattern source.toList position = .ok (text?, after) ∧
      other.matchText? rule.pattern (source.toList.drop position) 0 = .ok (text?, after')) ∧
    ∃ earlier later,
      Yields source file rules cache
        (earlier ++ later.map (·.onward (locationIn file source.toList boundary))) ∧
      Yields (String.ofList (source.toList.drop boundary)) file rules other later ∧
      (∀ token ∈ earlier, ∃ offset < boundary, token.BeginsAt offset) ∧
      ∀ token ∈ later, ∃ offset ≥ boundary,
        (token.onward (locationIn file source.toList boundary)).BeginsAt offset := by
  refine ⟨fun rule hrule position => ?_, ?_⟩
  · obtain ⟨pattern, hpattern, hstart⟩ := hrules rule hrule
    obtain ⟨after, hmatch, -⟩ := hcache.exists_matchText? hpattern source.toList position
    obtain ⟨after', hmatch', -⟩ :=
      hother.exists_matchText? hpattern (source.toList.drop position) 0
    rw [Pattern.matchText?_eq, ← Pattern.matchText?_drop hstart] at hmatch'
    exact ⟨_, after, after', hmatch, hmatch'⟩
  · obtain ⟨segments, hcuts, hyields⟩ := exists_yields source file hcache hrules.readable
    obtain ⟨later, hlater, hagain⟩ := exists_yields
      (String.ofList (source.toList.drop boundary)) file hother hrules.readable
    rw [String.toList_ofList] at hlater hagain
    have hle : boundary ≤ source.toList.length := hbefore.le_length (Nat.zero_le _)
    have hrest : Cuts Pattern rules source.toList boundary later source.toList.length := by
      have hdrop := hlater.of_drop hrules
      rwa [Nat.add_zero, List.length_drop, Nat.add_sub_cancel' hle] at hdrop
    obtain rfl := hcuts.unique (hbefore.append hrest)
    have htokens : tokensOf file source.toList (boundary + 0) later = _ :=
      hlater.tokensOf_drop hle
    rw [Nat.add_zero] at htokens
    rw [hbefore.tokensOf_append, htokens] at hyields
    refine ⟨_, _, hyields, hagain, fun token hmem => ?_, fun token hmem => ?_⟩
    · obtain ⟨piece, hpiece, hoffset, -⟩ := exists_piece hmem
      exact ⟨piece.1, hbefore.lt_of_mem_placed piece hpiece, hoffset⟩
    · obtain ⟨piece, -, hoffset, -⟩ := exists_piece hmem
      exact ⟨_, Nat.le_add_right boundary piece.1, hoffset.onward⟩

-- The second segment of the source begins on the first line, and the last ones on
-- another.
theorem tokenize_restart_crowded :
    (.empty : PatternCache Pattern).Sound ∧ Anchorless crowdedRules ∧
      Cuts Pattern crowdedRules "aab\n cb".toList 0
        [⟨some ⟨"a\x7b0,2\x7d", .operator⟩, ['a', 'a']⟩] 2 ∧
      ∃ earlier later,
        Yields "aab\n cb" "<string>" crowdedRules .empty
          (earlier ++ later.map (·.onward ⟨"<string>", 1, 3, 2⟩)) ∧
        Yields "b\n cb" "<string>" crowdedRules .empty later ∧
        (∀ token ∈ earlier, ∃ offset < 2, token.BeginsAt offset) ∧
        ∀ token ∈ later, ∃ offset ≥ 2, (token.onward ⟨"<string>", 1, 3, 2⟩).BeginsAt offset := by
  have hrules : Anchorless crowdedRules := by
    simp only [Anchorless, crowdedRules, List.forall_mem_cons]
    exact ⟨⟨_, rfl, rfl⟩, ⟨_, rfl, rfl⟩, ⟨_, rfl, rfl⟩, by simp⟩
  have hcuts : Cuts Pattern crowdedRules "aab\n cb".toList 0
      [⟨some ⟨"a\x7b0,2\x7d", .operator⟩, ['a', 'a']⟩] 2 :=
    .cons (Segment.begins_iff.mpr rfl) .nil
  exact ⟨PatternCache.sound_empty, hrules, hcuts, (tokenize_restart "aab\n cb" "<string>"
    PatternCache.sound_empty PatternCache.sound_empty hrules hcuts).2⟩

end Lexer

end ExprLang
