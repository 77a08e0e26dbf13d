import ExprLang.Proofs.Lexer.Segment
import ExprLang.Proofs.Pattern.Sound

-- Lexers cut their source into segments, whatever rules they have been given and
-- whatever compiles and matches their patterns, as long as these are compiled.

namespace ExprLang

def Readable (α : Type) [PatternEngine α] (rules : List Rule) : Prop :=
  ∀ rule ∈ rules, ∃ pattern, PatternEngine.ofText α rule.pattern = .ok pattern

namespace Lexer

variable {α : Type} [PatternEngine α] {rules : List Rule} {cache : PatternCache α} {lexer : Lexer}

-- Trying the rules one by one finds the first that takes anything.
theorem exists_firstMatch? (source : List Char) (position : Nat) (hcache : cache.Sound)
    (hrules : Readable α rules) :
    ∃ after, firstMatch? source position cache rules =
        .ok (firstTaken? α rules source position, after) ∧ after.Sound := by
  induction rules generalizing cache with
  | nil => exact ⟨cache, rfl, hcache⟩
  | cons rule rules ih =>
    obtain ⟨pattern, hpattern⟩ := hrules rule (by simp)
    obtain ⟨tried, hmatch, htried⟩ := hcache.exists_matchText? hpattern source position
    obtain ⟨after, hrest, hafter⟩ := ih htried fun other hother => hrules other (by simp [hother])
    simp only [firstMatch?, hmatch, firstTaken?, List.findSome?_cons, Rule.taken?, hpattern, bind,
      Except.bind]
    rcases PatternEngine.matchText? pattern source position with _ | _ | _
    · exact ⟨after, hrest, hafter⟩
    · exact ⟨after, hrest, hafter⟩
    · exact ⟨tried, rfl, htried⟩

-- The same lexer where it stands behind some characters of its source.
def goTo (lexer : Lexer) (position : Nat) : Lexer :=
  { lexer with
    position
    line := (placeBehind (lexer.source.take position)).1
    column := (placeBehind (lexer.source.take position)).2 }

theorem advance_goTo (lexer : Lexer) (position count : Nat) :
    (lexer.goTo position).advance count = lexer.goTo (position + count) := by
  simp only [goTo, advance, placeBehind, List.take_add, List.foldl_append]

-- A lexer that is not at the end finds the segment that begins where it stands.
theorem exists_next (hcache : cache.Sound) (hrules : Readable α lexer.rules) {position : Nat}
    (hlt : position < lexer.source.length) :
    ∃ segment after, Segment.Begins α lexer.rules lexer.source position segment ∧
      (lexer.goTo position).next cache = .ok ((segment.token?, segment.text.length), after) ∧
      after.Sound := by
  obtain ⟨after, hfirst, hafter⟩ := exists_firstMatch? lexer.source position hcache hrules
  simp only [Segment.begins_iff, Segment.next?, next, goTo]
  rw [hfirst]
  match firstTaken? α lexer.rules lexer.source position with
  | some (rule, text) => exact ⟨_, after, rfl, rfl, hafter⟩
  | none =>
    have hne : lexer.source.drop position ≠ [] := by simpa using hlt
    obtain ⟨c, rest, hrest⟩ := List.exists_cons_of_ne_nil hne
    simp only [hrest, List.head?_cons, Option.map_some]
    refine ⟨_, after, rfl, ?_, hafter⟩
    simp only [Segment.token?, String.singleton_eq_ofList, List.length_singleton]

-- From each position the lexer goes to the end, one segment after another. Every
-- segment has a character at least, so the bound is enough.
theorem exists_tokensFrom (hcache : cache.Sound) (hrules : Readable α lexer.rules) {position : Nat}
    (hposition : position ≤ lexer.source.length) {bound : Nat}
    (hbound : lexer.source.length - position ≤ bound) :
    ∃ segments after, Cuts α lexer.rules lexer.source position segments lexer.source.length ∧
      tokensFrom bound (lexer.goTo position) cache =
        .ok ((tokensOf lexer.file lexer.source position segments,
          lexer.goTo lexer.source.length), after) ∧ after.Sound := by
  induction bound generalizing position cache with
  | zero =>
    obtain rfl : position = lexer.source.length := by omega
    exact ⟨[], cache, .nil, rfl, hcache⟩
  | succ bound ih =>
    by_cases hend : position = lexer.source.length
    · subst hend
      exact ⟨[], cache, .nil, if_neg (Nat.lt_irrefl _), hcache⟩
    have hlt : position < lexer.source.length := by omega
    obtain ⟨segment, tried, hbegins, hnext, htried⟩ := exists_next hcache hrules hlt
    have hpos := List.length_pos_iff.mpr hbegins.text_spec.2
    obtain ⟨segments, after, hcuts, hrun, hafter⟩ := ih htried hbegins.end_le (by omega)
    refine ⟨segment :: segments, after, .cons hbegins hcuts, ?_, hafter⟩
    have hstep : (lexer.goTo position).position < (lexer.goTo position).source.length := hlt
    rw [tokensFrom, if_pos hstep, hnext]
    simp only [bind, Except.bind, advance_goTo, hrun, tokensOf_cons]
    rfl

-- All of the source, from its start to its end, wherever the lexer stood.
theorem exists_tokenize (lexer : Lexer) (hcache : cache.Sound) (hrules : Readable α lexer.rules) :
    ∃ segments after, Cuts α lexer.rules lexer.source 0 segments lexer.source.length ∧
      lexer.tokenize cache =
        .ok ({ lexer.goTo lexer.source.length with
          tokens := tokensOf lexer.file lexer.source 0 segments }, after) ∧ after.Sound := by
  have hrestart : Readable α lexer.restart.rules := hrules
  obtain ⟨segments, after, hcuts, hrun, hafter⟩ :=
    exists_tokensFrom hcache hrestart (Nat.zero_le _) (Nat.le_of_eq (Nat.sub_zero _))
  refine ⟨segments, after, hcuts, ?_, hafter⟩
  have hstart : lexer.restart = lexer.restart.goTo 0 := rfl
  rw [tokenize, hstart]
  simp only [bind, Except.bind, show lexer.restart.source = lexer.source from rfl] at hrun ⊢
  rw [hrun]
  rfl

theorem exists_new (source file : String) (hcache : cache.Sound) (hrules : Readable α rules) :
    ∃ filled, Lexer.new source file rules cache = (filled, .ok (start source file rules)) ∧
      filled.Sound := by
  have hread : ∀ text ∈ rules.map (·.pattern),
      ∃ pattern, PatternEngine.ofText α text = .ok pattern := by
    simpa [Readable] using hrules
  obtain ⟨filled, hall, hfilled⟩ := hcache.exists_compileAll hread
  exact ⟨filled, by rw [Lexer.new, hall], hfilled⟩

-- Whatever the rules, a lexer goes through all of its source. It cuts the source
-- in the only way there is, and its tokens are the segments that are not skipped.
theorem tokenize_segments (source file : String) (hcache : cache.Sound)
    (hrules : Readable α rules) :
    ∃ filled lexer final after segments,
      Lexer.new source file rules cache = (filled, .ok lexer) ∧
      lexer.tokenize filled = .ok (final, after) ∧
      final.position = source.length ∧
      Cuts α rules source.toList 0 segments source.length ∧
      (∀ others, Cuts α rules source.toList 0 others source.length → others = segments) ∧
      segments.flatMap (·.text) = source.toList ∧
      (∀ segment ∈ segments, segment.text ≠ []) ∧
      ((placed 0 segments).Pairwise fun piece next => piece.1 + piece.2.text.length ≤ next.1) ∧
      final.tokens = tokensOf file source.toList 0 segments ∧
      (∀ token ∈ final.tokens, ∃ offset, token.BeginsAt offset ∧
        token.lexeme.toList = (source.toList.drop offset).take token.lexeme.length ∧
        token.lexeme ≠ "") ∧
      (final.tokens.Pairwise fun token next => ∃ offset offset' : Nat, token.BeginsAt offset ∧
        next.BeginsAt offset' ∧ offset < offset' ∧ offset + token.lexeme.length ≤ offset') ∧
      Gapped α rules source.toList 0 final.tokens := by
  obtain ⟨filled, hnew, hfilled⟩ := exists_new source file hcache hrules
  obtain ⟨segments, after, hcuts, htokenize, -⟩ :=
    exists_tokenize (start source file rules) hfilled hrules
  have hlength : source.toList.length = source.length := String.length_toList
  have htext : segments.flatMap (·.text) = source.toList := by
    simpa [start] using hcuts.drop_eq.symm
  refine ⟨filled, _, _, after, segments, hnew, htokenize, hlength, hlength ▸ hcuts, ?_, htext,
    hcuts.text_ne_nil, pairwise_placed 0 segments, rfl, ?_, hcuts.pairwise_offsets,
    hcuts.gapped rfl⟩
  · intro others hothers
    exact Cuts.unique (hlength ▸ hothers) hcuts
  · intro token htoken
    exact hcuts.lexeme_eq htoken

-- Rules that match the empty text, compete for the same text and go over lines.
def crowdedRules : List Rule :=
  [⟨"a\x7b0,2\x7d", .operator⟩, ⟨"\\s+", .skip⟩, ⟨"aab|b$", .word⟩]

theorem tokenize_segments_crowded :
    (.empty : PatternCache Pattern).Sound ∧ Readable Pattern crowdedRules ∧
      ∃ (filled : PatternCache Pattern) (lexer final : Lexer) (after : PatternCache Pattern),
        Lexer.new "aab\n cb" "<string>" crowdedRules .empty = (filled, .ok lexer) ∧
        lexer.tokenize filled = .ok (final, after) ∧ final.position = 7 ∧
        final.tokens =
          [⟨.binaryOperator, "aa", .text "aa", some ⟨"<string>", 1, 1, 0⟩⟩,
            ⟨.other, "b", .text "b", some ⟨"<string>", 1, 3, 2⟩⟩,
            ⟨.other, "c", .text "c", some ⟨"<string>", 2, 2, 5⟩⟩,
            ⟨.identifier, "b", .text "b", some ⟨"<string>", 2, 3, 6⟩⟩] := by
  have hrules : Readable Pattern crowdedRules := by
    simp only [Readable, crowdedRules, List.forall_mem_cons]
    exact ⟨⟨_, rfl⟩, ⟨_, rfl⟩, ⟨_, rfl⟩, by simp⟩
  have hcuts : Cuts Pattern crowdedRules "aab\n cb".toList 0
      [⟨some ⟨"a\x7b0,2\x7d", .operator⟩, ['a', 'a']⟩, ⟨none, ['b']⟩,
        ⟨some ⟨"\\s+", .skip⟩, ['\n', ' ']⟩, ⟨none, ['c']⟩,
        ⟨some ⟨"aab|b$", .word⟩, ['b']⟩] 7 :=
    .cons (Segment.begins_iff.mpr rfl) <| .cons (Segment.begins_iff.mpr rfl) <|
      .cons (Segment.begins_iff.mpr rfl) <| .cons (Segment.begins_iff.mpr rfl) <|
        .cons (Segment.begins_iff.mpr rfl) .nil
  obtain ⟨filled, lexer, final, after, segments, hnew, htokenize, hposition, -, hunique, -, -, -,
    htokens, -, -, -⟩ :=
    tokenize_segments "aab\n cb" "<string>" PatternCache.sound_empty hrules
  obtain rfl := hunique _ hcuts
  exact ⟨PatternCache.sound_empty, hrules, filled, lexer, final, after, hnew, htokenize, hposition,
    htokens⟩

end Lexer

theorem exists_tokenizeWith_of_readable {α : Type} [PatternEngine α] {cache : PatternCache α}
    (source file : String) (hcache : cache.Sound) (hrules : Readable α Rule.defaults) :
    ∃ segments after, Cuts α Rule.defaults source.toList 0 segments source.toList.length ∧
      tokenizeWith source file cache =
        (after, .ok (tokensOf file source.toList 0 segments)) ∧ after.Sound := by
  obtain ⟨filled, hnew, hfilled⟩ := Lexer.exists_new source file hcache hrules
  obtain ⟨segments, after, hcuts, htokenize, hafter⟩ :=
    Lexer.exists_tokenize (.start source file Rule.defaults) hfilled hrules
  exact ⟨segments, after, hcuts, by rw [tokenizeWith, hnew]; simp only [htokenize]; rfl, hafter⟩

end ExprLang
