import ExprLang.Proofs.Lexer.Place
import ExprLang.Proofs.Lexer.RoundTrip
import ExprLang.Proofs.Parser.EarliestFault
import ExprLang.Source

-- What a program is rejected for is shown at a place of its source: where the
-- reported token stands, or behind the last token if that is the end of the input.

namespace ExprLang

open Scanner

section Ending

variable {rules : List Rule} {source : List Char} {position stop : Nat} {segments : List Segment}
  {tokens : List Token} {token last : Token}

-- A line feed is always skipped.
theorem Token.Scanned.newline_not_mem (h : token.Scanned) : '\n' ∉ token.lexeme.toList := by
  obtain ⟨c, run, hrun, htoken⟩ := h
  have hlexeme : (token.withLocation none).lexeme = String.ofList (c :: run) :=
    Action.lexeme_of_token? htoken
  have hlist : token.lexeme.toList = c :: run :=
    (congrArg String.toList hlexeme).trans String.toList_ofList
  rw [hlist]
  intro hmem
  rcases List.mem_cons.mp hmem with rfl | hmem
  · cases htoken
  · have hjoins := hrun '\n' hmem
    cases haction : actionOf c <;> rw [haction] at hjoins <;> cases hjoins

theorem isSeparator_of_token?_eq_none {c : Char} {text : String}
    (h : (actionOf c).token? text = none) : isSeparator c = true := by
  by_contra hseparator
  rw [actionOf, if_neg hseparator] at h
  split_ifs at h <;> cases h

-- What is skipped by the rules of the language is a blank.
theorem Segment.Begins.separators {segment : Segment}
    (h : segment.Begins Pattern Rule.defaults source position)
    (hskipped : segment.Skipped) : ∀ c ∈ segment.text, isSeparator c = true := by
  obtain ⟨c, rest, -, htext, htoken, -⟩ := h.exists_piece
  have hnone : (pieceAt c rest).token? = none := by
    rw [← htoken]
    exact Segment.token?_eq_none.mpr hskipped
  have hseparator := isSeparator_of_token?_eq_none hnone
  have haction : actionOf c = .skip := by rw [actionOf, if_pos hseparator]
  rw [htext, pieceAt, haction, (run_of_alone rfl rest).1]
  exact List.forall_mem_singleton.mpr hseparator

theorem Cuts.separators (h : Cuts Pattern Rule.defaults source position segments stop)
    (hstop : stop = source.length) (hskipped : ∀ segment ∈ segments, segment.Skipped) :
    ∀ c ∈ source.drop position, isSeparator c = true := by
  induction h with
  | nil => simp [hstop]
  | @cons position stop segment segments hbegins hrest ih =>
    obtain ⟨hfirst, hmore⟩ := List.forall_mem_cons.mp hskipped
    intro c hc
    rw [hbegins.drop_eq] at hc
    rcases List.mem_append.mp hc with hsegment | hbehind
    · exact hbegins.separators hfirst c hsegment
    · exact ih hstop hmore c hbehind

-- Behind the last token all is skipped.
theorem Gapped.behind_last {α : Type} [PatternEngine α]
    (h : Gapped α rules source position tokens) (hlast : tokens.getLast? = some last) :
    ∃ offset skipped, last.BeginsAt offset ∧
      Cuts α rules source (offset + last.lexeme.length) skipped source.length ∧
      ∀ segment ∈ skipped, segment.Skipped := by
  induction tokens generalizing position with
  | nil => cases hlast
  | cons token tokens ih =>
    obtain ⟨offset, -, hoffset, -, -, hrest⟩ := h
    cases tokens with
    | nil =>
      obtain rfl := Option.some.inj hlast
      obtain ⟨skipped, hcuts, hall⟩ := hrest
      exact ⟨offset, skipped, hoffset, hcuts, hall⟩
    | cons next tokens =>
      rw [List.getLast?_cons_cons] at hlast
      exact ih hrest hlast

end Ending

section Places

variable {source : List Char} {file : String} {tokens : List Token} {segments : List Segment}
  {table : PrecedenceTable} {place : Nat} {cause : Cause}

-- A program without tokens has no fault.
theorem FaultAt.tokens_ne_nil (h : Grammar.FaultAt table tokens place cause) : tokens ≠ [] := by
  rintro rfl
  obtain ⟨-, position, hwalk, hfault⟩ := h
  rw [List.take_nil] at hwalk
  obtain rfl := Except.ok.inj hwalk
  cases hfault

-- The end of the input is placed behind the last token.
theorem endLocation_eq {p : Parser} {last : Token} {location : Location}
    (hlast : p.tokens.toList.getLast? = some last) (hlocation : last.location? = some location) :
    p.endLocation = location.shift last.lexeme.length := by
  obtain ⟨kind, lexeme, value, location?⟩ := last
  obtain rfl : location? = some location := hlocation
  rw [Array.getLast?_toList] at hlast
  rw [Parser.endLocation, hlast]

theorem beginsAt_of_behind {token : Token} {offset : Nat} (hle : offset ≤ source.length)
    (hlocation : token.location? = some (.behind file (source.take offset))) :
    token.BeginsAt offset := by
  have hlength : (source.take offset).length = offset := by
    rw [List.length_take, Nat.min_eq_left hle]
  rw [Token.BeginsAt, hlocation, Option.map_some, Location.behind, hlength]

-- The end of the input as the parser reports it: behind the last token, with only
-- blanks to follow.
theorem exists_end (table : PrecedenceTable)
    (hcuts : Cuts Pattern Rule.defaults source 0 segments source.length)
    (hscanned : ∀ token ∈ tokensOf file source 0 segments, token.Scanned) {last : Token}
    (hlast : (tokensOf file source 0 segments).getLast? = some last) :
    ∃ start, last.BeginsAt start ∧ start + last.lexeme.length ≤ source.length ∧
      (Parser.endLocation ⟨(tokensOf file source 0 segments).toArray, table⟩ =
        .behind file (source.take (start + last.lexeme.length))) ∧
      ∀ c ∈ source.drop (start + last.lexeme.length), isSeparator c = true := by
  have hmem := List.mem_of_getLast? hlast
  obtain ⟨start, hlt, hlocation, hlexeme, -⟩ := hcuts.place_of_mem hmem
  have hbegins := beginsAt_of_behind (Nat.le_of_lt hlt) hlocation
  obtain ⟨start', skipped, hbegins', hskipped, hall⟩ := (hcuts.gapped rfl).behind_last hlast
  obtain rfl : start = start' := by
    have hsame := Option.some.inj (hbegins.symm.trans hbegins')
    omega
  have hstop : start + last.lexeme.length ≤ source.length := by
    have hlength := congrArg List.length hlexeme
    simp only [String.length_toList, List.length_take, List.length_drop] at hlength
    omega
  have htext : source.take (start + last.lexeme.length) =
      source.take start ++ last.lexeme.toList := by
    rw [List.take_add, ← hlexeme]
  refine ⟨start, hbegins, hstop, ?_, hskipped.separators rfl hall⟩
  rw [endLocation_eq (by rwa [List.toList_toArray]) hlocation, htext, ← String.length_toList,
    Location.shift_behind (hscanned last hmem).newline_not_mem]

-- The offset at which a token shows that has been read, or else the end behind all
-- of them.
structure Token.ShowsAt (token : Token) (file : String) (source : List Char)
    (tokens : List Token) (offset : Nat) : Prop where
  le : offset ≤ source.length
  location : token.location? = some (.behind file (source.take offset))
  standing : token.kind ≠ .endOfInput →
    token.lexeme.toList = (source.drop offset).take token.lexeme.length
  ending : token.kind = .endOfInput →
    (∃ last start, tokens.getLast? = some last ∧ last.BeginsAt start ∧
      offset = start + last.lexeme.length) ∧
    ∀ c ∈ source.drop offset, isSeparator c = true

theorem exists_showsAt (hcuts : Cuts Pattern Rule.defaults source 0 segments source.length)
    (hscanned : ∀ token ∈ tokensOf file source 0 segments, token.Scanned)
    (h : Grammar.FaultAt table (tokensOf file source 0 segments) place cause) :
    ∃ offset, (Parser.tokenAt ⟨(tokensOf file source 0 segments).toArray, table⟩ place).ShowsAt
      file source (tokensOf file source 0 segments) offset := by
  by_cases hplace : place < (tokensOf file source 0 segments).length
  · have hmem := List.getElem_mem hplace
    rw [Parser.tokenAt_of_lt _ (by simpa using hplace), List.getElem_toArray]
    obtain ⟨offset, hlt, hlocation, hlexeme, -⟩ := hcuts.place_of_mem hmem
    exact ⟨offset, Nat.le_of_lt hlt, hlocation, fun _ => hlexeme,
      fun hend => absurd hend (hscanned _ hmem).kind_ne⟩
  · rw [Parser.tokenAt_of_size_le _ (by simpa using hplace)]
    obtain ⟨last, hlast⟩ := Option.isSome_iff_exists.mp
      (List.getLast?_isSome.mpr (FaultAt.tokens_ne_nil h))
    obtain ⟨start, hbegins, hle, hlocation, hseparators⟩ :=
      exists_end table hcuts hscanned hlast
    refine ⟨start + last.lexeme.length, hle, congrArg some hlocation, fun hne => ?_, fun _ => ?_⟩
    · exact absurd rfl hne
    · exact ⟨⟨last, start, hlast, hbegins, rfl⟩, hseparators⟩

end Places

theorem parseText_eq {source file : String} {tokens : List Token}
    (htokenize : tokenize source file = .ok tokens) :
    parseText source file = (parseTokens tokens .defaults).mapError .syntaxFault := by
  rw [parseText, tokenizeText, htokenize]
  rfl

theorem parseTokens_of_parseText {source file : String} {tokens : List Token}
    {fault : SyntaxFault} (htokenize : tokenize source file = .ok tokens)
    (h : parseText source file = .error (.syntaxFault fault)) :
    parseTokens tokens .defaults = .error fault := by
  rw [parseText_eq htokenize] at h
  cases hparse : parseTokens tokens .defaults with
  | ok definitions =>
    rw [hparse] at h
    cases h
  | error other =>
    rw [hparse] at h
    cases h
    rfl

-- A program that is rejected, unless it nests too deeply, is so at a place of its
-- source. A token that is reported stands there. The end of the input is where
-- the last token ends and only blanks follow.
theorem fault_placed_in_source (source file : String) {fault : SyntaxFault}
    (h : parseText source file = .error (.syntaxFault fault))
    (hcause : fault.cause ≠ .nestingTooDeep) :
    ∃ offset ≤ source.length,
      fault.report.diagnostic.location? = some (.behind file (source.toList.take offset)) ∧
      (fault.token.kind ≠ .endOfInput →
        fault.token.lexeme.toList =
          (source.toList.drop offset).take fault.token.lexeme.length) ∧
      (fault.token.kind = .endOfInput →
        (∃ tokens last start, tokenize source file = .ok tokens ∧ tokens.getLast? = some last ∧
          last.BeginsAt start ∧ offset = start + last.lexeme.length) ∧
        ∀ c ∈ source.toList.drop offset, isSeparator c = true) ∧
      ∀ name, fault.report.diagnostic.location? ≠ some ⟨name, 0, 0, 0⟩ := by
  obtain ⟨segments, after, hcuts, htokenizeWith, -⟩ :=
    exists_tokenizeWith source file PatternCache.sound_empty
  have htokenize : tokenize source file = .ok (tokensOf file source.toList 0 segments) := by
    rw [tokenize, htokenizeWith]
  have hscanned : ∀ token ∈ tokensOf file source.toList 0 segments, token.Scanned :=
    fun token hmem => Token.Lexed.scanned ⟨source, file, _, htokenize, hmem⟩
  have hparse : parseWithin Parser.depthLimit (tokensOf file source.toList 0 segments) .defaults =
      .error fault := parseTokens_of_parseText htokenize h
  obtain ⟨hat, htoken⟩ := faultAt_of_parseWithin hparse hcause
  obtain ⟨offset, hle, hlocation, hstanding, hending⟩ := exists_showsAt hcuts hscanned hat
  rw [← htoken] at hlocation hstanding hending
  have hreport : fault.report.diagnostic.location? =
      some (.behind file (source.toList.take offset)) := by
    simp [SyntaxFault.report, Token.place, hlocation]
  refine ⟨offset, String.length_toList ▸ hle, hreport, hstanding, fun hend => ?_, fun name => ?_⟩
  · obtain ⟨⟨last, start, hlast, hbegins, hoffset⟩, hseparators⟩ := hending hend
    exact ⟨⟨_, last, start, htokenize, hlast, hbegins, hoffset⟩, hseparators⟩
  · rw [hreport]
    exact fun hsome => Location.behind_ne name (Option.some.inj hsome)

-- A sum without its second term, and blanks on two lines behind it.
private def unfinished : String := "def f(a)\n  (a +\t\n "

private def unfinishedTokens : List Token :=
  [⟨.define, "def", .absent, some ⟨"<string>", 1, 1, 0⟩⟩,
    ⟨.identifier, "f", .text "f", some ⟨"<string>", 1, 5, 4⟩⟩,
    ⟨.parensOpen, "(", .absent, some ⟨"<string>", 1, 6, 5⟩⟩,
    ⟨.identifier, "a", .text "a", some ⟨"<string>", 1, 7, 6⟩⟩,
    ⟨.parensClose, ")", .absent, some ⟨"<string>", 1, 8, 7⟩⟩,
    ⟨.parensOpen, "(", .absent, some ⟨"<string>", 2, 3, 11⟩⟩,
    ⟨.identifier, "a", .text "a", some ⟨"<string>", 2, 4, 12⟩⟩,
    ⟨.binaryOperator, "+", .text "+", some ⟨"<string>", 2, 6, 14⟩⟩]

private def unfinishedFault : SyntaxFault :=
  ⟨.expectedExpression, ⟨.endOfInput, "", .absent, some ⟨"<string>", 2, 7, 15⟩⟩⟩

theorem fault_placed_in_source_unfinished :
    parseText unfinished "<string>" = .error (.syntaxFault unfinishedFault) ∧
      ∃ offset ≤ unfinished.length,
        some ⟨"<string>", 2, 7, 15⟩ =
          some (Location.behind "<string>" (unfinished.toList.take offset)) ∧
        (∃ tokens last start, tokenize unfinished "<string>" = .ok tokens ∧
          tokens.getLast? = some last ∧ last.BeginsAt start ∧
          offset = start + last.lexeme.length) ∧
        ∀ c ∈ unfinished.toList.drop offset, isSeparator c = true := by
  have htokenize : tokenize unfinished "<string>" = .ok unfinishedTokens := rfl
  have hfault : parseTokens unfinishedTokens .defaults = .error unfinishedFault := by
    decide +kernel
  have hparse : parseText unfinished "<string>" = .error (.syntaxFault unfinishedFault) := by
    rw [parseText_eq htokenize, hfault]
    rfl
  obtain ⟨offset, hle, hlocation, -, hending, -⟩ :=
    fault_placed_in_source unfinished "<string>" hparse (by decide)
  obtain ⟨hlast, hseparators⟩ := hending rfl
  exact ⟨hparse, offset, hle, hlocation, hlast, hseparators⟩

end ExprLang
