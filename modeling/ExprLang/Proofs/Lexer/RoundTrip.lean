import ExprLang.Proofs.Lexer.Scanner

-- What has been a token once is a token again wherever its lexeme is put
-- between two spaces.

namespace ExprLang

open Scanner

def Token.Lexed (token : Token) : Prop :=
  ∃ source file tokens, tokenize source file = .ok tokens ∧ token ∈ tokens

-- A token of which the lexeme is a piece, whatever is around it.
def Token.Scanned (token : Token) : Prop :=
  ∃ c run, (∀ d ∈ run, joins (actionOf c) d = true) ∧
    (actionOf c).token? (String.ofList (c :: run)) = some (token.withLocation none)

variable {token : Token} {tokens : List Token}

theorem Token.Lexed.scanned (h : token.Lexed) : token.Scanned := by
  obtain ⟨source, file, tokens, htokenize, hmem⟩ := h
  obtain ⟨again, hagain, hscan⟩ := exists_tokenize source file
  obtain rfl := Except.ok.inj (htokenize.symm.trans hagain)
  have hbare : token.withLocation none ∈ scanTokens source.toList := by
    rw [← hscan]
    exact List.mem_map_of_mem hmem
  obtain ⟨piece, hpiece, htoken⟩ := List.mem_filterMap.mp hbare
  obtain ⟨c, run, rfl, hrun⟩ := exists_run_of_mem_scan hpiece
  exact ⟨c, run, hrun, htoken⟩

-- No token of a source looks like the end of it.
theorem Token.Scanned.kind_ne (h : token.Scanned) : token.kind ≠ .endOfInput := by
  obtain ⟨c, run, -, htoken⟩ := h
  have haction : actionOf c ≠ .punctuation .endOfInput := by
    unfold actionOf
    split_ifs <;> simp
  change (token.withLocation none).kind ≠ .endOfInput
  generalize token.withLocation none = bare at htoken
  generalize actionOf c = action at haction htoken
  cases action with
  | skip => cases htoken
  | word =>
    obtain rfl := Option.some.inj htoken
    rw [wordToken_eq]
    split <;> exact TokenKind.noConfusion
  | number | operator | other =>
    obtain rfl := Option.some.inj htoken
    exact TokenKind.noConfusion
  | punctuation kind =>
    obtain rfl := Option.some.inj htoken
    exact fun hkind => haction (congrArg Action.punctuation hkind)

-- In front of a space, or at the end, a lexeme is what it was before.
theorem Token.Scanned.scanTokens_append (h : token.Scanned) (tail : List Char)
    (htail : ∀ d ∈ tail.head?, d = ' ') :
    scanTokens (token.lexeme.toList ++ tail) = token.withLocation none :: scanTokens tail := by
  obtain ⟨c, run, hrun, htoken⟩ := h
  have hlexeme : (token.withLocation none).lexeme = String.ofList (c :: run) :=
    Action.lexeme_of_token? htoken
  change token.lexeme = _ at hlexeme
  have hspace : joins (actionOf c) ' ' = false := by cases actionOf c <;> rfl
  have hstop : ∀ d ∈ tail.head?, joins (actionOf c) d = false := by
    intro d hd
    rw [htail d hd, hspace]
  rw [hlexeme, String.toList_ofList, scanTokens, scan_append hrun hstop, List.filterMap_cons,
    Piece.token?, htoken]
  rfl

-- A separator is a piece by itself, and no token.
theorem scanTokens_separator {c : Char} (h : isSeparator c = true) (cs : List Char) :
    scanTokens (c :: cs) = scanTokens cs := by
  have hskip : actionOf c = .skip := by rw [actionOf, if_pos h]
  rw [scanTokens_cons, pieceAt, hskip, (run_of_alone rfl cs).2]
  rfl

theorem scanTokens_intercalate (h : ∀ token ∈ tokens, token.Scanned) :
    scanTokens (" ".intercalate (tokens.map (·.lexeme))).toList =
      tokens.map (·.withLocation none) := by
  induction tokens with
  | nil => simp [scanTokens, scan]
  | cons token tokens ih =>
    obtain ⟨htoken, htokens⟩ := List.forall_mem_cons.mp h
    have hmore := ih htokens
    cases tokens with
    | nil =>
      have halone := htoken.scanTokens_append [] (by simp)
      simpa [scanTokens, scan] using halone
    | cons next tokens =>
      let text := " ".intercalate ((next :: tokens).map (·.lexeme))
      have hfirst := htoken.scanTokens_append (' ' :: text.toList) (by simp)
      rw [scanTokens_separator rfl, hmore] at hfirst
      simpa [text] using hfirst

-- Tokens of any sources in any order, with ends of input among them, are the
-- tokens of the text they are put into.
theorem exists_tokenize_untokenize (file : String)
    (h : ∀ token ∈ tokens, token.kind = .endOfInput ∨ token.Lexed) :
    ∃ again, tokenize (untokenize tokens) file = .ok again ∧
      again.map (·.withLocation none) =
        (tokens.filter fun t => t.kind ≠ .endOfInput).map (·.withLocation none) := by
  have hscanned : ∀ token ∈ tokens.filter fun t => t.kind ≠ .endOfInput, token.Scanned := by
    intro token htoken
    obtain ⟨hmem, hkind⟩ := List.mem_filter.mp htoken
    have hlexed := (h token hmem).resolve_left (by simpa using hkind)
    exact hlexed.scanned
  obtain ⟨again, htokenize, hagain⟩ := exists_tokenize (untokenize tokens) file
  refine ⟨again, htokenize, ?_⟩
  rw [hagain, untokenize, scanTokens_intercalate hscanned]

-- No token of a source is left out when all of them are put into a text again.
theorem exists_tokenize_again (source file file' : String) :
    ∃ tokens again, tokenize source file = .ok tokens ∧
      tokenize (untokenize tokens) file' = .ok again ∧
      again.map (·.withLocation none) = tokens.map (·.withLocation none) := by
  obtain ⟨tokens, htokens, -⟩ := exists_tokenize source file
  have hlexed : ∀ token ∈ tokens, token.Lexed := fun token hmem =>
    ⟨source, file, tokens, htokens, hmem⟩
  have hall : tokens.filter (fun t => t.kind ≠ .endOfInput) = tokens :=
    List.filter_eq_self.mpr fun token hmem => by simpa using (hlexed token hmem).scanned.kind_ne
  obtain ⟨again, htokenize, hagain⟩ :=
    exists_tokenize_untokenize file' fun token hmem => .inr (hlexed token hmem)
  exact ⟨tokens, again, htokens, htokenize, hall ▸ hagain⟩

-- Writing tokens out and reading them again gives them back, wherever they come
-- from, and so it does for all tokens of one source.
theorem tokenize_untokenize :
    (∀ (tokens : List Token) (file : String),
      (∀ token ∈ tokens, token.kind = .endOfInput ∨ token.Lexed) →
      ∃ again, tokenize (untokenize tokens) file = .ok again ∧
        again.map (·.withLocation none) =
          (tokens.filter fun t => t.kind ≠ .endOfInput).map (·.withLocation none)) ∧
    (∀ source file file' : String, ∃ tokens again, tokenize source file = .ok tokens ∧
      tokenize (untokenize tokens) file' = .ok again ∧
      again.map (·.withLocation none) = tokens.map (·.withLocation none)) :=
  ⟨fun _ file => exists_tokenize_untokenize file, exists_tokenize_again⟩

-- Tokens of two sources, the later ones first, and an end of input.
def mixedTokens : List Token :=
  [⟨.identifier, "x", .text "x", some ⟨"first", 1, 5, 4⟩⟩,
    ⟨.number, "1.5", .number (parseNumber "1.5"), some ⟨"second", 1, 4, 3⟩⟩,
    ⟨.endOfInput, "?", .absent, none⟩,
    ⟨.define, "def", .absent, some ⟨"first", 1, 1, 0⟩⟩,
    ⟨.number, "..", .number (parseNumber ".."), some ⟨"second", 1, 1, 0⟩⟩]

theorem tokenize_untokenize_mixed :
    (∀ token ∈ mixedTokens, token.kind = .endOfInput ∨ token.Lexed) ∧
      ∃ again, tokenize (untokenize mixedTokens) "third" = .ok again ∧
        again.map (·.withLocation none) =
          [⟨.identifier, "x", .text "x", none⟩,
            ⟨.number, "1.5", .number (parseNumber "1.5"), none⟩,
            ⟨.define, "def", .absent, none⟩,
            ⟨.number, "..", .number (parseNumber ".."), none⟩] := by
  have first : tokenize "def x" "first" =
      .ok [⟨.define, "def", .absent, some ⟨"first", 1, 1, 0⟩⟩,
        ⟨.identifier, "x", .text "x", some ⟨"first", 1, 5, 4⟩⟩] := rfl
  have second : tokenize ".. 1.5" "second" =
      .ok [⟨.number, "..", .number (parseNumber ".."), some ⟨"second", 1, 1, 0⟩⟩,
        ⟨.number, "1.5", .number (parseNumber "1.5"), some ⟨"second", 1, 4, 3⟩⟩] := rfl
  have hall : ∀ token ∈ mixedTokens, token.kind = .endOfInput ∨ token.Lexed := by
    intro token hmem
    simp only [mixedTokens, List.mem_cons, List.not_mem_nil, or_false] at hmem
    rcases hmem with rfl | rfl | rfl | rfl | rfl
    · exact .inr ⟨_, _, _, first, by simp⟩
    · exact .inr ⟨_, _, _, second, by simp⟩
    · exact .inl rfl
    · exact .inr ⟨_, _, _, first, by simp⟩
    · exact .inr ⟨_, _, _, second, by simp⟩
  exact ⟨hall, tokenize_untokenize.1 mixedTokens "third" hall⟩

end ExprLang
