import ExprLang.Proofs.Lexer.RoundTrip
import ExprLang.Proofs.Lexer.Runs
import Mathlib.Data.List.Basic

-- Two texts put together have the tokens of both, unless the last token of the one
-- goes on in the other.

namespace ExprLang

-- The token takes up the characters up to there.
def Token.EndsAt (token : Token) (stop : Nat) : Prop :=
  ∃ start, token.BeginsAt start ∧ start + token.lexeme.length = stop

-- Words go on with letters and digits, numbers with digits and points.
def Token.GoesOn (token : Token) (c : Char) : Prop :=
  (token.kind = .identifier ∨ token.kind = .define) ∧ c.isAlphanum = true ∨
    token.kind = .number ∧ (c.isDigit = true ∨ c = '.')

-- The first text ends in one of its tokens, and with that the second text goes on.
def Fuses (tokens : List Token) (first second : String) : Prop :=
  ∃ last c, tokens.getLast? = some last ∧ last.EndsAt first.length ∧
    second.toList.head? = some c ∧ last.GoesOn c

theorem Token.EndsAt.unique {token : Token} {stop stop' : Nat} (h : token.EndsAt stop)
    (h' : token.EndsAt stop') : stop = stop' := by
  obtain ⟨start, hstart, rfl⟩ := h
  obtain ⟨start', hstart', rfl⟩ := h'
  have hsame := Option.some.inj (hstart.symm.trans hstart')
  omega

namespace Scanner

variable {cs tail : List Char} {front pieces : List Piece} {piece : Piece} {file : String}
  {before : List Char}

-- The characters of the tail that go with the last piece make it longer. All pieces
-- before it end where the next one begins, whatever the tail is.
theorem scan_append_last (h : scan cs = front ++ [piece]) (tail : List Char) :
    scan (cs ++ tail) =
      front ++ ⟨piece.action, piece.text ++ tail.takeWhile (joins piece.action)⟩ ::
        scan (tail.dropWhile (joins piece.action)) := by
  fun_induction scan cs generalizing front with
  | case1 => simp at h
  | case2 c rest ih =>
    have hparts := List.takeWhile_append_dropWhile (p := joins (actionOf c)) (l := rest)
    cases hmore : rest.dropWhile (joins (actionOf c)) with
    | nil =>
      rw [hmore, scan, ← List.nil_append [pieceAt c rest]] at h
      obtain ⟨rfl, hpiece⟩ := List.append_inj' h rfl
      obtain rfl := List.cons.inj hpiece |>.1
      rw [hmore, List.append_nil] at hparts
      have hall : ∀ d ∈ rest, joins (actionOf c) d = true := List.takeWhile_eq_self_iff.mp hparts
      rw [List.cons_append, scan, pieceAt, List.takeWhile_append_of_pos hall,
        List.dropWhile_append_of_pos hall, pieceAt, hparts]
      rfl
    | cons d more =>
      have hd : joins (actionOf c) d = false := by
        have hhead := List.head?_dropWhile_not (joins (actionOf c)) rest
        rwa [hmore] at hhead
      rw [hmore] at h ih hparts
      cases front with
      | nil =>
        have hnil := (List.cons.inj h).2
        simp [scan] at hnil
      | cons first front =>
        obtain ⟨rfl, hrest⟩ := List.cons.inj h
        have hrun : ∀ e ∈ rest.takeWhile (joins (actionOf c)), joins (actionOf c) e = true :=
          fun e he => List.mem_takeWhile_imp he
        have hhead : ∀ e ∈ (d :: more ++ tail).head?, joins (actionOf c) e = false := by
          simpa using hd
        have hscan := scan_append hrun hhead
        rw [List.cons_append, ← List.append_assoc, hparts] at hscan
        rw [List.cons_append, hscan, ih hrest]
        rfl

-- The tokens of pieces that stand behind one another.
def tokensOfPieces (file : String) : List Char → List Piece → List Token
  | _, [] => []
  | before, piece :: rest =>
    (piece.token?.map (·.withLocation (some (.behind file before)))).toList ++
      tokensOfPieces file (before ++ piece.text) rest

theorem tokensBehind_eq_tokensOfPieces (file : String) (before cs : List Char) :
    tokensBehind file before cs = tokensOfPieces file before (scan cs) := by
  fun_induction scan cs generalizing before with
  | case1 => simp [tokensBehind, tokensOfPieces]
  | case2 c rest ih => rw [tokensBehind_cons, tokensOfPieces, ih]

theorem tokensOfPieces_append (file : String) (before : List Char) (front pieces : List Piece) :
    tokensOfPieces file before (front ++ pieces) =
      tokensOfPieces file before front ++
        tokensOfPieces file (before ++ front.flatMap Piece.text) pieces := by
  induction front generalizing before with
  | nil => simp [tokensOfPieces]
  | cons piece front ih => simp [tokensOfPieces, ih]

theorem Piece.lexeme_of_token? {token : Token} (h : piece.token? = some token) :
    token.lexeme.toList = piece.text := by
  rw [Action.lexeme_of_token? h, String.toList_ofList]

theorem Piece.endsAt {token : Token} (h : piece.token? = some token) (file : String)
    (before : List Char) :
    (token.withLocation (some (.behind file before))).EndsAt (before ++ piece.text).length := by
  refine ⟨before.length, rfl, ?_⟩
  have hlexeme : token.lexeme.length = piece.text.length := by
    rw [← String.length_toList, lexeme_of_token? h]
  rw [List.length_append, ← hlexeme]
  rfl

-- No token goes further than the pieces do.
theorem le_of_mem_tokensOfPieces {token : Token} {stop : Nat}
    (hmem : token ∈ tokensOfPieces file before pieces) (hstop : token.EndsAt stop) :
    stop ≤ (before ++ pieces.flatMap Piece.text).length := by
  induction pieces generalizing before with
  | nil => cases hmem
  | cons piece pieces ih =>
    rw [List.flatMap_cons, ← List.append_assoc]
    rcases List.mem_append.mp hmem with hfirst | hrest
    · cases htoken : piece.token? with
      | none => simp [htoken] at hfirst
      | some bare =>
        obtain rfl : token = bare.withLocation (some (.behind file before)) := by
          simpa [htoken] using hfirst
        rw [hstop.unique (Piece.endsAt htoken file before)]
        exact (List.prefix_append _ _).length_le
    · exact ih hrest

-- What goes with a piece goes on with its token.
theorem goesOn_iff {c d : Char} {text : String} {token : Token}
    (h : (actionOf c).token? text = some token) :
    joins (actionOf c) d = true ↔ token.GoesOn d := by
  have hpunctuation : ∀ kind, actionOf c = .punctuation kind →
      kind ≠ .identifier ∧ kind ≠ .define ∧ kind ≠ .number := by
    intro kind haction
    rcases kind_of_actionOf haction with rfl | rfl | rfl <;> decide
  generalize actionOf c = action at h hpunctuation ⊢
  cases action with
  | skip => cases h
  | word =>
    obtain rfl := Option.some.inj h
    rw [wordToken_eq]
    split <;> simp [joins, Token.GoesOn]
  | number =>
    obtain rfl := Option.some.inj h
    simp [joins, Token.GoesOn, isNumeric]
  | operator | other =>
    obtain rfl := Option.some.inj h
    simp [joins, Token.GoesOn, otherToken]
  | punctuation kind =>
    obtain rfl := Option.some.inj h
    obtain ⟨hidentifier, hdefine, hnumber⟩ := hpunctuation kind rfl
    simp [joins, Token.GoesOn, hidentifier, hdefine, hnumber]

theorem exists_token_of_joins {action : Action} {d : Char} (h : joins action d = true)
    (text : String) : ∃ token, action.token? text = some token := by
  cases action with
  | word | number => exact ⟨_, rfl⟩
  | skip | operator | other | punctuation => cases h

theorem joins_separator {c : Char} (h : isSeparator c = true) (action : Action) :
    joins action c = false := by
  simp only [isSeparator, Bool.or_eq_true, decide_eq_true_eq] at h
  rcases h with (rfl | rfl) | rfl <;> cases action <;> rfl

-- Texts fuse where the first character of the second goes with the last piece of the
-- first. A piece that is skipped ends behind all tokens, and nothing goes with it.
theorem fuses_iff {first : String} (h : scan first.toList = front ++ [piece])
    (file second : String) :
    Fuses (tokensOfPieces file [] (scan first.toList)) first second ↔
      ∃ d ∈ second.toList.head?, joins piece.action d = true := by
  obtain ⟨c, run, rfl, -⟩ := exists_run_of_mem_scan (h ▸ List.mem_append_right front (.head []))
  have htext : front.flatMap Piece.text ++ c :: run = first.toList := by
    rw [← flatMap_text_scan first.toList, h, List.flatMap_append]
    simp
  have hlength := congrArg List.length htext
  rw [String.length_toList] at hlength
  rw [h, tokensOfPieces_append, List.nil_append]
  cases htoken : (⟨actionOf c, c :: run⟩ : Piece).token? with
  | none =>
    simp only [tokensOfPieces, htoken, Option.map_none, Option.toList_none, List.append_nil]
    constructor
    · rintro ⟨last, d, hlast, hends, -⟩
      have hle := le_of_mem_tokensOfPieces (List.mem_of_getLast? hlast) hends
      simp only [List.nil_append, List.length_append, List.length_cons] at hle hlength
      omega
    · rintro ⟨d, -, hjoins⟩
      obtain ⟨token, hsome⟩ := exists_token_of_joins hjoins (String.ofList (c :: run))
      cases htoken.symm.trans hsome
  | some bare =>
    have hends := Piece.endsAt htoken file (front.flatMap Piece.text)
    simp only [tokensOfPieces, htoken, Option.map_some, Option.toList_some, List.append_nil]
    constructor
    · rintro ⟨last, d, hlast, -, hd, hgoes⟩
      rw [List.getLast?_concat] at hlast
      obtain rfl := Option.some.inj hlast
      exact ⟨d, hd, (goesOn_iff htoken).mpr hgoes⟩
    · rintro ⟨d, hd, hjoins⟩
      refine ⟨_, d, List.getLast?_concat .., ?_, hd, (goesOn_iff htoken).mp hjoins⟩
      rwa [hlength] at hends

theorem scanTokens_append (h : ∀ front piece, scan cs = front ++ [piece] →
      ∀ d ∈ tail.head?, joins piece.action d = false) :
    scanTokens (cs ++ tail) = scanTokens cs ++ scanTokens tail := by
  rcases List.eq_nil_or_concat' (scan cs) with hnil | ⟨front, piece, hscan⟩
  · have htext := flatMap_text_scan cs
    rw [hnil, List.flatMap_nil] at htext
    simp [← htext, scanTokens, scan]
  · obtain ⟨htake, hdrop⟩ := Text.span_none (h front piece hscan)
    have happend := scan_append_last hscan tail
    rw [htake, hdrop, List.append_nil, List.append_cons, ← hscan] at happend
    rw [scanTokens, happend, List.filterMap_append]
    rfl

theorem scanTokens_append_separator {c : Char} (h : isSeparator c = true) (cs tail : List Char) :
    scanTokens (cs ++ c :: tail) = scanTokens cs ++ scanTokens tail := by
  rw [← scanTokens_separator h tail]
  refine scanTokens_append ?_
  rintro front piece - d ⟨⟩
  exact joins_separator h piece.action

-- The token of the piece that goes on has a longer lexeme, and all before it are there.
theorem map_lexeme_scanTokens_append_ne (h : scan cs = front ++ [piece]) {d : Char}
    (hd : d ∈ tail.head?) (hjoins : joins piece.action d = true) :
    (scanTokens (cs ++ tail)).map (·.lexeme) ≠
      (scanTokens cs ++ scanTokens tail).map (·.lexeme) := by
  obtain ⟨rest, rfl⟩ := List.head?_eq_some_iff.mp hd
  let longer : Piece :=
    ⟨piece.action, piece.text ++ (d :: rest).takeWhile (joins piece.action)⟩
  obtain ⟨token, htoken⟩ := exists_token_of_joins hjoins (String.ofList piece.text)
  obtain ⟨token', htoken'⟩ := exists_token_of_joins hjoins (String.ofList longer.text)
  have hlexeme : token.lexeme.toList = piece.text := Piece.lexeme_of_token? htoken
  have hlexeme' : token'.lexeme.toList = longer.text := Piece.lexeme_of_token? htoken'
  intro heq
  have hscan : scan (cs ++ d :: rest) = front ++ longer :: _ := scan_append_last h (d :: rest)
  rw [scanTokens, hscan, scanTokens, h, List.filterMap_append, List.filterMap_append,
    List.append_assoc, List.map_append, List.map_append,
    List.filterMap_cons_some (show longer.token? = some token' from htoken'),
    List.filterMap_cons_some (show piece.token? = some token from htoken)] at heq
  have hfirst := (List.cons.inj (List.append_cancel_left heq)).1
  have hlength := congrArg (fun s : String => s.toList.length) hfirst
  simp only [hlexeme, hlexeme', longer, List.takeWhile_cons, hjoins, if_true, List.length_append,
    List.length_cons] at hlength
  omega

end Scanner

open Scanner

section Same

variable {tokens others : List Token}

theorem isEqv_same_of_map_withLocation_eq
    (h : tokens.map (·.withLocation none) = others.map (·.withLocation none)) :
    tokens.isEqv others Token.same = true := by
  induction tokens generalizing others with
  | nil =>
    cases others with
    | nil => rfl
    | cons other others => cases h
  | cons token tokens ih =>
    cases others with
    | nil => cases h
    | cons other others =>
      obtain ⟨hfirst, hrest⟩ := List.cons.inj h
      have hbare : token.withLocation none = other.withLocation none := hfirst
      have hsame : token.same other = true := by
        change (token.withLocation none).same (other.withLocation none) = true
        rw [hbare]
        exact Token.same_refl _
      rw [List.isEqv, hsame, ih hrest]
      rfl

theorem map_lexeme_eq_of_isEqv_same (h : tokens.isEqv others Token.same = true) :
    tokens.map (·.lexeme) = others.map (·.lexeme) := by
  induction tokens generalizing others with
  | nil =>
    cases others with
    | nil => rfl
    | cons other others => cases h
  | cons token tokens ih =>
    cases others with
    | nil => cases h
    | cons other others =>
      obtain ⟨hfirst, hrest⟩ := (Bool.and_eq_true _ _).mp h
      have hlexeme : token.lexeme = other.lexeme := by
        simp only [Token.same, Bool.and_eq_true, decide_eq_true_eq] at hfirst
        exact hfirst.1.2
      rw [List.map_cons, List.map_cons, hlexeme, ih hrest]

theorem map_lexeme_withLocation_none (tokens : List Token) :
    (tokens.map (·.withLocation none)).map (·.lexeme) = tokens.map (·.lexeme) := by
  rw [List.map_map]
  rfl

end Same

theorem tokenize_eq_tokensOfPieces (source file : String) :
    tokenize source file = .ok (tokensOfPieces file [] (scan source.toList)) ∧
      (tokensOfPieces file [] (scan source.toList)).map (·.withLocation none) =
        scanTokens source.toList := by
  obtain ⟨segments, after, hcuts, htokenize, -⟩ :=
    exists_tokenizeWith source file PatternCache.sound_empty
  have htokens : tokensOf file source.toList 0 segments =
      tokensOfPieces file [] (scan source.toList) :=
    (hcuts.tokensOf_eq rfl).trans (tokensBehind_eq_tokensOfPieces file [] source.toList)
  rw [tokenize, htokenize, htokens]
  refine ⟨rfl, ?_⟩
  rw [← htokens, map_withLocation_tokensOf, ← hcuts.scanTokens_eq rfl, List.drop_zero]

section Joined

variable {first second file : String}

theorem scanTokens_append_of_not_fuses
    (h : ¬ Fuses (tokensOfPieces file [] (scan first.toList)) first second) :
    scanTokens (first.toList ++ second.toList) =
      scanTokens first.toList ++ scanTokens second.toList := by
  refine scanTokens_append fun front piece hlast d hd => ?_
  by_contra hjoins
  exact h ((fuses_iff hlast file second).mpr ⟨d, hd, by simpa using hjoins⟩)

theorem map_lexeme_ne_of_fuses
    (h : Fuses (tokensOfPieces file [] (scan first.toList)) first second) :
    (scanTokens (first.toList ++ second.toList)).map (·.lexeme) ≠
      (scanTokens first.toList ++ scanTokens second.toList).map (·.lexeme) := by
  rcases List.eq_nil_or_concat' (scan first.toList) with hnil | ⟨front, piece, hlast⟩
  · obtain ⟨last, c, hmem, -⟩ := h
    rw [hnil] at hmem
    cases hmem
  · obtain ⟨d, hd, hjoins⟩ := (fuses_iff hlast file second).mp h
    exact map_lexeme_scanTokens_append_ne hlast hd hjoins

end Joined

-- Two texts have together the tokens of both if and only if they do not fuse. So they
-- always have if they are kept apart by a blank.
theorem tokenize_append_iff (first second file : String) :
    ∃ tokens others joined, tokenize first file = .ok tokens ∧
      tokenize second file = .ok others ∧ tokenize (first ++ second) file = .ok joined ∧
      (joined.isEqv (tokens ++ others) Token.same = true ↔ ¬ Fuses tokens first second) ∧
      (joined.map (·.withLocation none) = (tokens ++ others).map (·.withLocation none) ↔
        ¬ Fuses tokens first second) ∧
      ∀ c, c = ' ' ∨ c = '\t' ∨ c = '\n' → ∃ apart,
        tokenize (first ++ String.singleton c ++ second) file = .ok apart ∧
          apart.isEqv (tokens ++ others) Token.same = true ∧
          apart.map (·.withLocation none) = (tokens ++ others).map (·.withLocation none) := by
  obtain ⟨htokens, hbare⟩ := tokenize_eq_tokensOfPieces first file
  obtain ⟨hothers, hbare'⟩ := tokenize_eq_tokensOfPieces second file
  obtain ⟨joined, hjoined, hscan⟩ := exists_tokenize (first ++ second) file
  generalize htokens' : tokensOfPieces file [] (scan first.toList) = tokens at htokens hbare
  generalize tokensOfPieces file [] (scan second.toList) = others at hothers hbare'
  have hboth : (tokens ++ others).map (·.withLocation none) =
      scanTokens first.toList ++ scanTokens second.toList := by
    rw [List.map_append, hbare, hbare']
  rw [String.toList_append] at hscan
  have hapart : ¬ Fuses tokens first second →
      joined.map (·.withLocation none) = (tokens ++ others).map (·.withLocation none) := by
    intro hfuses
    rw [← htokens'] at hfuses
    rw [hscan, hboth, scanTokens_append_of_not_fuses hfuses]
  have hfused : joined.isEqv (tokens ++ others) Token.same = true →
      ¬ Fuses tokens first second := by
    intro hsame hfuses
    rw [← htokens'] at hfuses
    have hlexemes := map_lexeme_eq_of_isEqv_same hsame
    rw [← map_lexeme_withLocation_none, ← map_lexeme_withLocation_none (_ ++ _), hscan,
      hboth] at hlexemes
    exact map_lexeme_ne_of_fuses hfuses hlexemes
  refine ⟨tokens, others, joined, htokens, hothers, hjoined, ⟨hfused, ?_⟩, ⟨?_, hapart⟩, ?_⟩
  · exact fun hfuses => isEqv_same_of_map_withLocation_eq (hapart hfuses)
  · exact fun heq => hfused (isEqv_same_of_map_withLocation_eq heq)
  · intro c hc
    have hblank : isSeparator c = true := by rcases hc with rfl | rfl | rfl <;> rfl
    obtain ⟨apart, htokenize, hscan⟩ :=
      exists_tokenize (first ++ String.singleton c ++ second) file
    have hkept : apart.map (·.withLocation none) =
        (tokens ++ others).map (·.withLocation none) := by
      rw [hscan, hboth, String.toList_append, String.toList_append, String.toList_singleton,
        List.append_assoc, List.singleton_append, scanTokens_append_separator hblank]
    exact ⟨apart, htokenize, isEqv_same_of_map_withLocation_eq hkept, hkept⟩

private def partToken (part : String) : Token :=
  ⟨.identifier, part, .text part, some ⟨"input", 1, 1, 0⟩⟩

-- The parts of a word make up another word, and a sign after the first part does not.
theorem tokenize_append_iff_parts :
    Fuses [partToken "de"] "de" "f" ∧ ¬ Fuses [partToken "de"] "de" "+f" ∧
      (∃ joined, tokenize "def" "input" = .ok joined ∧
        ¬ joined.isEqv ([partToken "de"] ++ [partToken "f"]) Token.same = true) ∧
      ∃ apart, tokenize "de\tf" "input" = .ok apart ∧
        apart.isEqv ([partToken "de"] ++ [partToken "f"]) Token.same = true := by
  have hfirst : tokenize "de" "input" = .ok [partToken "de"] := rfl
  have hsecond : tokenize "f" "input" = .ok [partToken "f"] := rfl
  have hfuses : Fuses [partToken "de"] "de" "f" :=
    ⟨_, 'f', rfl, ⟨0, rfl, rfl⟩, rfl, .inl ⟨.inl rfl, rfl⟩⟩
  have hapart : ¬ Fuses [partToken "de"] "de" "+f" := by
    rintro ⟨_, _, ⟨⟩, -, ⟨⟩, ⟨-, hsign⟩ | ⟨hkind, -⟩⟩
    · cases hsign
    · cases hkind
  obtain ⟨tokens, others, joined, htokens, hothers, hjoined, hsame, -, hblank⟩ :=
    tokenize_append_iff "de" "f" "input"
  obtain rfl := Except.ok.inj (hfirst.symm.trans htokens)
  obtain rfl := Except.ok.inj (hsecond.symm.trans hothers)
  obtain ⟨apart, htokenize, heq, -⟩ := hblank '\t' (.inr (.inl rfl))
  exact ⟨hfuses, hapart, ⟨joined, hjoined, fun h => hsame.mp h hfuses⟩, apart, htokenize, heq⟩

end ExprLang
