import ExprLang.Proofs.Lexer.Place
import ExprLang.Proofs.Lexer.Scanner

-- The tokens of a source in one pass, with neither rules nor patterns. Words and
-- numbers are the longest runs of their characters, and any other character is
-- alone.

namespace ExprLang

namespace Scanner

def wordAt (place : Location) (run : List Char) : Token :=
  if run = ['d', 'e', 'f'] then ⟨.define, "def", .absent, some place⟩
  else ⟨.identifier, String.ofList run, .text (String.ofList run), some place⟩

def numberAt (place : Location) (run : List Char) : Token :=
  ⟨.number, String.ofList run, .number (parseNumber (String.ofList run)), some place⟩

def markAt (place : Location) (c : Char) : Token :=
  if c = '(' then ⟨.parensOpen, "(", .absent, some place⟩
  else if c = ')' then ⟨.parensClose, ")", .absent, some place⟩
  else if c = ',' then ⟨.comma, ",", .absent, some place⟩
  else if isSign c then
    ⟨.binaryOperator, String.singleton c, .text (String.singleton c), some place⟩
  else ⟨.other, String.singleton c, .text (String.singleton c), some place⟩

-- The letters and digits of ASCII alone make words and numbers.
def tokensBehind (file : String) (before : List Char) : List Char → List Token
  | [] => []
  | c :: rest =>
    let place := Location.behind file before
    if isSeparator c then tokensBehind file (before ++ [c]) rest
    else if c.isAlpha then
      let run := c :: rest.takeWhile Char.isAlphanum
      wordAt place run :: tokensBehind file (before ++ run) (rest.dropWhile Char.isAlphanum)
    else if isNumeric c then
      let run := c :: rest.takeWhile isNumeric
      numberAt place run :: tokensBehind file (before ++ run) (rest.dropWhile isNumeric)
    else markAt place c :: tokensBehind file (before ++ [c]) rest
termination_by text => text.length
decreasing_by
  · simp
  · have := List.length_dropWhile_le Char.isAlphanum rest
    simp only [List.length_cons]
    omega
  · have := List.length_dropWhile_le isNumeric rest
    simp only [List.length_cons]
    omega
  · simp

variable {file : String} {before rest : List Char} {c : Char} {place : Location}

theorem wordToken_withLocation (place : Location) (run : List Char) :
    (wordToken (String.ofList run)).withLocation (some place) = wordAt place run := by
  rw [wordToken_eq, wordAt]
  by_cases hdef : run = ['d', 'e', 'f']
  · subst hdef
    rfl
  · have hne : String.ofList run ≠ "def" := by
      intro heq
      have hlist := congrArg String.toList heq
      rw [String.toList_ofList] at hlist
      exact hdef hlist
    rw [if_neg hdef, if_neg hne]
    rfl

-- A character that begins no run is a token by itself.
theorem token?_mark (place : Location) (hseparator : ¬isSeparator c = true)
    (halpha : ¬c.isAlpha = true) (hnumeric : ¬isNumeric c = true) :
    joins (actionOf c) = (fun _ => false) ∧
      ((actionOf c).token? (String.ofList [c])).map (·.withLocation (some place)) =
        some (markAt place c) := by
  rw [actionOf, if_neg hseparator, if_neg halpha, if_neg hnumeric, markAt]
  by_cases hopen : c = '('
  · subst hopen
    exact ⟨rfl, rfl⟩
  by_cases hclose : c = ')'
  · subst hclose
    exact ⟨rfl, rfl⟩
  by_cases hcomma : c = ','
  · subst hcomma
    exact ⟨rfl, rfl⟩
  rw [if_neg hopen, if_neg hclose, if_neg hcomma, if_neg hopen, if_neg hclose, if_neg hcomma,
    String.singleton_eq_ofList]
  by_cases hsign : isSign c = true
  · rw [if_pos hsign, if_pos hsign]
    exact ⟨rfl, rfl⟩
  · rw [if_neg hsign, if_neg hsign]
    exact ⟨rfl, rfl⟩

-- A piece of the source, as its first character tells, and what is behind it.
theorem tokensBehind_cons (file : String) (before : List Char) (c : Char) (rest : List Char) :
    tokensBehind file before (c :: rest) =
      ((pieceAt c rest).token?.map (·.withLocation (some (.behind file before)))).toList ++
        tokensBehind file (before ++ (pieceAt c rest).text)
          (rest.dropWhile (joins (actionOf c))) := by
  rw [tokensBehind]
  simp only [pieceAt, Piece.token?]
  by_cases hseparator : isSeparator c = true
  · have haction : actionOf c = .skip := by rw [actionOf, if_pos hseparator]
    obtain ⟨hrun, hmore⟩ := run_of_alone (rfl : joins .skip = fun _ => false) rest
    rw [if_pos hseparator, haction, hrun, hmore]
    rfl
  by_cases halpha : c.isAlpha = true
  · have haction : actionOf c = .word := by rw [actionOf, if_neg hseparator, if_pos halpha]
    rw [if_neg hseparator, if_pos halpha, haction, ← wordToken_withLocation]
    rfl
  by_cases hnumeric : isNumeric c = true
  · have haction : actionOf c = .number := by
      rw [actionOf, if_neg hseparator, if_neg halpha, if_pos hnumeric]
    rw [if_neg hseparator, if_neg halpha, if_pos hnumeric, haction]
    rfl
  · obtain ⟨hjoins, htoken⟩ := token?_mark (.behind file before) hseparator halpha hnumeric
    obtain ⟨hrun, hmore⟩ := run_of_alone hjoins rest
    rw [if_neg hseparator, if_neg halpha, if_neg hnumeric, hrun, hmore, htoken]
    rfl

theorem wordAt_spec : (wordAt place (c :: rest)).kind ≠ .endOfInput ∧
    (wordAt place (c :: rest)).lexeme ≠ "" := by
  unfold wordAt
  split <;> simp

theorem markAt_spec : (markAt place c).kind ≠ .endOfInput ∧ (markAt place c).lexeme ≠ "" := by
  unfold markAt
  split_ifs <;> simp

-- Every token has a text, and none is the end of the input.
theorem spec_of_mem_tokensBehind {text : List Char} {token : Token}
    (h : token ∈ tokensBehind file before text) :
    token.kind ≠ .endOfInput ∧ token.lexeme ≠ "" := by
  fun_induction tokensBehind file before text with
  | case1 => simp at h
  | case2 before c rest hseparator ih => exact ih h
  | case3 before c rest place hseparator halpha run ih =>
    rcases List.mem_cons.mp h with rfl | hmem
    · exact wordAt_spec
    · exact ih hmem
  | case4 before c rest place hseparator halpha hnumeric run ih =>
    rcases List.mem_cons.mp h with rfl | hmem
    · simp [numberAt, run]
    · exact ih hmem
  | case5 before c rest place hseparator halpha hnumeric ih =>
    rcases List.mem_cons.mp h with rfl | hmem
    · exact markAt_spec
    · exact ih hmem

end Scanner

open Scanner

variable {source : List Char} {position stop : Nat} {segments : List Segment} {file : String}

-- From each position on the segments that are not skipped are what the one pass
-- finds there.
theorem Cuts.tokensOf_eq (h : Cuts Pattern Rule.defaults source position segments stop)
    (hstop : stop = source.length) :
    tokensOf file source position segments =
      tokensBehind file (source.take position) (source.drop position) := by
  induction h with
  | nil =>
    rw [hstop, List.drop_length, tokensBehind]
    rfl
  | @cons position stop segment segments hbegins hrest ih =>
    obtain ⟨c, rest, hdrop, htext, htoken, hmore⟩ := hbegins.exists_piece
    have hplace : locationIn file source position = .behind file (source.take position) :=
      locationIn_eq_behind (Nat.le_of_lt hbegins.lt_length)
    have hbefore : source.take (position + segment.text.length) =
        source.take position ++ segment.text := by
      rw [List.take_add, hbegins.drop_eq, List.take_left]
    rw [tokensOf_cons, ih hstop, hplace, hbefore, hmore, hdrop, tokensBehind_cons, ← htext,
      ← htoken]

-- Whatever is in the cache, a source has the tokens that the one pass finds.
theorem tokenizeWith_eq_tokensBehind {cache : PatternCache Pattern} (source file : String)
    (hcache : cache.Sound) :
    (tokenizeWith source file cache).2 = .ok (tokensBehind file [] source.toList) ∧
      ∀ token ∈ tokensBehind file [] source.toList,
        token.kind ≠ .endOfInput ∧ token.lexeme ≠ "" := by
  obtain ⟨segments, after, hcuts, htokenize, -⟩ := exists_tokenizeWith source file hcache
  have htokens : tokensOf file source.toList 0 segments = tokensBehind file [] source.toList :=
    hcuts.tokensOf_eq rfl
  refine ⟨?_, fun token htoken => spec_of_mem_tokensBehind htoken⟩
  rw [htokenize, htokens]

-- Runs that end for different reasons, and characters of other scripts.
theorem tokenizeWith_eq_tokensBehind_mixed :
    (.empty : PatternCache Pattern).Sound ∧ tokensBehind "<string>" [] "def d3f1.2.é\r\n(٣".toList =
      [⟨.define, "def", .absent, some ⟨"<string>", 1, 1, 0⟩⟩,
        ⟨.identifier, "d3f1", .text "d3f1", some ⟨"<string>", 1, 5, 4⟩⟩,
        ⟨.number, ".2.", .number (parseNumber ".2."), some ⟨"<string>", 1, 9, 8⟩⟩,
        ⟨.other, "é", .text "é", some ⟨"<string>", 1, 12, 11⟩⟩,
        ⟨.other, "\r", .text "\r", some ⟨"<string>", 1, 13, 12⟩⟩,
        ⟨.parensOpen, "(", .absent, some ⟨"<string>", 2, 1, 14⟩⟩,
        ⟨.other, "٣", .text "٣", some ⟨"<string>", 2, 2, 15⟩⟩] := by
  obtain ⟨htokens, -⟩ := tokenizeWith_eq_tokensBehind "def d3f1.2.é\r\n(٣" "<string>"
    PatternCache.sound_empty
  have hrun : tokenize "def d3f1.2.é\r\n(٣" "<string>" = .ok _ := rfl
  exact ⟨PatternCache.sound_empty, Except.ok.inj (htokens.symm.trans hrun)⟩

end ExprLang
