import ExprLang.Proofs.Lexer.Seam
import ExprLang.Source

-- A program in a file is the program in a text that has the line endings of the
-- file unified. With a carriage return in it that is not the text that is in the
-- file, and the tokens show it.

namespace ExprLang

open Scanner

section CarriageReturns

variable {cs : List Char} {c : Char} {piece : Piece} {token : Token}

theorem Text.unifyLineEndings_of_not_mem (h : '\r' ∉ cs) : unifyLineEndings cs = cs := by
  fun_induction unifyLineEndings cs with
  | case1 rest ih => simp at h
  | case2 rest hrest ih => simp at h
  | case3 c rest hfeed hreturn ih => rw [ih fun hmem => h (List.mem_cons_of_mem c hmem)]
  | case4 => rfl

-- A carriage return goes with nothing and is a piece by itself.
theorem Scanner.eq_of_carriageReturn_mem (hpiece : piece ∈ scan cs) (hmem : '\r' ∈ piece.text) :
    piece = ⟨.other, ['\r']⟩ := by
  obtain ⟨c, run, rfl, hrun⟩ := exists_run_of_mem_scan hpiece
  have halone : joins (actionOf c) '\r' = false := by cases actionOf c <;> rfl
  rcases List.mem_cons.mp hmem with rfl | hjoined
  · have hother : joins (actionOf '\r') = fun _ => false := rfl
    cases run with
    | nil => rfl
    | cons d run =>
      have hjoined := hrun d List.mem_cons_self
      rw [hother] at hjoined
      cases hjoined
  · simp [hrun '\r' hjoined] at halone

theorem otherToken_mem_scanTokens (h : '\r' ∈ cs) : otherToken "\r" ∈ scanTokens cs := by
  rw [← flatMap_text_scan cs] at h
  obtain ⟨piece, hpiece, hmem⟩ := List.mem_flatMap.mp h
  refine List.mem_filterMap.mpr ⟨piece, hpiece, ?_⟩
  rw [eq_of_carriageReturn_mem hpiece hmem]
  rfl

-- All that a token shows stands in the source.
theorem mem_of_mem_lexeme (htoken : token ∈ scanTokens cs) (hmem : c ∈ token.lexeme.toList) :
    c ∈ cs := by
  obtain ⟨piece, hpiece, hpieceToken⟩ := List.mem_filterMap.mp htoken
  rw [Action.lexeme_of_token? hpieceToken, String.toList_ofList] at hmem
  rw [← flatMap_text_scan cs]
  exact List.mem_flatMap.mpr ⟨piece, hpiece, hmem⟩

end CarriageReturns

-- The text with every line of it ended by a line feed.
def unified (text : String) : String := String.ofList (Text.unifyLineEndings text.toList)

variable {text path : String}

theorem unified_of_not_mem (h : '\r' ∉ text.toList) : unified text = text := by
  rw [unified, Text.unifyLineEndings_of_not_mem h, String.ofList_toList]

-- The bytes of a text are those of no other text.
theorem fromUTF8?_toUTF8 (text : String) : String.fromUTF8? text.toUTF8 = some text :=
  dif_pos text.isValidUTF8

theorem tokenizeFile_bytes (text path : String) :
    tokenizeFile path (.bytes text.toUTF8) = tokenizeText (unified text) path := by
  have hread : Opened.text (.bytes text.toUTF8) = .ok (unified text) := by
    rw [Opened.text, decodeText, fromUTF8?_toUTF8]
    rfl
  simp only [tokenizeFile, hread, Except.mapError, bind, Except.bind]

theorem parseFile_bytes (text path : String) :
    parseFile path (.bytes text.toUTF8) = parseText (unified text) path := by
  rw [parseFile, tokenizeFile_bytes, parseText]

-- A text of which the tokens read like those with the line endings unified has no
-- carriage return, for that would be one of the tokens.
theorem not_mem_of_map_lexeme_eq {cs : List Char}
    (h : (scanTokens (Text.unifyLineEndings cs)).map (·.lexeme) =
      (scanTokens cs).map (·.lexeme)) : '\r' ∉ cs := by
  intro hmem
  have hreturn : "\r" ∈ (scanTokens cs).map (·.lexeme) :=
    List.mem_map_of_mem (otherToken_mem_scanTokens hmem)
  rw [← h] at hreturn
  obtain ⟨token, htoken, hlexeme⟩ := List.mem_map.mp hreturn
  have hshown : '\r' ∈ token.lexeme.toList := by simp [hlexeme]
  exact Text.not_mem_unifyLineEndings _ (mem_of_mem_lexeme htoken hshown)

-- The tokens are alike, wherever they stand, if and only if there is none.
theorem exists_tokens_of_file (text path : String) : ∃ tokens others,
    tokenizeFile path (.bytes text.toUTF8) = .ok tokens ∧ tokenizeText text path = .ok others ∧
      (tokens.isEqv others Token.same = true ↔ '\r' ∉ text.toList) := by
  obtain ⟨tokens, htokens, hscan⟩ := exists_tokenize (unified text) path
  obtain ⟨others, hothers, hscan'⟩ := exists_tokenize text path
  refine ⟨tokens, others, ?_, ?_, fun hsame => ?_, fun hnot => ?_⟩
  · rw [tokenizeFile_bytes, tokenizeText, htokens]
    rfl
  · rw [tokenizeText, hothers]
    rfl
  · have hlexemes := map_lexeme_eq_of_isEqv_same hsame
    rw [← map_lexeme_withLocation_none tokens, ← map_lexeme_withLocation_none others, hscan,
      hscan', unified, String.toList_ofList] at hlexemes
    exact not_mem_of_map_lexeme_eq hlexemes
  · rw [unified_of_not_mem hnot] at hscan
    exact isEqv_same_of_map_withLocation_eq (hscan.trans hscan'.symm)

-- Reading a file comes to reading its text with the line endings unified, in all
-- tokens, trees, faults and places. It comes to reading the text as it is if and
-- only if there is no carriage return, also where places do not count.
theorem file_reads_as_unified (text path : String) :
    tokenizeFile path (.bytes text.toUTF8) = tokenizeText (unified text) path ∧
      parseFile path (.bytes text.toUTF8) = parseText (unified text) path ∧
      (tokenizeFile path (.bytes text.toUTF8) = tokenizeText text path ↔
        '\r' ∉ text.toList) ∧
      (∃ tokens others, tokenizeFile path (.bytes text.toUTF8) = .ok tokens ∧
        tokenizeText text path = .ok others ∧
        (tokens.isEqv others Token.same = true ↔ '\r' ∉ text.toList)) ∧
      ('\r' ∉ text.toList → parseFile path (.bytes text.toUTF8) = parseText text path) := by
  obtain ⟨tokens, others, htokens, hothers, hsame⟩ := exists_tokens_of_file text path
  refine ⟨tokenizeFile_bytes text path, parseFile_bytes text path, ⟨fun h => ?_, fun h => ?_⟩,
    ⟨tokens, others, htokens, hothers, hsame⟩, fun h => ?_⟩
  · obtain rfl : tokens = others := Except.ok.inj (htokens.symm.trans (h.trans hothers))
    exact hsame.mp (isEqv_same_of_map_withLocation_eq rfl)
  · rw [tokenizeFile_bytes, unified_of_not_mem h]
  · rw [parseFile_bytes, unified_of_not_mem h]

-- Two lines of a call that end in different ways.
private def torn : String := "f(\r\n1,\ra)"

private def mended : String := "f(\n1,\na)"

theorem file_reads_as_unified_lines :
    tokenizeFile "p" (.bytes torn.toUTF8) = tokenizeText mended "p" ∧
      tokenizeFile "p" (.bytes torn.toUTF8) ≠ tokenizeText torn "p" ∧
      (∃ tokens others, tokenizeFile "p" (.bytes torn.toUTF8) = .ok tokens ∧
        tokenizeText torn "p" = .ok others ∧ ¬ tokens.isEqv others Token.same = true) ∧
      '\r' ∉ mended.toList ∧
      tokenizeFile "p" (.bytes mended.toUTF8) = tokenizeText mended "p" ∧
      parseFile "p" (.bytes mended.toUTF8) = parseText mended "p" := by
  have hunified : unified torn = mended := rfl
  have hmended : '\r' ∉ mended.toList := by decide
  have htorn : ¬ '\r' ∉ torn.toList := by decide
  obtain ⟨htokens, -, hiff, ⟨tokens, others, hfile, htext, hsame⟩, -⟩ :=
    file_reads_as_unified torn "p"
  obtain ⟨-, -, hiff', -, hparse⟩ := file_reads_as_unified mended "p"
  exact ⟨hunified ▸ htokens, fun heq => htorn (hiff.mp heq),
    ⟨tokens, others, hfile, htext, fun halike => htorn (hsame.mp halike)⟩, hmended,
    hiff'.mpr hmended, hparse hmended⟩

section Lost

private def parted : String := "a\rb"

private def fileTokens : List Token :=
  [⟨.identifier, "a", .text "a", some ⟨"p", 1, 1, 0⟩⟩,
    ⟨.identifier, "b", .text "b", some ⟨"p", 2, 1, 2⟩⟩]

private def returnToken : Token := ⟨.other, "\r", .text "\r", some ⟨"p", 1, 2, 1⟩⟩

private def textTokens : List Token :=
  [⟨.identifier, "a", .text "a", some ⟨"p", 1, 1, 0⟩⟩, returnToken,
    ⟨.identifier, "b", .text "b", some ⟨"p", 1, 3, 2⟩⟩]

-- A carriage return between two names is a line ending in a file and a token in
-- a text, which no program has there.
theorem carriage_return_lost_in_file :
    tokenizeFile "p" (.bytes parted.toUTF8) = .ok fileTokens ∧
      tokenizeText parted "p" = .ok textTokens ∧
      tokenizeFile "p" (.bytes parted.toUTF8) ≠ tokenizeText parted "p" ∧
      parseFile "p" (.bytes parted.toUTF8) =
        .ok [.anonymous (.var (.text "a")), .anonymous (.var (.text "b"))] ∧
      parseText parted "p" = .error (.syntaxFault ⟨.expectedExpression, returnToken⟩) ∧
      parseFile "p" (.bytes parted.toUTF8) ≠ parseText parted "p" := by
  have hfile : tokenizeFile "p" (.bytes parted.toUTF8) = .ok fileTokens := by
    rw [tokenizeFile_bytes]
    rfl
  have htext : tokenizeText parted "p" = .ok textTokens := rfl
  have htrees : parseFile "p" (.bytes parted.toUTF8) =
      .ok [.anonymous (.var (.text "a")), .anonymous (.var (.text "b"))] := by
    rw [parseFile_bytes]
    rfl
  have hfault : parseText parted "p" =
      .error (.syntaxFault ⟨.expectedExpression, returnToken⟩) := rfl
  refine ⟨hfile, htext, ?_, htrees, hfault, ?_⟩
  · rw [hfile, htext]
    intro heq
    cases congrArg List.length (Except.ok.inj heq)
  · rw [htrees, hfault]
    nofun

end Lost

end ExprLang
