import ExprLang.CommandLine.Run
import ExprLang.Proofs.Source.PlainTree
import ExprLang.Proofs.Tree.Numbers
import ExprLang.Proofs.Tree.Printed

-- What the command prints of a program says all there is in its trees.

namespace ExprLang.CommandLine

open ExprLang

theorem treeText_eq_printed (definitions : List Definition) :
    treeText definitions = Node.printed (definitions.map Definition.node) := by
  rw [treeText, Printer.renderAll_fst, List.map_map]
  rfl

theorem report_stdout_of_ok (level : LogLevel) (logger file : String) {tokens : List Token}
    {definitions : List Definition} (h : parseTokens tokens .defaults = .ok definitions) :
    (report false level logger file tokens).stdout = treeText definitions := by
  obtain ⟨hfault, rfl⟩ := Parser.Progress.result_eq_ok_iff.mp h
  simp [report, hfault]

variable {source source' file file' : String} {tokens tokens' : List Token}
  {definitions definitions' : List Definition}

theorem treeText_eq_iff (h : parseText source file = .ok definitions)
    (h' : parseText source' file' = .ok definitions') :
    treeText definitions = treeText definitions' ↔ definitions = definitions' := by
  refine ⟨fun heq => ?_, fun heq => congrArg treeText heq⟩
  rw [treeText_eq_printed, treeText_eq_printed] at heq
  have hplain := List.forall_mem_map.mpr (allPlain_of_parseText h)
  have hplain' := List.forall_mem_map.mpr (allPlain_of_parseText h')
  exact List.map_injective_iff.mpr Definition.node_injective (Node.eq_of_printed_eq hplain hplain' heq)

theorem sameAll_iff (h : parseText source file = .ok definitions)
    (h' : parseText source' file' = .ok definitions') :
    Node.sameAll (definitions.map Definition.node) (definitions'.map Definition.node) = true ↔
      definitions = definitions' := by
  have hplain := List.forall_mem_map.mpr (allPlain_of_parseText h)
  have hplain' := List.forall_mem_map.mpr (allPlain_of_parseText h')
  refine ⟨fun hsame => ?_, fun heq => heq ▸ Node.sameAll_refl _⟩
  refine List.map_injective_iff.mpr Definition.node_injective (Node.eq_of_sameAll ?_ hplain' hsame)
  exact fun m hm n hn hsame => Node.eq_of_same (hplain m hm) hn hsame

-- The command prints the same trees of two programs if and only if they parse to
-- the same ones. So nothing is lost of them in print, whatever the numbers and
-- the names, and however the trees are nested and follow one another.
theorem printed_trees_tell_parses (level : LogLevel) (logger : String)
    (htokenize : tokenize source file = .ok tokens)
    (htokenize' : tokenize source' file' = .ok tokens')
    (h : parseText source file = .ok definitions)
    (h' : parseText source' file' = .ok definitions') :
    (report false level logger file tokens).stdout =
        String.join (definitions.map fun d => ((Printer.new "  ").render d.node).1 ++ "\n") ∧
      ((report false level logger file tokens).stdout =
          (report false level logger file' tokens').stdout ↔ definitions = definitions') ∧
      (Node.sameAll (definitions.map Definition.node) (definitions'.map Definition.node) = true ↔
        definitions = definitions') := by
  have hstdout := report_stdout_of_ok level logger file (parseTokens_of_parseText_ok htokenize h)
  have hstdout' :=
    report_stdout_of_ok level logger file' (parseTokens_of_parseText_ok htokenize' h')
  rw [hstdout, hstdout']
  refine ⟨?_, treeText_eq_iff h h', sameAll_iff h h'⟩
  rw [treeText_eq_printed, Node.printed, List.map_map]
  rfl

section Sample

-- A call with two arguments.
private def call : List Definition :=
  [.anonymous (.call (.text "f") [.var (.text "a"), .var (.text "b")])]

-- A call with one, and a name that follows.
private def callAndName : List Definition :=
  [.anonymous (.call (.text "f") [.var (.text "a")]), .anonymous (.var (.text "b"))]

private def letter (file lexeme : String) (offset : Nat) : Token :=
  ⟨.identifier, lexeme, .text lexeme, some ⟨file, 1, offset + 1, offset⟩⟩

private def mark (file : String) (kind : TokenKind) (lexeme : String) (offset : Nat) : Token :=
  ⟨kind, lexeme, .absent, some ⟨file, 1, offset + 1, offset⟩⟩

-- The tokens of "f(a,b)", of "f((a), b)" with parentheses it could do without, and
-- of "f(a) b".
private def bare : List Token :=
  [letter "p" "f" 0, mark "p" .parensOpen "(" 1, letter "p" "a" 2, mark "p" .comma "," 3,
    letter "p" "b" 4, mark "p" .parensClose ")" 5]

private def wrapped : List Token :=
  [letter "q" "f" 0, mark "q" .parensOpen "(" 1, mark "q" .parensOpen "(" 2, letter "q" "a" 3,
    mark "q" .parensClose ")" 4, mark "q" .comma "," 5, letter "q" "b" 7,
    mark "q" .parensClose ")" 8]

private def parted : List Token :=
  [letter "r" "f" 0, mark "r" .parensOpen "(" 1, letter "r" "a" 2, mark "r" .parensClose ")" 3,
    letter "r" "b" 5]

theorem printed_trees_tell_parses_calls :
    (tokenize "f(a,b)" "p" = .ok bare ∧ parseText "f(a,b)" "p" = .ok call) ∧
      (tokenize "f((a), b)" "q" = .ok wrapped ∧ parseText "f((a), b)" "q" = .ok call) ∧
      (tokenize "f(a) b" "r" = .ok parted ∧ parseText "f(a) b" "r" = .ok callAndName) ∧
      (report false .info "command" "p" bare).stdout =
        (report false .info "command" "q" wrapped).stdout ∧
      (report false .info "command" "p" bare).stdout ≠
        (report false .info "command" "r" parted).stdout := by
  have hbare : tokenize "f(a,b)" "p" = .ok bare := rfl
  have hwrapped : tokenize "f((a), b)" "q" = .ok wrapped := rfl
  have hparted : tokenize "f(a) b" "r" = .ok parted := rfl
  have hbareParse : parseText "f(a,b)" "p" = .ok call := by
    rw [parseText_eq hbare]
    rfl
  have hwrappedParse : parseText "f((a), b)" "q" = .ok call := by
    rw [parseText_eq hwrapped]
    rfl
  have hpartedParse : parseText "f(a) b" "r" = .ok callAndName := by
    rw [parseText_eq hparted]
    rfl
  obtain ⟨-, hsame, -⟩ :=
    printed_trees_tell_parses .info "command" hbare hwrapped hbareParse hwrappedParse
  obtain ⟨-, hother, -⟩ :=
    printed_trees_tell_parses .info "command" hbare hparted hbareParse hpartedParse
  have hne : call ≠ callAndName := by decide
  exact ⟨⟨hbare, hbareParse⟩, ⟨hwrapped, hwrappedParse⟩, ⟨hparted, hpartedParse⟩,
    hsame.mpr rfl, fun heq => hne (hother.mp heq)⟩

end Sample

end ExprLang.CommandLine
