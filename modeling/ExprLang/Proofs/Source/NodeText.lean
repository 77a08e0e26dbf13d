import ExprLang.Proofs.Source.PlainTree
import ExprLang.Proofs.Tree.Numbers
import ExprLang.Proofs.Tree.PlainText

-- The texts of what sources define, and of any parts of it, differ if they do.

namespace ExprLang

variable {source source' file file' : String} {definitions definitions' : List Definition}
  {d d' : Definition}

theorem Node.same_iff_eq {m n : Node} (hm : m.AllPlain) (hn : n.AllPlain) :
    m.same n = true ↔ m = n :=
  ⟨Node.eq_of_same hm hn, fun heq => heq ▸ m.same_refl⟩

-- Equal texts are those of equal definitions, though names, numbers and operators
-- stand in them as they are, and so it is with all parts of definitions, from one
-- source or from two.
theorem text_tells_node (h : parseText source file = .ok definitions)
    (h' : parseText source' file' = .ok definitions') (hd : d ∈ definitions)
    (hd' : d' ∈ definitions') :
    (d.node.text = d'.node.text ↔ d.node.same d'.node = true) ∧
      (d.node.same d'.node = true ↔ d = d') ∧
      ∀ m ∈ d.node.walk, ∀ n ∈ d'.node.walk,
        (m.text = n.text ↔ m.same n = true) ∧ (m.same n = true ↔ m = n) := by
  have hplain := allPlain_of_parseText h d hd
  have hplain' := allPlain_of_parseText h' d' hd'
  have hparts : ∀ m ∈ d.node.walk, ∀ n ∈ d'.node.walk,
      (m.text = n.text ↔ m.same n = true) ∧ (m.same n = true ↔ m = n) := by
    intro m hm n hn
    have hmPlain := hplain.of_mem_walk hm
    have hnPlain := hplain'.of_mem_walk hn
    have hsame := Node.same_iff_eq hmPlain hnPlain
    exact ⟨(Node.text_eq_iff hmPlain hnPlain).trans hsame.symm, hsame⟩
  obtain ⟨htext, hsame⟩ := hparts _ d.node.mem_walk_self _ d'.node.mem_walk_self
  exact ⟨htext, hsame.trans Definition.node_injective.eq_iff, hparts⟩

section Sample

private def two (spelling : String) : Node := .number (.number (parseNumber spelling))

private def callOf (argument : Node) : Node := .call (.text "g") [argument]

private def headed (body : Node) : Definition := ⟨⟨.text "f", [.text "a"]⟩, body⟩

private def name : Node := .var (.text "a")

-- A number behind a call, and within its parentheses.
private def outerSum (spelling : String) : Definition :=
  headed (.binary "+" (callOf name) (two spelling))

private def innerSum : Definition := headed (callOf (.binary "+" name (two "2")))

-- The tokens of "def f(a) g(a)+2", of "def f(a)(g(a) + 2.0)" and of "def f(a) g(a+2)".
private def header (file : String) : List Token :=
  [⟨.define, "def", .absent, some ⟨file, 1, 1, 0⟩⟩,
    ⟨.identifier, "f", .text "f", some ⟨file, 1, 5, 4⟩⟩,
    ⟨.parensOpen, "(", .absent, some ⟨file, 1, 6, 5⟩⟩,
    ⟨.identifier, "a", .text "a", some ⟨file, 1, 7, 6⟩⟩,
    ⟨.parensClose, ")", .absent, some ⟨file, 1, 8, 7⟩⟩]

private def bareTokens : List Token := header "p" ++
  [⟨.identifier, "g", .text "g", some ⟨"p", 1, 10, 9⟩⟩,
    ⟨.parensOpen, "(", .absent, some ⟨"p", 1, 11, 10⟩⟩,
    ⟨.identifier, "a", .text "a", some ⟨"p", 1, 12, 11⟩⟩,
    ⟨.parensClose, ")", .absent, some ⟨"p", 1, 13, 12⟩⟩,
    ⟨.binaryOperator, "+", .text "+", some ⟨"p", 1, 14, 13⟩⟩,
    ⟨.number, "2", .number (parseNumber "2"), some ⟨"p", 1, 15, 14⟩⟩]

private def wrappedTokens : List Token := header "q" ++
  [⟨.parensOpen, "(", .absent, some ⟨"q", 1, 9, 8⟩⟩,
    ⟨.identifier, "g", .text "g", some ⟨"q", 1, 10, 9⟩⟩,
    ⟨.parensOpen, "(", .absent, some ⟨"q", 1, 11, 10⟩⟩,
    ⟨.identifier, "a", .text "a", some ⟨"q", 1, 12, 11⟩⟩,
    ⟨.parensClose, ")", .absent, some ⟨"q", 1, 13, 12⟩⟩,
    ⟨.binaryOperator, "+", .text "+", some ⟨"q", 1, 15, 14⟩⟩,
    ⟨.number, "2.0", .number (parseNumber "2.0"), some ⟨"q", 1, 17, 16⟩⟩,
    ⟨.parensClose, ")", .absent, some ⟨"q", 1, 20, 19⟩⟩]

private def innerTokens : List Token := header "r" ++
  [⟨.identifier, "g", .text "g", some ⟨"r", 1, 10, 9⟩⟩,
    ⟨.parensOpen, "(", .absent, some ⟨"r", 1, 11, 10⟩⟩,
    ⟨.identifier, "a", .text "a", some ⟨"r", 1, 12, 11⟩⟩,
    ⟨.binaryOperator, "+", .text "+", some ⟨"r", 1, 13, 12⟩⟩,
    ⟨.number, "2", .number (parseNumber "2"), some ⟨"r", 1, 14, 13⟩⟩,
    ⟨.parensClose, ")", .absent, some ⟨"r", 1, 15, 14⟩⟩]

-- The same sum with other parentheses, and the two spellings of its number, has the
-- same text, and the other sum has not, nor has the call in it.
theorem text_tells_node_sums :
    parseText "def f(a) g(a)+2" "p" = .ok [outerSum "2"] ∧
      parseText "def f(a)(g(a) + 2.0)" "q" = .ok [outerSum "2.0"] ∧
      parseText "def f(a) g(a+2)" "r" = .ok [innerSum] ∧
      (outerSum "2").node.text = (outerSum "2.0").node.text ∧
      (outerSum "2").node.text ≠ innerSum.node.text ∧
      (callOf name).text ≠ innerSum.body.text := by
  have hbare : parseText "def f(a) g(a)+2" "p" = .ok [outerSum "2"] := by
    rw [parseText_eq (show tokenize "def f(a) g(a)+2" "p" = .ok bareTokens from rfl)]
    rfl
  have hwrapped : parseText "def f(a)(g(a) + 2.0)" "q" = .ok [outerSum "2.0"] := by
    rw [parseText_eq (show tokenize "def f(a)(g(a) + 2.0)" "q" = .ok wrappedTokens from rfl)]
    rfl
  have hinner : parseText "def f(a) g(a+2)" "r" = .ok [innerSum] := by
    rw [parseText_eq (show tokenize "def f(a) g(a+2)" "r" = .ok innerTokens from rfl)]
    rfl
  obtain ⟨htext, hsame, -⟩ :=
    text_tells_node hbare hwrapped List.mem_cons_self List.mem_cons_self
  obtain ⟨hother, hdiffer, hparts⟩ :=
    text_tells_node hbare hinner List.mem_cons_self List.mem_cons_self
  have htwo : two "2" = two "2.0" := by decide +kernel
  have hspelling : outerSum "2" = outerSum "2.0" := by rw [outerSum, htwo, outerSum]
  have hne : outerSum "2" ≠ innerSum := by simp [outerSum, innerSum, headed, callOf]
  have hcall : callOf name ∈ (outerSum "2").node.walk := by
    simp [outerSum, headed, Definition.node, Node.walk, Node.mem_walk_self]
  have hbody : innerSum.body ∈ innerSum.node.walk := by
    simp [innerSum, headed, Definition.node, Node.walk, Node.mem_walk_self]
  obtain ⟨hcallText, hcallSame⟩ := hparts _ hcall _ hbody
  have hcallNe : callOf name ≠ innerSum.body := by simp [callOf, name, innerSum, headed]
  exact ⟨hbare, hwrapped, hinner, htext.mpr (hsame.mpr hspelling),
    fun heq => hne (hdiffer.mp (hother.mp heq)),
    fun heq => hcallNe (hcallSame.mp (hcallText.mp heq))⟩

end Sample

end ExprLang
