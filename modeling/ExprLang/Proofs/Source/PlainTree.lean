import ExprLang.Proofs.Grammar.Derivation
import ExprLang.Proofs.Lexer.RoundTrip
import ExprLang.Proofs.Parser.Language
import ExprLang.Proofs.Source.FaultPlace
import ExprLang.Proofs.Tree.Plain

-- The trees of sources are plain throughout, for so are the tokens that the lexer
-- makes and the trees that the grammar builds from such tokens.

namespace ExprLang

open Grammar Scanner

section Tokens

-- A token with a value that a plain node may have.
structure Token.Plain (token : Token) : Prop where
  number : token.kind = .number → token.value.IsCount
  word : token.kind = .identifier → token.value.IsWord
  operator : token.kind = .binaryOperator →
    ∃ c, token.value = .text (String.ofList [c]) ∧ isSign c = true

theorem Token.Plain.isOperator {token : Token} (h : token.Plain)
    (hkind : token.kind = .binaryOperator) : IsOperator token.value.plain := by
  obtain ⟨c, hvalue, hsign⟩ := h.operator hkind
  exact ⟨c, congrArg Value.plain hvalue, hsign⟩

theorem negative_parseNumber (lexeme : String) : (parseNumber lexeme).negative = false := by
  have hdecimal (digits : Nat) (exponent : Int) :
      (Double.ofDecimal false digits exponent).negative = false := by
    cases exponent <;> rfl
  unfold parseNumber
  split
  · rfl
  · exact hdecimal _ _

theorem Token.Scanned.plain {token : Token} (h : token.Scanned) : token.Plain := by
  obtain ⟨c, run, hrun, htoken⟩ := h
  suffices hbare : (token.withLocation none).Plain from
    ⟨hbare.number, hbare.word, hbare.operator⟩
  generalize token.withLocation none = bare at htoken
  cases haction : actionOf c with
  | skip =>
    rw [haction] at htoken
    cases htoken
  | number =>
    rw [haction] at htoken
    obtain rfl := Option.some.inj htoken
    exact ⟨fun _ => ⟨_, rfl, negative_parseNumber _⟩, nofun, nofun⟩
  | word =>
    rw [haction] at htoken hrun
    obtain rfl := Option.some.inj htoken
    rw [wordToken_eq]
    split
    · exact ⟨nofun, nofun, nofun⟩
    · exact ⟨nofun, fun _ => ⟨c, run, rfl, isAlpha_of_actionOf haction, hrun⟩, nofun⟩
  | operator =>
    rw [haction] at htoken hrun
    obtain rfl := Option.some.inj htoken
    cases run with
    | nil => exact ⟨nofun, nofun, fun _ => ⟨c, rfl, isSign_of_actionOf haction⟩⟩
    | cons d run => cases hrun d List.mem_cons_self
  | other =>
    rw [haction] at htoken
    obtain rfl := Option.some.inj htoken
    exact ⟨nofun, nofun, nofun⟩
  | punctuation kind =>
    rw [haction] at htoken
    obtain rfl := Option.some.inj htoken
    rcases kind_of_actionOf haction with rfl | rfl | rfl <;> exact ⟨nofun, nofun, nofun⟩

end Tokens

section Trees

variable {table : PrecedenceTable}

def Link.Plain (link : Link) : Prop := IsOperator link.op ∧ link.operand.AllPlain

theorem allPlain_reference {first : Node} {links : List Link} (hfirst : first.AllPlain)
    (hlinks : ∀ link ∈ links, link.Plain) : (reference first links).AllPlain := by
  fun_induction reference first links with
  | case1 first links hnone => exact hfirst
  | case2 first links cut hcut ihBefore ihAfter =>
    obtain rfl := eq_append_of_loosestCut? hcut
    simp only [List.forall_mem_append, List.forall_mem_cons] at hlinks
    obtain ⟨hbefore, ⟨hop, hoperand⟩, hafter⟩ := hlinks
    refine Node.allPlain_iff.mpr ⟨hop, ?_⟩
    simp only [Node.children, List.forall_mem_cons]
    exact ⟨ihBefore hfirst hbefore, ihAfter hoperand hafter, by simp⟩

namespace Grammar

mutual

theorem Operand.allPlain : (operand : Operand) → (∀ token ∈ operand.tokens, token.Plain) →
    (operand.tree table).AllPlain
  | .number token, h => by
    have hvalue := (h token.val (by simp [Operand.tokens])).number token.property
    exact Node.allPlain_of_leaf hvalue rfl
  | .name token, h => by
    have hvalue := (h token.val (by simp [Operand.tokens])).word token.property
    exact Node.allPlain_of_leaf hvalue rfl
  | .emptyCall callee opening closing, h => by
    have hvalue := (h callee.val (by simp [Operand.tokens])).word callee.property
    exact Node.allPlain_of_leaf hvalue rfl
  | .call callee opening arguments, h => by
    simp only [Operand.tokens, List.forall_mem_cons] at h
    exact Node.allPlain_iff.mpr ⟨h.1.word callee.property, arguments.allPlain h.2.2⟩
  | .parens opening inner closing, h => by
    simp only [Operand.tokens, List.forall_mem_cons, List.forall_mem_append] at h
    exact inner.allPlain h.2.1

theorem Arguments.allPlain : (arguments : Arguments) →
    (∀ token ∈ arguments.tokens, token.Plain) → ∀ n ∈ arguments.trees table, n.AllPlain
  | .last argument closing, h => by
    rw [Arguments.tokens, List.forall_mem_append] at h
    rw [Arguments.trees, List.forall_mem_singleton]
    exact argument.allPlain h.1
  | .more argument comma rest, h => by
    simp only [Arguments.tokens, List.forall_mem_append, List.forall_mem_cons] at h
    rw [Arguments.trees, List.forall_mem_cons]
    exact ⟨argument.allPlain h.1, rest.allPlain h.2.2⟩

theorem Expression.allPlain : (expression : Expression) →
    (∀ token ∈ expression.tokens, token.Plain) → (expression.tree table).AllPlain
  | .chain first links, h => by
    rw [Expression.tokens, List.forall_mem_append] at h
    rw [Expression.tree]
    exact allPlain_reference (first.allPlain h.1) (links.plain h.2)

theorem Links.plain : (links : Links) → (∀ token ∈ links.tokens, token.Plain) →
    ∀ link ∈ links.chain table, link.Plain
  | .nil, h => by simp [Links.chain]
  | .cons op operand rest, h => by
    simp only [Links.tokens, List.forall_mem_cons, List.forall_mem_append] at h
    rw [Links.chain, List.forall_mem_cons]
    exact ⟨⟨h.1.isOperator op.property, operand.allPlain h.2.1⟩, rest.plain h.2.2⟩

end

theorem Parameters.names_isWord : (parameters : Parameters) →
    (∀ token ∈ parameters.tokens, token.Plain) → ∀ v ∈ parameters.names, v.IsWord
  | .last name closing, h => by
    rw [Parameters.tokens, List.forall_mem_cons] at h
    exact List.forall_mem_singleton.mpr (h.1.word name.property)
  | .close closing, h => by simp [Parameters.names]
  | .more name comma rest, h => by
    simp only [Parameters.tokens, List.forall_mem_cons] at h
    rw [Parameters.names, List.forall_mem_cons]
    exact ⟨h.1.word name.property, rest.names_isWord h.2.2⟩

theorem Header.prototype_plain (header : Header) (h : ∀ token ∈ header.tokens, token.Plain) :
    header.prototype.Plain := by
  simp only [Header.tokens, List.forall_mem_cons] at h
  exact ⟨.inr (h.1.word header.name.property), header.parameters.names_isWord h.2.2⟩

end Grammar

theorem Definition.allPlain_node {d : Definition} (hprototype : d.prototype.Plain)
    (hbody : d.body.AllPlain) : d.node.AllPlain := by
  refine Node.allPlain_iff.mpr ⟨trivial, ?_⟩
  simp only [Definition.node, Node.children, List.forall_mem_cons]
  exact ⟨Node.allPlain_of_leaf hprototype rfl, hbody, List.forall_mem_nil _⟩

theorem Grammar.Phrase.allPlain (phrase : Phrase) (h : ∀ token ∈ phrase.tokens, token.Plain) :
    (phrase.meaning table).node.AllPlain := by
  cases phrase with
  | definition keyword header body =>
    simp only [Phrase.tokens, List.forall_mem_cons, List.forall_mem_append] at h
    exact Definition.allPlain_node (header.prototype_plain h.2.1) (body.allPlain h.2.2)
  | bare body =>
    have hanonymous : Prototype.anonymous.Plain := ⟨.inl rfl, List.forall_mem_nil _⟩
    exact Definition.allPlain_node hanonymous (body.allPlain h)

theorem allPlain_of_parseTokens {tokens : List Token} {definitions : List Definition}
    (htokens : ∀ token ∈ tokens, token.Plain)
    (h : parseTokens tokens table = .ok definitions) : ∀ d ∈ definitions, d.node.AllPlain := by
  obtain ⟨phrases, ⟨-, rfl⟩, -, rfl⟩ := exists_derives_of_parseTokens h
  intro d hd
  obtain ⟨phrase, hphrase, rfl⟩ := List.mem_map.mp hd
  exact phrase.allPlain fun token htoken =>
    htokens token (List.mem_flatMap.mpr ⟨phrase, hphrase, htoken⟩)

end Trees

theorem plain_of_tokenize {source file : String} {tokens : List Token}
    (h : tokenize source file = .ok tokens) : ∀ token ∈ tokens, token.Plain := by
  intro token htoken
  have hlexed : token.Lexed := ⟨source, file, tokens, h, htoken⟩
  exact hlexed.scanned.plain

theorem parseTokens_of_parseText_ok {source file : String} {tokens : List Token}
    {definitions : List Definition} (htokenize : tokenize source file = .ok tokens)
    (h : parseText source file = .ok definitions) :
    parseTokens tokens .defaults = .ok definitions := by
  rw [parseText_eq htokenize] at h
  cases hparse : parseTokens tokens .defaults with
  | error fault =>
    rw [hparse] at h
    cases h
  | ok others =>
    rw [hparse] at h
    cases h
    rfl

theorem allPlain_of_parseText {source file : String} {definitions : List Definition}
    (h : parseText source file = .ok definitions) : ∀ d ∈ definitions, d.node.AllPlain := by
  obtain ⟨tokens, htokenize, -⟩ := exists_tokenize source file
  exact allPlain_of_parseTokens (plain_of_tokenize htokenize)
    (parseTokens_of_parseText_ok htokenize h)

end ExprLang
