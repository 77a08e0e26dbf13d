import ExprLang.Parser.Basic
import ExprLang.Proofs.Tree.Reference
import Mathlib.Data.List.Chain

-- The language of programs, told without a parser: derivations of its
-- grammar, the tokens they derive, and what they say.

namespace ExprLang.Grammar

-- A token of one kind.
abbrev Terminal (kind : TokenKind) := { token : Token // token.kind = kind }

mutual

-- What stands on either side of an operator.
inductive Operand where
  | number (token : Terminal .number)
  | name (token : Terminal .identifier)
  | emptyCall (callee : Terminal .identifier) (opening : Terminal .parensOpen)
      (closing : Terminal .parensClose)
  | call (callee : Terminal .identifier) (opening : Terminal .parensOpen) (arguments : Arguments)
  | parens (opening : Terminal .parensOpen) (inner : Expression) (closing : Terminal .parensClose)

-- One argument at least, and the parenthesis that closes the call.
inductive Arguments where
  | last (argument : Expression) (closing : Terminal .parensClose)
  | more (argument : Expression) (comma : Terminal .comma) (rest : Arguments)

inductive Expression where
  | chain (first : Operand) (links : Links)

inductive Links where
  | nil
  | cons (op : Terminal .binaryOperator) (operand : Operand) (rest : Links)

end

-- What stands between the parentheses of a prototype, and the token that closes
-- it. Where a name may follow, any other token does.
inductive Parameters where
  | last (name : Terminal .identifier) (closing : Terminal .parensClose)
  | close (closing : { token : Token // token.kind ≠ .identifier })
  | more (name : Terminal .identifier) (comma : Terminal .comma) (rest : Parameters)

structure Header where
  name : Terminal .identifier
  opening : Terminal .parensOpen
  parameters : Parameters

-- A definition or a bare expression.
inductive Phrase where
  | definition (keyword : Terminal .define) (header : Header) (body : Expression)
  | bare (body : Expression)

section Tokens

mutual

def Operand.tokens : Operand → List Token
  | .number token => [token.val]
  | .name token => [token.val]
  | .emptyCall callee opening closing => [callee.val, opening.val, closing.val]
  | .call callee opening arguments => callee.val :: opening.val :: arguments.tokens
  | .parens opening inner closing => opening.val :: (inner.tokens ++ [closing.val])

def Arguments.tokens : Arguments → List Token
  | .last argument closing => argument.tokens ++ [closing.val]
  | .more argument comma rest => argument.tokens ++ comma.val :: rest.tokens

def Expression.tokens : Expression → List Token
  | .chain first links => first.tokens ++ links.tokens

def Links.tokens : Links → List Token
  | .nil => []
  | .cons op operand rest => op.val :: (operand.tokens ++ rest.tokens)

end

def Parameters.tokens : Parameters → List Token
  | .last name closing => [name.val, closing.val]
  | .close closing => [closing.val]
  | .more name comma rest => name.val :: comma.val :: rest.tokens

def Header.tokens (header : Header) : List Token :=
  header.name.val :: header.opening.val :: header.parameters.tokens

def Phrase.tokens : Phrase → List Token
  | .definition keyword header body => keyword.val :: (header.tokens ++ body.tokens)
  | .bare body => body.tokens

end Tokens

-- Every operator is listed, and none at a negative level.
section Listed

variable (table : PrecedenceTable)

mutual

def Operand.Listed : Operand → Prop
  | .number _ | .name _ | .emptyCall .. => True
  | .call _ _ arguments => arguments.Listed
  | .parens _ inner _ => inner.Listed

def Arguments.Listed : Arguments → Prop
  | .last argument _ => argument.Listed
  | .more argument _ rest => argument.Listed ∧ rest.Listed

def Expression.Listed : Expression → Prop
  | .chain first links => first.Listed ∧ links.Listed

def Links.Listed : Links → Prop
  | .nil => True
  | .cons op operand rest =>
    (∃ level, table.level? op.val.value = some level ∧ 0 ≤ level) ∧
      operand.Listed ∧ rest.Listed

end

def Phrase.Listed : Phrase → Prop
  | .definition _ _ body | .bare body => body.Listed table

end Listed

-- What a derivation says. Chains of operators are read by their levels.
section Trees

variable (table : PrecedenceTable)

mutual

def Operand.tree : Operand → Node
  | .number token => .number token.val.value
  | .name token => .var token.val.value
  | .emptyCall callee _ _ => .call callee.val.value []
  | .call callee _ arguments => .call callee.val.value arguments.trees
  | .parens _ inner _ => inner.tree

def Arguments.trees : Arguments → List Node
  | .last argument _ => [argument.tree]
  | .more argument _ rest => argument.tree :: rest.trees

def Expression.tree : Expression → Node
  | .chain first links => reference first.tree links.chain

def Links.chain : Links → List Link
  | .nil => []
  | .cons op operand rest =>
    ⟨op.val.value.plain, (table.level? op.val.value).getD noPrecedence, operand.tree⟩ ::
      rest.chain

end

def Parameters.names : Parameters → List Value
  | .last name _ => [name.val.value]
  | .close _ => []
  | .more name _ rest => name.val.value :: rest.names

def Header.prototype (header : Header) : Prototype :=
  ⟨header.name.val.value, header.parameters.names⟩

def Phrase.meaning : Phrase → Definition
  | .definition _ header body => ⟨header.prototype, body.tree table⟩
  | .bare body => .anonymous (body.tree table)

end Trees

-- Derivations of a list of tokens.
def Derives (table : PrecedenceTable) (phrases : List Phrase) (tokens : List Token) : Prop :=
  (∀ phrase ∈ phrases, phrase.Listed table) ∧ phrases.flatMap Phrase.tokens = tokens

-- No name at the end of the first stands before a parenthesis that opens the second.
def Apart (first second : List Token) : Prop :=
  ∀ last ∈ first.getLast?, ∀ head ∈ second.head?,
    last.kind = .identifier → head.kind ≠ .parensOpen

instance (first second : List Token) : Decidable (Apart first second) :=
  inferInstanceAs (Decidable (∀ last ∈ first.getLast?, ∀ head ∈ second.head?,
    last.kind = .identifier → head.kind ≠ .parensOpen))

-- A name with a parenthesis behind it is a call wherever it can be one. Inside a
-- phrase the grammar leaves no other reading, so this is about two in a row.
def Greedy (phrases : List Phrase) : Prop := (phrases.map Phrase.tokens).IsChain Apart

-- Whether a bare name comes last.
section Ends

def Operand.isName : Operand → Bool
  | .name _ => true
  | .number _ | .emptyCall .. | .call .. | .parens .. => false

def Links.endsInName (before : Bool) : Links → Bool
  | .nil => before
  | .cons _ operand rest => rest.endsInName operand.isName

def Expression.endsInName : Expression → Bool
  | .chain first links => links.endsInName first.isName

def Phrase.body : Phrase → Expression
  | .definition _ _ body | .bare body => body

-- What can begin an operand.
def Starts (token : Token) : Prop :=
  token.kind = .number ∨ token.kind = .identifier ∨ token.kind = .parensOpen

theorem Starts.kind_ne {token : Token} (h : Starts token) :
    token.kind ≠ .parensClose ∧ token.kind ≠ .binaryOperator ∧ token.kind ≠ .define := by
  rcases h with h | h | h <;> simp [h]

theorem Operand.exists_tokens (operand : Operand) :
    ∃ head rest, operand.tokens = head :: rest ∧ Starts head := by
  cases operand with
  | number token => exact ⟨_, _, rfl, .inl token.property⟩
  | name token => exact ⟨_, _, rfl, .inr (.inl token.property)⟩
  | emptyCall callee => exact ⟨_, _, rfl, .inr (.inl callee.property)⟩
  | call callee => exact ⟨_, _, by rw [tokens], .inr (.inl callee.property)⟩
  | parens opening => exact ⟨_, _, by rw [tokens], .inr (.inr opening.property)⟩

theorem Expression.exists_tokens (expression : Expression) :
    ∃ head rest, expression.tokens = head :: rest ∧ Starts head := by
  obtain ⟨first, links⟩ := expression
  obtain ⟨head, rest, htokens, hstarts⟩ := first.exists_tokens
  exact ⟨head, rest ++ links.tokens, by rw [tokens, htokens]; rfl, hstarts⟩

theorem Arguments.exists_tokens (arguments : Arguments) :
    ∃ head rest, arguments.tokens = head :: rest ∧ Starts head := by
  cases arguments with
  | last argument closing =>
    obtain ⟨head, rest, htokens, hstarts⟩ := argument.exists_tokens
    exact ⟨head, rest ++ [closing.val], by rw [tokens, htokens]; rfl, hstarts⟩
  | more argument comma more =>
    obtain ⟨head, rest, htokens, hstarts⟩ := argument.exists_tokens
    exact ⟨head, rest ++ comma.val :: more.tokens, by rw [tokens, htokens]; rfl, hstarts⟩

theorem Arguments.getLast?_tokens : (arguments : Arguments) →
    ∃ closing : Terminal .parensClose, arguments.tokens.getLast? = some closing.val
  | .last argument closing => ⟨closing, by simp [tokens]⟩
  | .more argument comma rest => by
    obtain ⟨closing, hclosing⟩ := rest.getLast?_tokens
    exact ⟨closing, by simp [tokens, List.getLast?_cons, hclosing]⟩

theorem Operand.getLast?_tokens (operand : Operand) :
    ∃ last, operand.tokens.getLast? = some last ∧
      (last.kind = .identifier ↔ operand.isName = true) := by
  cases operand with
  | number token => exact ⟨token, rfl, by simp [isName, token.property]⟩
  | name token => exact ⟨token, rfl, by simp [isName, token.property]⟩
  | emptyCall callee opening closing => exact ⟨closing, rfl, by simp [isName, closing.property]⟩
  | call callee opening arguments =>
    obtain ⟨closing, hclosing⟩ := arguments.getLast?_tokens
    refine ⟨closing, ?_, by simp [isName, closing.property]⟩
    simp [tokens, List.getLast?_cons, hclosing]
  | parens opening inner closing =>
    refine ⟨closing, ?_, by simp [isName, closing.property]⟩
    simp [tokens, List.getLast?_cons]

-- The last token of what a chain adds to an operand, or else that of the operand.
theorem Links.getLast?_tokens : (links : Links) → (tokens : List Token) → (before : Bool) →
    (∃ last, tokens.getLast? = some last ∧ (last.kind = .identifier ↔ before = true)) →
    ∃ last, (tokens ++ links.tokens).getLast? = some last ∧
      (last.kind = .identifier ↔ links.endsInName before = true)
  | .nil, tokens, before, h => by simpa [Links.tokens, endsInName] using h
  | .cons op operand rest, tokens, before, h => by
    have hrest := rest.getLast?_tokens (tokens ++ op.val :: operand.tokens) operand.isName (by
      obtain ⟨last, hlast, hiff⟩ := operand.getLast?_tokens
      exact ⟨last, by simp [List.getLast?_cons, hlast], hiff⟩)
    simpa [Links.tokens, endsInName] using hrest

theorem Expression.getLast?_tokens (expression : Expression) :
    ∃ last, expression.tokens.getLast? = some last ∧
      (last.kind = .identifier ↔ expression.endsInName = true) := by
  obtain ⟨first, links⟩ := expression
  exact links.getLast?_tokens first.tokens first.isName first.getLast?_tokens

theorem Phrase.getLast?_tokens (phrase : Phrase) :
    ∃ last, phrase.tokens.getLast? = some last ∧
      (last.kind = .identifier ↔ phrase.body.endsInName = true) := by
  cases phrase with
  | definition keyword header body =>
    obtain ⟨last, hlast, hiff⟩ := body.getLast?_tokens
    exact ⟨last, by simp [tokens, List.getLast?_cons, hlast], hiff⟩
  | bare body => exact body.getLast?_tokens

-- No parenthesis makes a call of what comes before, if that is a bare name.
def Uncalled (named : Bool) (rest : List Token) : Prop :=
  named = true → ∀ head ∈ rest.head?, head.kind ≠ .parensOpen

theorem apart_iff {phrase : Phrase} {tokens : List Token} :
    Apart phrase.tokens tokens ↔ Uncalled phrase.body.endsInName tokens := by
  obtain ⟨last, hlast, hiff⟩ := phrase.getLast?_tokens
  simp only [Apart, Uncalled, hlast, Option.mem_some_iff, forall_eq', ← hiff]
  exact ⟨fun h hname head hhead => h head hhead hname, fun h head hhead hname => h hname head hhead⟩

theorem Phrase.exists_tokens (phrase : Phrase) :
    ∃ head rest, phrase.tokens = head :: rest ∧ (head.kind = .define ∨ Starts head) := by
  cases phrase with
  | definition keyword header body => exact ⟨_, _, rfl, .inl keyword.property⟩
  | bare body =>
    obtain ⟨head, rest, htokens, hstarts⟩ := body.exists_tokens
    exact ⟨head, rest, htokens, .inr hstarts⟩

theorem greedy_cons {phrase : Phrase} {rest : List Phrase} :
    Greedy (phrase :: rest) ↔
      Uncalled phrase.body.endsInName (rest.flatMap Phrase.tokens) ∧ Greedy rest := by
  cases rest with
  | nil => simp [Greedy, Uncalled]
  | cons second rest =>
    obtain ⟨head, tokens, htokens, -⟩ := second.exists_tokens
    simp only [Greedy, List.map_cons, List.isChain_cons_cons, apart_iff, List.flatMap_cons,
      Uncalled, htokens, List.cons_append, List.head?_cons]

end Ends

end ExprLang.Grammar
