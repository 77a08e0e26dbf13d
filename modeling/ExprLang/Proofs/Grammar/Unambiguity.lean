import ExprLang.Proofs.Grammar.Derivation

-- Tokens have no more than one greedy derivation. The kind of a token tells
-- what it begins, and the kind of the next whether a name is called.

namespace ExprLang.Grammar

-- No operator goes on with the chain that comes before.
def NoOperator (rest : List Token) : Prop := ∀ head ∈ rest.head?, head.kind ≠ .binaryOperator

instance (rest : List Token) : Decidable (NoOperator rest) :=
  inferInstanceAs (Decidable (∀ head ∈ rest.head?, head.kind ≠ .binaryOperator))

-- Nothing goes on with an expression that ends there, in a bare name or not.
structure Delimited (named : Bool) (rest : List Token) : Prop where
  uncalled : Uncalled named rest
  noOperator : NoOperator rest

section Heads

variable {kind kind' : TokenKind} {token : Terminal kind} {token' : Terminal kind'}
  {rest rest' : List Token}

theorem kind_eq_of_cons (h : token.val :: rest = token'.val :: rest') : kind = kind' := by
  have hhead := List.head_eq_of_cons_eq h
  rw [← token.property, ← token'.property, hhead]

theorem eq_of_cons {token' : Terminal kind} (h : token.val :: rest = token'.val :: rest') :
    token = token' ∧ rest = rest' :=
  ⟨Subtype.ext (List.head_eq_of_cons_eq h), List.tail_eq_of_cons_eq h⟩

theorem uncalled_cons (named : Bool) (hkind : kind ≠ .parensOpen) :
    Uncalled named (token.val :: rest) := by
  intro _ head hhead
  obtain rfl := Option.mem_some_iff.mp hhead
  rwa [token.property]

theorem delimited_cons {named : Bool} (hkind : kind ≠ .parensOpen ∧ kind ≠ .binaryOperator) :
    Delimited named (token.val :: rest) := by
  refine ⟨uncalled_cons named hkind.1, fun head hhead => ?_⟩
  obtain rfl := Option.mem_some_iff.mp hhead
  rw [token.property]
  exact hkind.2

end Heads

-- Only a last operand can be called by what comes behind the chain.
theorem Links.uncalled {links : Links} {before : Bool} {rest : List Token}
    (h : Uncalled (links.endsInName before) rest) : Uncalled before (links.tokens ++ rest) := by
  cases links with
  | nil => exact h
  | cons op operand more => exact uncalled_cons before (by decide)

-- A call that is closed at once has no arguments.
theorem Arguments.ne_closing (arguments : Arguments) (closing : Terminal .parensClose)
    (rest rest' : List Token) : closing.val :: rest ≠ arguments.tokens ++ rest' := by
  intro h
  obtain ⟨head, more, htokens, hstarts⟩ := arguments.exists_tokens
  rw [htokens] at h
  have hhead := List.head_eq_of_cons_eq h
  exact hstarts.kind_ne.1 (hhead ▸ closing.property)

section Unique

mutual

theorem Operand.unique : (operand operand' : Operand) → (rest rest' : List Token) →
    operand.tokens ++ rest = operand'.tokens ++ rest' → Uncalled operand.isName rest →
    Uncalled operand'.isName rest' → operand = operand' ∧ rest = rest'
  | .number token, operand', rest, rest', h, _, _ => by
    cases operand' with
    | number token' =>
      obtain ⟨rfl, rfl⟩ := eq_of_cons h
      exact ⟨rfl, rfl⟩
    | name token' => exact absurd (kind_eq_of_cons h) (by decide)
    | emptyCall callee' => exact absurd (kind_eq_of_cons h) (by decide)
    | call callee' => exact absurd (kind_eq_of_cons h) (by decide)
    | parens opening' => exact absurd (kind_eq_of_cons h) (by decide)
  | .name token, operand', rest, rest', h, huncalled, _ => by
    cases operand' with
    | number token' => exact absurd (kind_eq_of_cons h) (by decide)
    | name token' =>
      obtain ⟨rfl, rfl⟩ := eq_of_cons h
      exact ⟨rfl, rfl⟩
    | emptyCall callee' opening' closing' =>
      obtain ⟨-, rfl⟩ := eq_of_cons h
      exact absurd opening'.property (huncalled rfl _ rfl)
    | call callee' opening' arguments' =>
      obtain ⟨-, rfl⟩ := eq_of_cons h
      exact absurd opening'.property (huncalled rfl _ rfl)
    | parens opening' => exact absurd (kind_eq_of_cons h) (by decide)
  | .emptyCall callee opening closing, operand', rest, rest', h, _, huncalled => by
    cases operand' with
    | number token' => exact absurd (kind_eq_of_cons h) (by decide)
    | name token' =>
      obtain ⟨-, rfl⟩ := eq_of_cons h
      exact absurd opening.property (huncalled rfl _ rfl)
    | emptyCall callee' opening' closing' =>
      obtain ⟨rfl, htail⟩ := eq_of_cons h
      obtain ⟨rfl, hmore⟩ := eq_of_cons htail
      obtain ⟨rfl, rfl⟩ := eq_of_cons hmore
      exact ⟨rfl, rfl⟩
    | call callee' opening' arguments' =>
      obtain ⟨-, htail⟩ := eq_of_cons h
      obtain ⟨-, hmore⟩ := eq_of_cons htail
      exact absurd hmore (arguments'.ne_closing closing rest rest')
    | parens opening' => exact absurd (kind_eq_of_cons h) (by decide)
  | .call callee opening arguments, operand', rest, rest', h, _, huncalled => by
    cases operand' with
    | number token' => exact absurd (kind_eq_of_cons h) (by decide)
    | name token' =>
      obtain ⟨-, rfl⟩ := eq_of_cons h
      exact absurd opening.property (huncalled rfl _ rfl)
    | emptyCall callee' opening' closing' =>
      obtain ⟨-, htail⟩ := eq_of_cons h
      obtain ⟨-, hmore⟩ := eq_of_cons htail
      exact absurd hmore.symm (arguments.ne_closing closing' rest' rest)
    | call callee' opening' arguments' =>
      obtain ⟨rfl, htail⟩ := eq_of_cons h
      obtain ⟨rfl, hmore⟩ := eq_of_cons htail
      obtain ⟨rfl, rfl⟩ := arguments.unique arguments' rest rest' hmore
      exact ⟨rfl, rfl⟩
    | parens opening' => exact absurd (kind_eq_of_cons h) (by decide)
  | .parens opening inner closing, operand', rest, rest', h, _, _ => by
    cases operand' with
    | number token' => exact absurd (kind_eq_of_cons h) (by decide)
    | name token' => exact absurd (kind_eq_of_cons h) (by decide)
    | emptyCall callee' => exact absurd (kind_eq_of_cons h) (by decide)
    | call callee' => exact absurd (kind_eq_of_cons h) (by decide)
    | parens opening' inner' closing' =>
      simp only [Operand.tokens, List.cons_append, List.append_assoc, List.nil_append] at h
      obtain ⟨rfl, htail⟩ := eq_of_cons h
      obtain ⟨rfl, hmore⟩ := inner.unique inner' _ _ htail (delimited_cons (by decide))
        (delimited_cons (by decide))
      obtain ⟨rfl, rfl⟩ := eq_of_cons hmore
      exact ⟨rfl, rfl⟩

theorem Arguments.unique : (arguments arguments' : Arguments) → (rest rest' : List Token) →
    arguments.tokens ++ rest = arguments'.tokens ++ rest' → arguments = arguments' ∧ rest = rest'
  | .last argument closing, arguments', rest, rest', h => by
    cases arguments' with
    | last argument' closing' =>
      simp only [Arguments.tokens, List.append_assoc, List.cons_append, List.nil_append] at h
      obtain ⟨rfl, htail⟩ := argument.unique argument' _ _ h (delimited_cons (by decide))
        (delimited_cons (by decide))
      obtain ⟨rfl, rfl⟩ := eq_of_cons htail
      exact ⟨rfl, rfl⟩
    | more argument' comma' more' =>
      simp only [Arguments.tokens, List.append_assoc, List.cons_append, List.nil_append] at h
      obtain ⟨rfl, htail⟩ := argument.unique argument' _ _ h (delimited_cons (by decide))
        (delimited_cons (by decide))
      exact absurd (kind_eq_of_cons htail) (by decide)
  | .more argument comma more, arguments', rest, rest', h => by
    cases arguments' with
    | last argument' closing' =>
      simp only [Arguments.tokens, List.append_assoc, List.cons_append, List.nil_append] at h
      obtain ⟨rfl, htail⟩ := argument.unique argument' _ _ h (delimited_cons (by decide))
        (delimited_cons (by decide))
      exact absurd (kind_eq_of_cons htail) (by decide)
    | more argument' comma' more' =>
      simp only [Arguments.tokens, List.append_assoc, List.cons_append] at h
      obtain ⟨rfl, htail⟩ := argument.unique argument' _ _ h (delimited_cons (by decide))
        (delimited_cons (by decide))
      obtain ⟨rfl, hmore⟩ := eq_of_cons htail
      obtain ⟨rfl, rfl⟩ := more.unique more' rest rest' hmore
      exact ⟨rfl, rfl⟩

theorem Expression.unique : (expression expression' : Expression) → (rest rest' : List Token) →
    expression.tokens ++ rest = expression'.tokens ++ rest' →
    Delimited expression.endsInName rest → Delimited expression'.endsInName rest' →
    expression = expression' ∧ rest = rest'
  | .chain first links, .chain first' links', rest, rest', h, hrest, hrest' => by
    simp only [Expression.tokens, List.append_assoc] at h
    obtain ⟨rfl, htail⟩ := first.unique first' _ _ h (Links.uncalled hrest.uncalled)
      (Links.uncalled hrest'.uncalled)
    obtain ⟨rfl, rfl⟩ := links.unique links' first.isName rest rest' htail hrest hrest'
    exact ⟨rfl, rfl⟩

theorem Links.unique : (links links' : Links) → (before : Bool) → (rest rest' : List Token) →
    links.tokens ++ rest = links'.tokens ++ rest' → Delimited (links.endsInName before) rest →
    Delimited (links'.endsInName before) rest' → links = links' ∧ rest = rest'
  | .nil, links', before, rest, rest', h, hrest, _ => by
    cases links' with
    | nil => exact ⟨rfl, h⟩
    | cons op' operand' more' =>
      obtain rfl : rest = op'.val :: (operand'.tokens ++ more'.tokens) ++ rest' := h
      exact absurd op'.property (hrest.noOperator _ rfl)
  | .cons op operand more, links', before, rest, rest', h, hrest, hrest' => by
    cases links' with
    | nil =>
      obtain rfl : op.val :: (operand.tokens ++ more.tokens) ++ rest = rest' := h
      exact absurd op.property (hrest'.noOperator _ rfl)
    | cons op' operand' more' =>
      simp only [Links.tokens, List.cons_append, List.append_assoc] at h
      obtain ⟨rfl, htail⟩ := eq_of_cons h
      obtain ⟨rfl, hmore⟩ := operand.unique operand' _ _ htail (Links.uncalled hrest.uncalled)
        (Links.uncalled hrest'.uncalled)
      obtain ⟨rfl, rfl⟩ := more.unique more' operand.isName rest rest' hmore hrest hrest'
      exact ⟨rfl, rfl⟩

end

theorem Parameters.unique (parameters parameters' : Parameters) (rest rest' : List Token)
    (h : parameters.tokens ++ rest = parameters'.tokens ++ rest') :
    parameters = parameters' ∧ rest = rest' := by
  induction parameters generalizing parameters' with
  | last name closing =>
    cases parameters' with
    | last name' closing' =>
      obtain ⟨rfl, htail⟩ := eq_of_cons h
      obtain ⟨rfl, rfl⟩ := eq_of_cons htail
      exact ⟨rfl, rfl⟩
    | close closing' =>
      have hhead := List.head_eq_of_cons_eq h
      exact absurd (hhead ▸ name.property) closing'.property
    | more name' comma' more' =>
      obtain ⟨-, htail⟩ := eq_of_cons h
      exact absurd (kind_eq_of_cons htail) (by decide)
  | close closing =>
    cases parameters' with
    | last name' closing' =>
      have hhead := List.head_eq_of_cons_eq h
      exact absurd (hhead ▸ name'.property) closing.property
    | close closing' =>
      obtain rfl := Subtype.ext (List.head_eq_of_cons_eq h)
      exact ⟨rfl, List.tail_eq_of_cons_eq h⟩
    | more name' comma' more' =>
      have hhead := List.head_eq_of_cons_eq h
      exact absurd (hhead ▸ name'.property) closing.property
  | more name comma more ih =>
    cases parameters' with
    | last name' closing' =>
      obtain ⟨-, htail⟩ := eq_of_cons h
      exact absurd (kind_eq_of_cons htail) (by decide)
    | close closing' =>
      have hhead := List.head_eq_of_cons_eq h
      exact absurd (hhead ▸ name.property) closing'.property
    | more name' comma' more' =>
      obtain ⟨rfl, htail⟩ := eq_of_cons h
      obtain ⟨rfl, hmore⟩ := eq_of_cons htail
      obtain ⟨rfl, rfl⟩ := ih more' hmore
      exact ⟨rfl, rfl⟩

theorem Header.unique (header header' : Header) (rest rest' : List Token)
    (h : header.tokens ++ rest = header'.tokens ++ rest') : header = header' ∧ rest = rest' := by
  obtain ⟨name, opening, parameters⟩ := header
  obtain ⟨name', opening', parameters'⟩ := header'
  obtain ⟨rfl, htail⟩ := eq_of_cons h
  obtain ⟨rfl, hmore⟩ := eq_of_cons htail
  obtain ⟨rfl, rfl⟩ := parameters.unique parameters' rest rest' hmore
  exact ⟨rfl, rfl⟩

theorem Phrase.unique (phrase phrase' : Phrase) (rest rest' : List Token)
    (h : phrase.tokens ++ rest = phrase'.tokens ++ rest')
    (hrest : Delimited phrase.body.endsInName rest)
    (hrest' : Delimited phrase'.body.endsInName rest') : phrase = phrase' ∧ rest = rest' := by
  cases phrase with
  | definition keyword header body =>
    cases phrase' with
    | definition keyword' header' body' =>
      simp only [tokens, List.cons_append, List.append_assoc] at h
      obtain ⟨rfl, htail⟩ := eq_of_cons h
      obtain ⟨rfl, hmore⟩ := header.unique header' _ _ htail
      obtain ⟨rfl, rfl⟩ := body.unique body' rest rest' hmore hrest hrest'
      exact ⟨rfl, rfl⟩
    | bare body' =>
      obtain ⟨head, more, htokens, hstarts⟩ := body'.exists_tokens
      simp only [tokens, htokens] at h
      have hhead := List.head_eq_of_cons_eq h
      exact absurd (hhead ▸ keyword.property) hstarts.kind_ne.2.2
  | bare body =>
    cases phrase' with
    | definition keyword' header' body' =>
      obtain ⟨head, more, htokens, hstarts⟩ := body.exists_tokens
      simp only [tokens, htokens] at h
      have hhead := List.head_eq_of_cons_eq h
      exact absurd (hhead ▸ keyword'.property) hstarts.kind_ne.2.2
    | bare body' =>
      obtain ⟨rfl, rfl⟩ := body.unique body' rest rest' h hrest hrest'
      exact ⟨rfl, rfl⟩

end Unique

theorem noOperator_flatMap (phrases : List Phrase) :
    NoOperator (phrases.flatMap Phrase.tokens) := by
  cases phrases with
  | nil => simp [NoOperator]
  | cons phrase phrases =>
    obtain ⟨head, tokens, htokens, hhead⟩ := phrase.exists_tokens
    simp only [NoOperator, List.flatMap_cons, htokens, List.cons_append, List.head?_cons,
      Option.mem_some_iff, forall_eq']
    rcases hhead with hdefine | hstarts
    · simp [hdefine]
    · exact hstarts.kind_ne.2.1

theorem greedy_unique {phrases phrases' : List Phrase} (hgreedy : Greedy phrases)
    (hgreedy' : Greedy phrases')
    (h : phrases.flatMap Phrase.tokens = phrases'.flatMap Phrase.tokens) : phrases = phrases' := by
  induction phrases generalizing phrases' with
  | nil =>
    cases phrases' with
    | nil => rfl
    | cons phrase' phrases' =>
      obtain ⟨head, tokens, htokens, -⟩ := phrase'.exists_tokens
      simp [htokens] at h
  | cons phrase phrases ih =>
    cases phrases' with
    | nil =>
      obtain ⟨head, tokens, htokens, -⟩ := phrase.exists_tokens
      simp [htokens] at h
    | cons phrase' phrases' =>
      obtain ⟨huncalled, hrest⟩ := greedy_cons.mp hgreedy
      obtain ⟨huncalled', hrest'⟩ := greedy_cons.mp hgreedy'
      rw [List.flatMap_cons, List.flatMap_cons] at h
      obtain ⟨rfl, htail⟩ := phrase.unique phrase' _ _ h ⟨huncalled, noOperator_flatMap phrases⟩
        ⟨huncalled', noOperator_flatMap phrases'⟩
      rw [ih hrest hrest' htail]

end ExprLang.Grammar
