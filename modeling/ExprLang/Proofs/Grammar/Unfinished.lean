import ExprLang.Proofs.Grammar.Walk

-- Programs that have been read up to some token: phrases that are over, and
-- what there is of the next one. Where in the grammar the next token stands is
-- told by what comes before it, and each reader of positions finds it there.

namespace ExprLang.Grammar

-- What there is of a phrase where an operand begins. The index is what is open
-- around that operand, the innermost first.
inductive Opening : List Frame → Type where
  -- the operand comes first in a bare expression
  | bare : Opening []
  -- or in the body of a definition, behind the token that closes the prototype
  | body (keyword : Terminal .define) (header : Header) : Opening []
  -- behind an operator
  | operator {frames : List Frame} (before : Opening frames) (operand : Operand)
      (op : Terminal .binaryOperator) : Opening frames
  -- behind a parenthesis that opens no call
  | parens {frames : List Frame} (before : Opening frames) (paren : Terminal .parensOpen) :
      Opening (.parens :: frames)
  -- behind the parenthesis of a call
  | call {frames : List Frame} (before : Opening frames) (callee : Terminal .identifier)
      (paren : Terminal .parensOpen) : Opening (.call :: frames)
  -- behind a comma of a call, which ends the argument before it
  | comma {frames : List Frame} (before : Opening (.call :: frames)) (operand : Operand)
      (comma : Terminal .comma) : Opening (.call :: frames)

-- Parameter names, each with the comma behind it.
abbrev Names := List (Terminal .identifier × Terminal .comma)

def Names.tokens (names : Names) : List Token := names.flatMap fun name => [name.1.val, name.2.val]

namespace Opening

def tokens {frames : List Frame} : Opening frames → List Token
  | .bare => []
  | .body keyword header => keyword.val :: header.tokens
  | .operator before operand op => before.tokens ++ (operand.tokens ++ [op.val])
  | .parens before paren => before.tokens ++ [paren.val]
  | .call before callee paren => before.tokens ++ [callee.val, paren.val]
  | .comma before operand separator => before.tokens ++ (operand.tokens ++ [separator.val])

-- Every operator is listed, and none at a negative level.
def Listed (table : PrecedenceTable) {frames : List Frame} : Opening frames → Prop
  | .bare | .body .. => True
  | .operator before operand op =>
    before.Listed table ∧ operand.Listed table ∧
      ∃ level, table.level? op.val.value = some level ∧ 0 ≤ level
  | .parens before _ | .call before .. => before.Listed table
  | .comma before operand _ => before.Listed table ∧ operand.Listed table

-- A call may be closed at once.
def position {frames : List Frame} : Opening frames → Position
  | .bare => .start
  | @Opening.call frames _ _ _ => .firstArgument frames
  | .body .. | .operator .. | .parens .. | .comma .. => .operand frames

end Opening

-- The tokens go on where these phrases end: no parenthesis makes a call of a
-- name that comes last.
structure Follows (table : PrecedenceTable) (phrases : List Phrase) (tokens : List Token) :
    Prop where
  listed : ∀ phrase ∈ phrases, phrase.Listed table
  greedy : Greedy phrases
  apart : ∀ phrase ∈ phrases.getLast?, Apart phrase.tokens tokens

-- The tokens of a program end at this position, and the next token stands there.
inductive Stands (table : PrecedenceTable) : List Token → Position → Prop where
  | start : Stands table [] .start
  -- directly behind the keyword of a definition
  | keyword {phrases : List Phrase} (keyword : Terminal .define)
      (h : Follows table phrases [keyword.val]) :
      Stands table (phrases.flatMap Phrase.tokens ++ [keyword.val]) .keyword
  | functionName {phrases : List Phrase} (keyword : Terminal .define) (name : Terminal .identifier)
      (h : Follows table phrases [keyword.val]) :
      Stands table (phrases.flatMap Phrase.tokens ++ [keyword.val, name.val]) .functionName
  -- where a parameter may begin, behind the parenthesis or a comma
  | parameter {phrases : List Phrase} (keyword : Terminal .define) (name : Terminal .identifier)
      (opening : Terminal .parensOpen) (names : Names) (h : Follows table phrases [keyword.val]) :
      Stands table (phrases.flatMap Phrase.tokens ++
        keyword.val :: name.val :: opening.val :: names.tokens) .parameter
  | parameterName {phrases : List Phrase} (keyword : Terminal .define) (name : Terminal .identifier)
      (opening : Terminal .parensOpen) (names : Names) (last : Terminal .identifier)
      (h : Follows table phrases [keyword.val]) :
      Stands table (phrases.flatMap Phrase.tokens ++
        keyword.val :: name.val :: opening.val :: (names.tokens ++ [last.val])) .parameterName
  -- where an operand begins
  | operand {phrases : List Phrase} {frames : List Frame} (opening : Opening frames)
      (hbegun : opening.tokens ≠ []) (hlisted : opening.Listed table)
      (h : Follows table phrases opening.tokens) :
      Stands table (phrases.flatMap Phrase.tokens ++ opening.tokens) opening.position
  -- behind a complete one
  | complete {phrases : List Phrase} {frames : List Frame} (opening : Opening frames)
      (operand : Operand) (hlisted : opening.Listed table ∧ operand.Listed table)
      (h : Follows table phrases (opening.tokens ++ operand.tokens)) :
      Stands table (phrases.flatMap Phrase.tokens ++ (opening.tokens ++ operand.tokens))
        (.complete operand.isName frames)

section Reading

variable {table : PrecedenceTable}

-- Where a reader stands behind phrases that are over.
def boundary (phrases : List Phrase) : Position :=
  match phrases.getLast? with
  | none => .start
  | some phrase => .complete phrase.body.endsInName []

theorem boundary_append (phrases : List Phrase) (phrase : Phrase) :
    boundary (phrases ++ [phrase]) = .complete phrase.body.endsInName [] := by
  simp [boundary]

theorem boundary_cases (phrases : List Phrase) :
    boundary phrases = .start ∨ ∃ phrase ∈ phrases.getLast?,
      boundary phrases = .complete phrase.body.endsInName [] := by
  unfold boundary
  cases hlast : phrases.getLast? with
  | none => exact .inl rfl
  | some phrase => exact .inr ⟨phrase, rfl, rfl⟩

theorem walk_phrases {phrases : List Phrase} (hlisted : ∀ phrase ∈ phrases, phrase.Listed table)
    (rest : List Token) :
    Position.start.walk table (phrases.flatMap Phrase.tokens ++ rest) =
      (boundary phrases).walk table rest := by
  induction phrases using List.reverseRecOn generalizing rest with
  | nil => rfl
  | append_singleton phrases phrase ih =>
    have hphrase := hlisted phrase (by simp)
    rw [List.flatMap_append, List.flatMap_singleton, List.append_assoc,
      ih fun other hother => hlisted other (by simp [hother]), boundary_append]
    rcases boundary_cases phrases with hstart | ⟨last, -, hbehind⟩
    · rw [hstart, phrase.walk hphrase]
    · rw [hbehind, phrase.walk_behind hphrase]

theorem Follows.walk {phrases : List Phrase} {tokens : List Token}
    (h : Follows table phrases tokens) (hne : tokens ≠ [])
    (hoperator : ∀ head ∈ tokens.head?, head.kind ≠ .binaryOperator) :
    Position.start.walk table (phrases.flatMap Phrase.tokens ++ tokens) =
      Position.start.walk table tokens := by
  rw [walk_phrases h.listed]
  rcases boundary_cases phrases with hstart | ⟨last, hlast, hbehind⟩
  · rw [hstart]
  · rw [hbehind]
    have hcalled := apart_iff.mp (h.apart last hlast)
    cases tokens with
    | nil => exact absurd rfl hne
    | cons head rest => exact walk_behind (hoperator head rfl) fun hnamed => hcalled hnamed head rfl

-- Only the first of the tokens that follow counts.
theorem Follows.congr {phrases : List Phrase} {tokens tokens' : List Token}
    (h : Follows table phrases tokens) (hhead : tokens'.head? = tokens.head?) :
    Follows table phrases tokens' := by
  refine ⟨h.listed, h.greedy, fun phrase hphrase last hlast head hmem => ?_⟩
  exact h.apart phrase hphrase last hlast head (hhead ▸ hmem)

theorem Follows.append_right {phrases : List Phrase} {tokens : List Token}
    (h : Follows table phrases tokens) (hne : tokens ≠ []) (more : List Token) :
    Follows table phrases (tokens ++ more) :=
  h.congr (List.head?_append_of_ne_nil _ hne)

theorem Follows.walk_keyword {phrases : List Phrase} {keyword : Terminal .define}
    (h : Follows table phrases [keyword.val]) (rest : List Token) :
    Position.start.walk table (phrases.flatMap Phrase.tokens ++ keyword.val :: rest) =
      Position.keyword.walk table rest := by
  have hfollows : Follows table phrases (keyword.val :: rest) := h.congr rfl
  rw [hfollows.walk (by simp) (by simp [keyword.property]),
    Position.walk_cons (step_define keyword.property)]

theorem walk_names (names : Names) (rest : List Token) :
    Position.parameter.walk table (names.tokens ++ rest) = Position.parameter.walk table rest := by
  induction names with
  | nil => rfl
  | cons name names ih =>
    obtain ⟨name, comma⟩ := name
    simp only [Names.tokens, List.flatMap_cons, List.cons_append, List.nil_append] at ih ⊢
    rw [Position.walk_cons (step_parameter name.property),
      Position.walk_cons (step_nextParameter comma.property), ih]

namespace Opening

variable {frames : List Frame}

theorem head_kind_ne (opening : Opening frames) (rest : List Token)
    (hrest : ∀ head ∈ rest.head?, head.kind ≠ .binaryOperator) :
    ∀ head ∈ (opening.tokens ++ rest).head?, head.kind ≠ .binaryOperator := by
  induction opening generalizing rest with
  | bare => exact hrest
  | body keyword header =>
    intro head hhead
    obtain rfl := Option.mem_some_iff.mp hhead
    simp [keyword.property]
  | operator before operand op ih | comma before operand separator ih =>
    rw [tokens, List.append_assoc]
    refine ih _ fun head hhead => ?_
    obtain ⟨first, more, htokens, hstarts⟩ := operand.exists_tokens
    rw [htokens] at hhead
    obtain rfl := Option.mem_some_iff.mp hhead
    exact hstarts.kind_ne.2.1
  | parens before paren ih =>
    rw [tokens, List.append_assoc]
    refine ih _ fun head hhead => ?_
    obtain rfl := Option.mem_some_iff.mp hhead
    simp [paren.property]
  | call before callee paren ih =>
    rw [tokens, List.append_assoc]
    refine ih _ fun head hhead => ?_
    obtain rfl := Option.mem_some_iff.mp hhead
    simp [callee.property]

-- Wherever an operand begins, what begins one is read as one.
theorem step_position (opening : Opening frames) {head : Token} (h : Starts head) :
    opening.position.step table head = Position.stepOperand frames head := by
  cases opening with
  | bare => exact if_neg h.kind_ne.2.2
  | call => exact if_neg h.kind_ne.1
  | body | operator | parens | comma => rfl

theorem walk_operand (opening : Opening frames) {operand : Operand}
    (hlisted : operand.Listed table) (rest : List Token) :
    opening.position.walk table (operand.tokens ++ rest) =
      (Position.complete operand.isName frames).walk table rest := by
  rw [← operand.walk hlisted frames rest]
  obtain ⟨head, more, htokens, hstarts⟩ := operand.exists_tokens
  rw [htokens]
  simp only [List.cons_append, Position.walk, List.foldlM_cons, opening.step_position hstarts]
  rfl

theorem walk (opening : Opening frames) (hlisted : opening.Listed table) (rest : List Token) :
    Position.start.walk table (opening.tokens ++ rest) = opening.position.walk table rest := by
  induction opening generalizing rest with
  | bare => rfl
  | body keyword header =>
    simp only [tokens, position, List.cons_append]
    rw [Position.walk_cons (step_define keyword.property), header.walk]
  | operator before operand op ih =>
    obtain ⟨hbefore, hoperand, level, hlevel, hle⟩ := hlisted
    simp only [tokens, position, List.append_assoc, List.cons_append, List.nil_append]
    rw [ih hbefore, before.walk_operand hoperand,
      Position.walk_cons (step_operator _ _ op.property hlevel hle)]
  | @parens around before paren ih =>
    have hstep : before.position.step table paren.val = .ok (.operand (.parens :: around)) := by
      rw [before.step_position (.inr (.inr paren.property))]
      simp [Position.stepOperand, paren.property]
    simp only [tokens, position, List.append_assoc, List.cons_append, List.nil_append]
    rw [ih hlisted, Position.walk_cons hstep]
  | @call around before callee paren ih =>
    have hstep : before.position.step table callee.val = .ok (.complete true around) := by
      rw [before.step_position (.inr (.inl callee.property))]
      simp [Position.stepOperand, callee.property]
    simp only [tokens, position, List.append_assoc, List.cons_append, List.nil_append]
    rw [ih hlisted, Position.walk_cons hstep, Position.walk_cons (step_call _ paren.property)]
  | comma before operand separator ih =>
    obtain ⟨hbefore, hoperand⟩ := hlisted
    simp only [tokens, position, List.append_assoc, List.cons_append, List.nil_append]
    rw [ih hbefore, before.walk_operand hoperand,
      Position.walk_cons (step_comma _ _ separator.property)]

end Opening

-- The reader of positions is where the tokens end.
theorem Stands.walk {tokens : List Token} {position : Position}
    (h : Stands table tokens position) : Position.start.walk table tokens = .ok position := by
  cases h with
  | start => rfl
  | keyword keyword h => rw [h.walk_keyword, Position.walk_nil]
  | functionName keyword name h =>
    rw [h.walk_keyword, Position.walk_cons (step_functionName name.property), Position.walk_nil]
  | parameter keyword name opening names h =>
    rw [h.walk_keyword, Position.walk_cons (step_functionName name.property),
      Position.walk_cons (step_header opening.property), ← List.append_nil names.tokens,
      walk_names, Position.walk_nil]
  | parameterName keyword name opening names last h =>
    rw [h.walk_keyword, Position.walk_cons (step_functionName name.property),
      Position.walk_cons (step_header opening.property), walk_names,
      Position.walk_cons (step_parameter last.property), Position.walk_nil]
  | operand opening hbegun hlisted h =>
    have hkind := opening.head_kind_ne [] (by simp)
    rw [List.append_nil] at hkind
    rw [h.walk hbegun hkind, ← List.append_nil opening.tokens, opening.walk hlisted,
      Position.walk_nil]
  | complete opening operand hlisted h =>
    obtain ⟨first, rest, htokens, hstarts⟩ := operand.exists_tokens
    have hkind := opening.head_kind_ne operand.tokens (by simp [htokens, hstarts.kind_ne])
    rw [h.walk (by simp [htokens]) hkind, opening.walk hlisted.1, ← List.append_nil operand.tokens,
      opening.walk_operand hlisted.2, Position.walk_nil]

end Reading

end ExprLang.Grammar
