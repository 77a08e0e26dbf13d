import ExprLang.Proofs.Grammar.Derivation
import ExprLang.Proofs.Grammar.Position

-- Whoever reads what a derivation derives comes from where it may begin to
-- where it is complete, whatever is open around it.

namespace ExprLang.Grammar

variable {table : PrecedenceTable}

theorem walk_firstArgument {head : Token} {tokens : List Token} (frames : List Frame)
    (h : Starts head) :
    (Position.firstArgument frames).walk table (head :: tokens) =
      (Position.operand (.call :: frames)).walk table (head :: tokens) := by
  simp only [Position.walk, List.foldlM_cons, Position.step, h.kind_ne.1, if_false]

-- What the tokens of a derivation do where they may come.
section Steps

variable {token : Token} (named : Bool) (frames : List Frame)

theorem step_define (h : token.kind = .define) :
    Position.start.step table token = .ok .keyword := by
  simp [Position.step, Position.stepStart, h]

theorem step_functionName (h : token.kind = .identifier) :
    Position.keyword.step table token = .ok .functionName := by
  simp [Position.step, h]

theorem step_header (h : token.kind = .parensOpen) :
    Position.functionName.step table token = .ok .parameter := by
  simp [Position.step, h]

theorem step_parameter (h : token.kind = .identifier) :
    Position.parameter.step table token = .ok .parameterName := by
  simp [Position.step, h]

theorem step_noParameter (h : token.kind ≠ .identifier) :
    Position.parameter.step table token = .ok (.operand []) := by
  simp [Position.step, h]

theorem step_lastParameter (h : token.kind = .parensClose) :
    Position.parameterName.step table token = .ok (.operand []) := by
  simp [Position.step, h]

theorem step_nextParameter (h : token.kind = .comma) :
    Position.parameterName.step table token = .ok .parameter := by
  simp [Position.step, h]

theorem step_number (h : token.kind = .number) :
    (Position.operand frames).step table token = .ok (.complete false frames) := by
  simp [Position.step, Position.stepOperand, h]

theorem step_name (h : token.kind = .identifier) :
    (Position.operand frames).step table token = .ok (.complete true frames) := by
  simp [Position.step, Position.stepOperand, h]

theorem step_parens (h : token.kind = .parensOpen) :
    (Position.operand frames).step table token = .ok (.operand (.parens :: frames)) := by
  simp [Position.step, Position.stepOperand, h]

theorem step_call (h : token.kind = .parensOpen) :
    (Position.complete true frames).step table token = .ok (.firstArgument frames) := by
  simp [Position.step, h]

theorem step_noArgument (h : token.kind = .parensClose) :
    (Position.firstArgument frames).step table token = .ok (.complete false frames) := by
  simp [Position.step, h]

-- An operator that is listed asks for an operand.
theorem step_operator {level : Int} (h : token.kind = .binaryOperator)
    (hlevel : table.level? token.value = some level) (hle : 0 ≤ level) :
    (Position.complete named frames).step table token = .ok (.operand frames) := by
  simp [Position.step, h, hlevel, hle]

theorem step_close (frame : Frame) (h : token.kind = .parensClose) :
    (Position.complete named (frame :: frames)).step table token =
      .ok (.complete false frames) := by
  cases frame <;> simp [Position.step, Position.stepBehind, h]

theorem step_comma (h : token.kind = .comma) :
    (Position.complete named (.call :: frames)).step table token =
      .ok (.operand (.call :: frames)) := by
  simp [Position.step, Position.stepBehind, h]

end Steps

section Walk

mutual

theorem Operand.walk : (operand : Operand) → operand.Listed table → (frames : List Frame) →
    (rest : List Token) → (Position.operand frames).walk table (operand.tokens ++ rest) =
      (Position.complete operand.isName frames).walk table rest
  | .number token, _, frames, rest =>
    Position.walk_cons (step_number frames token.property)
  | .name token, _, frames, rest =>
    Position.walk_cons (step_name frames token.property)
  | .emptyCall callee opening closing, _, frames, rest => by
    simp only [Operand.tokens, List.cons_append, List.nil_append, Operand.isName]
    rw [Position.walk_cons (step_name frames callee.property),
      Position.walk_cons (step_call frames opening.property),
      Position.walk_cons (step_noArgument frames closing.property)]
  | .call callee opening arguments, hlisted, frames, rest => by
    have harguments := arguments.walk hlisted frames rest
    obtain ⟨head, more, htokens, hstarts⟩ := arguments.exists_tokens
    simp only [Operand.tokens, List.cons_append, Operand.isName]
    rw [Position.walk_cons (step_name frames callee.property),
      Position.walk_cons (step_call frames opening.property), ← harguments, htokens,
      List.cons_append, walk_firstArgument frames hstarts]
  | .parens opening inner closing, hlisted, frames, rest => by
    have hinner := inner.walk hlisted (.parens :: frames) (closing.val :: rest)
    simp only [Operand.tokens, List.cons_append, List.append_assoc, List.nil_append, Operand.isName]
    rw [Position.walk_cons (step_parens frames opening.property), hinner,
      Position.walk_cons (step_close _ frames _ closing.property)]

theorem Arguments.walk : (arguments : Arguments) → arguments.Listed table →
    (frames : List Frame) → (rest : List Token) →
    (Position.operand (.call :: frames)).walk table (arguments.tokens ++ rest) =
      (Position.complete false frames).walk table rest
  | .last argument closing, hlisted, frames, rest => by
    have hargument := argument.walk hlisted (.call :: frames) (closing.val :: rest)
    simp only [Arguments.tokens, List.append_assoc, List.cons_append, List.nil_append]
    rw [hargument, Position.walk_cons (step_close _ frames _ closing.property)]
  | .more argument comma more, hlisted, frames, rest => by
    have hargument := argument.walk hlisted.1 (.call :: frames) (comma.val :: (more.tokens ++ rest))
    have hmore := more.walk hlisted.2 frames rest
    simp only [Arguments.tokens, List.append_assoc, List.cons_append]
    rw [hargument, Position.walk_cons (step_comma _ frames comma.property), hmore]

theorem Expression.walk : (expression : Expression) → expression.Listed table →
    (frames : List Frame) → (rest : List Token) →
    (Position.operand frames).walk table (expression.tokens ++ rest) =
      (Position.complete expression.endsInName frames).walk table rest
  | .chain first links, hlisted, frames, rest => by
    have hfirst := first.walk hlisted.1 frames (links.tokens ++ rest)
    have hlinks := links.walk hlisted.2 first.isName frames rest
    simp only [Expression.tokens, List.append_assoc, Expression.endsInName]
    rw [hfirst, hlinks]

theorem Links.walk : (links : Links) → links.Listed table → (named : Bool) →
    (frames : List Frame) → (rest : List Token) →
    (Position.complete named frames).walk table (links.tokens ++ rest) =
      (Position.complete (links.endsInName named) frames).walk table rest
  | .nil, _, named, frames, rest => rfl
  | .cons op operand more, ⟨⟨level, hlevel, hle⟩, hoperand, hmore⟩, named, frames, rest => by
    have hoperand := operand.walk hoperand frames (more.tokens ++ rest)
    have hmore := more.walk hmore operand.isName frames rest
    simp only [Links.tokens, List.cons_append, List.append_assoc, Links.endsInName]
    rw [Position.walk_cons (step_operator named frames op.property hlevel hle), hoperand, hmore]

end

theorem Parameters.walk : (parameters : Parameters) → (rest : List Token) →
    Position.parameter.walk table (parameters.tokens ++ rest) =
      (Position.operand []).walk table rest
  | .last name closing, rest => by
    simp only [tokens, List.cons_append, List.nil_append]
    rw [Position.walk_cons (step_parameter name.property),
      Position.walk_cons (step_lastParameter closing.property)]
  | .close closing, rest => Position.walk_cons (step_noParameter closing.property)
  | .more name comma others, rest => by
    simp only [tokens, List.cons_append]
    rw [Position.walk_cons (step_parameter name.property),
      Position.walk_cons (step_nextParameter comma.property), others.walk rest]

theorem Header.walk (header : Header) (rest : List Token) :
    Position.keyword.walk table (header.tokens ++ rest) =
      (Position.operand []).walk table rest := by
  simp only [tokens, List.cons_append]
  rw [Position.walk_cons (step_functionName header.name.property),
    Position.walk_cons (step_header header.opening.property),
    header.parameters.walk rest]

theorem Phrase.walk (phrase : Phrase) (hlisted : phrase.Listed table) (rest : List Token) :
    Position.start.walk table (phrase.tokens ++ rest) =
      (Position.complete phrase.body.endsInName []).walk table rest := by
  cases phrase with
  | definition keyword header body =>
    have hbody := body.walk hlisted [] rest
    simp only [tokens, List.cons_append, List.append_assoc]
    rw [Position.walk_cons (step_define keyword.property), header.walk,
      hbody, Phrase.body]
  | bare body =>
    have hbody := body.walk hlisted [] rest
    obtain ⟨head, more, htokens, hstarts⟩ := body.exists_tokens
    simp only [tokens, Phrase.body]
    rw [← hbody, htokens]
    simp only [List.cons_append, Position.walk, List.foldlM_cons, Position.step, Position.stepStart,
      hstarts.kind_ne.2.2, if_false]

end Walk

-- Behind a complete operand with nothing open around it a phrase begins.
theorem step_behind {head : Token} {named : Bool} (hoperator : head.kind ≠ .binaryOperator)
    (hcall : named = true → head.kind ≠ .parensOpen) :
    (Position.complete named []).step table head = Position.start.step table head := by
  simp only [Position.step, Position.stepBehind]
  rw [if_neg fun h => hcall h.1 h.2, if_neg hoperator]

theorem walk_behind {head : Token} {tokens : List Token} {named : Bool}
    (hoperator : head.kind ≠ .binaryOperator) (hcall : named = true → head.kind ≠ .parensOpen) :
    (Position.complete named []).walk table (head :: tokens) =
      Position.start.walk table (head :: tokens) := by
  simp only [Position.walk, List.foldlM_cons, step_behind hoperator hcall]

-- A name and parentheses behind it are read as a call, which is complete where
-- the parentheses are.
theorem walk_group (opening : Terminal .parensOpen) (inner : Expression)
    (closing : Terminal .parensClose) (hlisted : inner.Listed table) (rest : List Token) :
    (Position.complete true []).walk table (opening.val :: (inner.tokens ++ closing.val :: rest)) =
      Position.start.walk table (opening.val :: (inner.tokens ++ closing.val :: rest)) := by
  obtain ⟨head, more, htokens, hstarts⟩ := inner.exists_tokens
  have hgroup : ∀ frame, (Position.operand [frame]).walk table
      (inner.tokens ++ closing.val :: rest) = (Position.complete false []).walk table rest := by
    intro frame
    rw [inner.walk hlisted [frame], Position.walk_cons (step_close _ [] _ closing.property)]
  have hstart : Position.start.step table opening.val = .ok (.operand [.parens]) := by
    simp [Position.step, Position.stepStart, Position.stepOperand, opening.property]
  calc
    (Position.complete true []).walk table (opening.val :: (inner.tokens ++ closing.val :: rest)) =
        (Position.firstArgument []).walk table (inner.tokens ++ closing.val :: rest) :=
      Position.walk_cons (step_call [] opening.property)
    _ = (Position.operand [.call]).walk table (inner.tokens ++ closing.val :: rest) := by
      rw [htokens]
      exact walk_firstArgument [] hstarts
    _ = (Position.operand [.parens]).walk table (inner.tokens ++ closing.val :: rest) := by
      rw [hgroup, hgroup]
    _ = Position.start.walk table (opening.val :: (inner.tokens ++ closing.val :: rest)) :=
      (Position.walk_cons hstart).symm

-- A phrase may follow another, even where its parentheses are read as those of a
-- call.
theorem Phrase.walk_behind (phrase : Phrase) (hlisted : phrase.Listed table) (named : Bool)
    (rest : List Token) :
    (Position.complete named []).walk table (phrase.tokens ++ rest) =
      (Position.complete phrase.body.endsInName []).walk table rest := by
  rw [← phrase.walk hlisted rest]
  cases phrase with
  | definition keyword header body =>
    exact Grammar.walk_behind (by simp [keyword.property]) (by simp [keyword.property])
  | bare body =>
    obtain ⟨first, links⟩ := body
    simp only [Phrase.tokens, Expression.tokens]
    cases first with
    | parens opening inner closing =>
      cases named with
      | false => exact Grammar.walk_behind (by simp [opening.property]) (by simp)
      | true =>
        have hgroup := walk_group opening inner closing hlisted.1 (links.tokens ++ rest)
        simpa only [Operand.tokens, List.cons_append, List.append_assoc, List.nil_append]
          using hgroup
    | number token =>
      exact Grammar.walk_behind (by simp [token.property]) (by simp [token.property])
    | name token =>
      exact Grammar.walk_behind (by simp [token.property]) (by simp [token.property])
    | emptyCall callee =>
      exact Grammar.walk_behind (by simp [callee.property]) (by simp [callee.property])
    | call callee opening arguments =>
      simp only [Operand.tokens, List.cons_append]
      exact Grammar.walk_behind (by simp [callee.property]) (by simp [callee.property])

-- Whatever has a derivation is read to its end without a fault.
theorem Derives.accepts {phrases : List Phrase} {tokens : List Token}
    (h : Derives table phrases tokens) : Accepts table tokens := by
  obtain ⟨hlisted, rfl⟩ := h
  have hbehind : ∀ named, ∃ last, (Position.complete named []).walk table
      (phrases.flatMap Phrase.tokens) = .ok (.complete last []) := by
    induction phrases with
    | nil => exact fun named => ⟨named, rfl⟩
    | cons phrase phrases ih =>
      intro named
      obtain ⟨last, hlast⟩ := ih (fun other hother => hlisted other (by simp [hother]))
        phrase.body.endsInName
      refine ⟨last, ?_⟩
      rw [List.flatMap_cons, phrase.walk_behind (hlisted phrase (by simp)), hlast]
  cases phrases with
  | nil => exact ⟨.start, rfl, rfl⟩
  | cons phrase phrases =>
    obtain ⟨last, hlast⟩ := hbehind false
    rw [List.flatMap_cons, phrase.walk_behind (hlisted phrase (by simp)),
      ← phrase.walk (hlisted phrase (by simp)), ← List.flatMap_cons] at hlast
    exact ⟨.complete last [], hlast, rfl⟩

end ExprLang.Grammar
