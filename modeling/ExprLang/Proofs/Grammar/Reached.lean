import ExprLang.Proofs.Grammar.Unfinished

-- Readers of positions go only where tokens can end: each step goes on with an
-- unfinished phrase, or completes what the token closes and goes on behind it.

namespace ExprLang.Grammar

-- What is complete when a token closes it.
section Closing

variable {table : PrecedenceTable} {frames : List Frame}

-- Puts an operand and an operator in front.
def Expression.prepend (operand : Operand) (op : Terminal .binaryOperator) :
    Expression → Expression
  | .chain first links => .chain operand (.cons op first links)

def Arguments.prepend (operand : Operand) (op : Terminal .binaryOperator) : Arguments → Arguments
  | .last argument closing => .last (argument.prepend operand op) closing
  | .more argument comma rest => .more (argument.prepend operand op) comma rest

section Prepend

variable (operand : Operand) (op : Terminal .binaryOperator)

theorem Expression.tokens_prepend (expression : Expression) :
    (expression.prepend operand op).tokens = operand.tokens ++ op.val :: expression.tokens := by
  obtain ⟨first, links⟩ := expression
  simp [prepend, Expression.tokens, Links.tokens]

theorem Expression.endsInName_prepend (expression : Expression) :
    (expression.prepend operand op).endsInName = expression.endsInName := by
  obtain ⟨first, links⟩ := expression
  rfl

theorem Expression.listed_prepend {expression : Expression} (hoperand : operand.Listed table)
    (hop : ∃ level, table.level? op.val.value = some level ∧ 0 ≤ level)
    (h : expression.Listed table) : (expression.prepend operand op).Listed table := by
  obtain ⟨first, links⟩ := expression
  exact ⟨hoperand, hop, h⟩

theorem Arguments.tokens_prepend (arguments : Arguments) :
    (arguments.prepend operand op).tokens = operand.tokens ++ op.val :: arguments.tokens := by
  cases arguments with
  | last argument closing => simp [prepend, Arguments.tokens, Expression.tokens_prepend]
  | more argument comma rest => simp [prepend, Arguments.tokens, Expression.tokens_prepend]

theorem Arguments.listed_prepend {arguments : Arguments} (hoperand : operand.Listed table)
    (hop : ∃ level, table.level? op.val.value = some level ∧ 0 ≤ level)
    (h : arguments.Listed table) : (arguments.prepend operand op).Listed table := by
  cases arguments with
  | last argument closing => exact Expression.listed_prepend operand op hoperand hop h
  | more argument comma rest => exact ⟨Expression.listed_prepend operand op hoperand hop h.1, h.2⟩

end Prepend

def Operand.expression (operand : Operand) : Expression := .chain operand .nil

@[simp] theorem Operand.tokens_expression (operand : Operand) :
    operand.expression.tokens = operand.tokens := List.append_nil _

theorem Operand.listed_expression {operand : Operand} (h : operand.Listed table) :
    operand.expression.Listed table := ⟨h, trivial⟩

namespace Opening

theorem append_operand_ne_nil (opening : Opening frames) (operand : Operand) :
    opening.tokens ++ operand.tokens ≠ [] := by
  obtain ⟨head, rest, htokens, -⟩ := operand.exists_tokens
  simp [htokens]

-- Where nothing is open a whole phrase has been read.
theorem exists_phrase {around : List Frame} (opening : Opening around) (hnone : around = [])
    (hlisted : opening.Listed table) {expression : Expression}
    (hexpression : expression.Listed table) :
    ∃ phrase : Phrase, phrase.Listed table ∧
      phrase.tokens = opening.tokens ++ expression.tokens ∧
      phrase.body.endsInName = expression.endsInName := by
  induction opening generalizing expression with
  | bare => exact ⟨.bare expression, hexpression, rfl, rfl⟩
  | body keyword header => exact ⟨.definition keyword header expression, hexpression, rfl, rfl⟩
  | operator before operand op ih =>
    obtain ⟨hbefore, hoperand, hop⟩ := hlisted
    obtain ⟨phrase, hphrase, htokens, hends⟩ := ih hnone hbefore
      (Expression.listed_prepend operand op hoperand hop hexpression)
    refine ⟨phrase, hphrase, ?_, hends.trans (expression.endsInName_prepend operand op)⟩
    rw [htokens, Expression.tokens_prepend]
    simp [tokens]
  | parens | call | comma => cases hnone

-- A parenthesis that opens no call, with the expression behind it.
theorem exists_parens {around : List Frame} (opening : Opening around)
    (hparens : around = .parens :: frames) (hlisted : opening.Listed table)
    {expression : Expression} (hexpression : expression.Listed table) :
    ∃ (outer : Opening frames) (paren : Terminal .parensOpen) (inner : Expression),
      outer.Listed table ∧ inner.Listed table ∧
        outer.tokens ++ paren.val :: inner.tokens = opening.tokens ++ expression.tokens := by
  induction opening generalizing expression with
  | operator before operand op ih =>
    obtain ⟨hbefore, hoperand, hop⟩ := hlisted
    obtain ⟨outer, paren, inner, houter, hinner, htokens⟩ := ih hparens hbefore
      (Expression.listed_prepend operand op hoperand hop hexpression)
    refine ⟨outer, paren, inner, houter, hinner, ?_⟩
    rw [htokens, Expression.tokens_prepend]
    simp [tokens]
  | parens before paren =>
    obtain rfl := List.tail_eq_of_cons_eq hparens
    exact ⟨before, paren, expression, hlisted, hexpression, by simp [tokens]⟩
  | bare | body | call | comma => cases hparens

-- The parenthesis of a call, with all arguments behind it.
theorem exists_call {around : List Frame} (opening : Opening around)
    (hcall : around = .call :: frames) (hlisted : opening.Listed table)
    (arguments : Arguments) (harguments : arguments.Listed table) :
    ∃ (outer : Opening frames) (callee : Terminal .identifier) (paren : Terminal .parensOpen)
      (all : Arguments), outer.Listed table ∧ all.Listed table ∧
        outer.tokens ++ callee.val :: paren.val :: all.tokens =
          opening.tokens ++ arguments.tokens := by
  induction opening generalizing arguments with
  | operator before operand op ih =>
    obtain ⟨hbefore, hoperand, hop⟩ := hlisted
    obtain ⟨outer, callee, paren, all, houter, hall, htokens⟩ := ih hcall hbefore _
      (Arguments.listed_prepend operand op hoperand hop harguments)
    refine ⟨outer, callee, paren, all, houter, hall, ?_⟩
    rw [htokens, Arguments.tokens_prepend]
    simp [tokens]
  | call before callee paren =>
    obtain rfl := List.tail_eq_of_cons_eq hcall
    exact ⟨before, callee, paren, arguments, hlisted, harguments, by simp [tokens]⟩
  | comma before operand separator ih =>
    obtain ⟨hbefore, hoperand⟩ := hlisted
    obtain ⟨outer, callee, paren, all, houter, hall, htokens⟩ := ih hcall hbefore
      (.more operand.expression separator arguments)
      ⟨Operand.listed_expression hoperand, harguments⟩
    refine ⟨outer, callee, paren, all, houter, hall, ?_⟩
    rw [htokens]
    simp [tokens, Arguments.tokens]
  | bare | body | parens => cases hcall

end Opening

-- Parameters from names and the token behind them.
def Names.close (names : Names) (rest : Parameters) : Parameters :=
  names.foldr (fun name more => .more name.1 name.2 more) rest

theorem Names.tokens_close (names : Names) (rest : Parameters) :
    (names.close rest).tokens = names.tokens ++ rest.tokens := by
  induction names with
  | nil => rfl
  | cons name names ih =>
    simp only [close, List.foldr_cons, Parameters.tokens] at ih ⊢
    rw [ih]
    rfl

-- Behind phrases of which the last is over another one begins.
theorem Follows.append {phrases : List Phrase} {phrase : Phrase} {tokens : List Token}
    (h : Follows table phrases phrase.tokens) (hlisted : phrase.Listed table)
    (hapart : Apart phrase.tokens tokens) : Follows table (phrases ++ [phrase]) tokens where
  listed := by
    simpa [or_imp, forall_and, hlisted] using h.listed
  greedy := by
    rw [Greedy, List.map_append, List.isChain_append]
    refine ⟨h.greedy, List.isChain_singleton _, ?_⟩
    intro last hlast head hhead
    obtain rfl : phrase.tokens = head := by simpa using hhead
    simp only [List.getLast?_map, Option.mem_def, Option.map_eq_some_iff] at hlast
    obtain ⟨other, hother, rfl⟩ := hlast
    exact h.apart other hother
  apart := by
    simpa using hapart

end Closing

section Steps

variable {table : PrecedenceTable} {frames : List Frame} {phrases : List Phrase}
  {tokens : List Token} {token : Token} {position next : Position}

theorem stands_of_stepOperand (opening : Opening frames) (hlisted : opening.Listed table)
    (h : Follows table phrases (opening.tokens ++ [token]))
    (hstep : Position.stepOperand frames token = .ok next) :
    Stands table (phrases.flatMap Phrase.tokens ++ (opening.tokens ++ [token])) next := by
  unfold Position.stepOperand at hstep
  cases hkind : token.kind <;> simp only [hkind, Except.ok.injEq, reduceCtorEq] at hstep
  case identifier =>
    exact hstep ▸ .complete opening (.name ⟨token, hkind⟩) ⟨hlisted, trivial⟩ h
  case number =>
    exact hstep ▸ .complete opening (.number ⟨token, hkind⟩) ⟨hlisted, trivial⟩ h
  case parensOpen =>
    exact hstep ▸ .operand (.parens opening ⟨token, hkind⟩) (by simp [Opening.tokens]) hlisted h

theorem stands_of_stepStart (h : Follows table phrases [token])
    (hstep : Position.stepStart token = .ok next) :
    Stands table (phrases.flatMap Phrase.tokens ++ [token]) next := by
  unfold Position.stepStart at hstep
  split at hstep
  · next hkind => exact Except.ok.inj hstep ▸ .keyword ⟨token, hkind⟩ h
  · exact stands_of_stepOperand .bare trivial h hstep

theorem stands_of_header (keyword : Terminal .define) (header : Header)
    (h : Follows table phrases [keyword.val]) :
    Stands table (phrases.flatMap Phrase.tokens ++ keyword.val :: header.tokens) (.operand []) :=
  .operand (.body keyword header) (by simp [Opening.tokens]) trivial (h.congr rfl)

theorem stands_of_parameterName (keyword : Terminal .define) (name : Terminal .identifier)
    (opening : Terminal .parensOpen) (names : Names) (last : Terminal .identifier)
    (h : Follows table phrases [keyword.val])
    (hstep : Position.parameterName.step table token = .ok next) :
    Stands table (phrases.flatMap Phrase.tokens ++
      (keyword.val :: name.val :: opening.val :: (names.tokens ++ [last.val]) ++ [token])) next := by
  simp only [Position.step] at hstep
  split at hstep
  · next hclose =>
    have hstands := stands_of_header keyword
      ⟨name, opening, names.close (.last last ⟨token, hclose⟩)⟩ h
    rw [Header.tokens, Names.tokens_close] at hstands
    simpa [Parameters.tokens] using Except.ok.inj hstep ▸ hstands
  split at hstep
  · next hcomma =>
    let more : Names := names ++ [(last, ⟨token, hcomma⟩)]
    have hmore : names.tokens ++ [last.val] ++ [token] = more.tokens := by
      simp [more, Names.tokens]
    have hstands : Stands table _ .parameter := .parameter keyword name opening more h
    rw [← hmore] at hstands
    exact Except.ok.inj hstep ▸ hstands
  · cases hstep

theorem stands_of_firstArgument (before : Opening frames) (callee : Terminal .identifier)
    (paren : Terminal .parensOpen) (hlisted : before.Listed table)
    (h : Follows table phrases ((Opening.call before callee paren).tokens ++ [token]))
    (hstep : (Position.firstArgument frames).step table token = .ok next) :
    Stands table (phrases.flatMap Phrase.tokens ++
      ((Opening.call before callee paren).tokens ++ [token])) next := by
  simp only [Position.step] at hstep
  split at hstep
  · next hclose =>
    have hcall : (Opening.call before callee paren).tokens ++ [token] =
        before.tokens ++ (Operand.emptyCall callee paren ⟨token, hclose⟩).tokens := by
      simp [Opening.tokens, Operand.tokens]
    rw [hcall] at h ⊢
    exact Except.ok.inj hstep ▸ .complete before _ ⟨hlisted, trivial⟩ h
  · exact stands_of_stepOperand (.call before callee paren) hlisted h hstep

-- The token behind an operand whose chain it ends.
theorem stands_of_stepBehind (opening : Opening frames) {operand : Operand}
    (hlisted : opening.Listed table ∧ operand.Listed table)
    (h : Follows table phrases (opening.tokens ++ operand.tokens))
    (huncalled : operand.isName = true → token.kind ≠ .parensOpen)
    (hstep : Position.stepBehind frames token = .ok next) :
    Stands table (phrases.flatMap Phrase.tokens ++ (opening.tokens ++ operand.tokens ++ [token]))
      next := by
  have hwhole := Operand.listed_expression hlisted.2
  have hmore := h.append_right (opening.append_operand_ne_nil operand) [token]
  match frames with
  | [] =>
    obtain ⟨phrase, hphrase, htokens, hends⟩ := opening.exists_phrase rfl hlisted.1 hwhole
    rw [Operand.tokens_expression] at htokens
    have hapart : Apart phrase.tokens [token] := by
      refine apart_iff.mpr fun hnamed head hhead => ?_
      obtain rfl := Option.mem_some_iff.mp hhead
      exact huncalled (hends.symm.trans hnamed)
    have hstands := stands_of_stepStart ((htokens ▸ h).append hphrase hapart) hstep
    rwa [List.flatMap_append, List.flatMap_singleton, htokens, List.append_assoc] at hstands
  | .parens :: outerFrames =>
    obtain ⟨outer, paren, inner, houter, hinner, htokens⟩ :=
      opening.exists_parens rfl hlisted.1 hwhole
    simp only [Position.stepBehind] at hstep
    split at hstep
    · next hclose =>
      have hgroup : opening.tokens ++ operand.tokens ++ [token] =
          outer.tokens ++ (Operand.parens paren inner ⟨token, hclose⟩).tokens := by
        rw [← Operand.tokens_expression operand, ← htokens]
        simp [Operand.tokens]
      rw [hgroup] at hmore ⊢
      exact Except.ok.inj hstep ▸ .complete outer _ ⟨houter, hinner⟩ hmore
    · cases hstep
  | .call :: outerFrames =>
    simp only [Position.stepBehind] at hstep
    split at hstep
    · next hclose =>
      obtain ⟨outer, callee, paren, all, houter, hall, htokens⟩ := opening.exists_call rfl hlisted.1
        (.last operand.expression ⟨token, hclose⟩) hwhole
      have hcall : opening.tokens ++ operand.tokens ++ [token] =
          outer.tokens ++ (Operand.call callee paren all).tokens := by
        simp [Operand.tokens, htokens, Arguments.tokens]
      rw [hcall] at hmore ⊢
      exact Except.ok.inj hstep ▸ .complete outer _ ⟨houter, hall⟩ hmore
    split at hstep
    · next hcomma =>
      rw [List.append_assoc] at hmore ⊢
      exact Except.ok.inj hstep ▸
        .operand (.comma opening operand ⟨token, hcomma⟩) (by simp [Opening.tokens]) hlisted hmore
    · cases hstep

theorem stands_of_stepComplete (opening : Opening frames) {operand : Operand}
    (hlisted : opening.Listed table ∧ operand.Listed table)
    (h : Follows table phrases (opening.tokens ++ operand.tokens))
    (hstep : (Position.complete operand.isName frames).step table token = .ok next) :
    Stands table (phrases.flatMap Phrase.tokens ++ (opening.tokens ++ operand.tokens ++ [token]))
      next := by
  have hmore := h.append_right (opening.append_operand_ne_nil operand) [token]
  simp only [Position.step] at hstep
  by_cases hcall : operand.isName = true ∧ token.kind = .parensOpen
  · rw [if_pos hcall] at hstep
    cases operand with
    | name callee =>
      have hopen : opening.tokens ++ (Operand.name callee).tokens ++ [token] =
          (Opening.call opening callee ⟨token, hcall.2⟩).tokens := by
        simp [Opening.tokens, Operand.tokens]
      rw [hopen] at hmore ⊢
      exact Except.ok.inj hstep ▸
        .operand (.call opening callee ⟨token, hcall.2⟩) (by simp [Opening.tokens]) hlisted.1 hmore
    | number | emptyCall | call | parens => cases hcall.1
  have huncalled : operand.isName = true → token.kind ≠ .parensOpen :=
    fun hnamed hopen => hcall ⟨hnamed, hopen⟩
  rw [if_neg hcall] at hstep
  split at hstep
  · next hop =>
    split at hstep
    · cases hstep
    · next level hlevel =>
      split at hstep
      · next hle =>
        rw [List.append_assoc] at hmore ⊢
        exact Except.ok.inj hstep ▸ .operand (.operator opening operand ⟨token, hop⟩)
          (by simp [Opening.tokens]) ⟨hlisted.1, hlisted.2, level, hlevel, hle⟩ hmore
      · exact stands_of_stepBehind opening hlisted h huncalled hstep
  · exact stands_of_stepBehind opening hlisted h huncalled hstep

-- What is read one token further stands one token further.
theorem Stands.step (h : Stands table tokens position)
    (hstep : position.step table token = .ok next) : Stands table (tokens ++ [token]) next := by
  cases h with
  | start =>
    have hfollows : Follows table [] [token] := ⟨by simp, .nil, by simp⟩
    exact stands_of_stepStart hfollows hstep
  | keyword keyword h =>
    simp only [Position.step] at hstep
    split at hstep
    · next hname =>
      rw [List.append_assoc]
      exact Except.ok.inj hstep ▸ .functionName keyword ⟨token, hname⟩ h
    · cases hstep
  | functionName keyword name h =>
    simp only [Position.step] at hstep
    split at hstep
    · next hopen =>
      rw [List.append_assoc]
      exact Except.ok.inj hstep ▸ .parameter keyword name ⟨token, hopen⟩ [] h
    · cases hstep
  | parameter keyword name opening names h =>
    rw [List.append_assoc]
    simp only [Position.step] at hstep
    split at hstep
    · next hname =>
      exact Except.ok.inj hstep ▸ .parameterName keyword name opening names ⟨token, hname⟩ h
    · next hclosing =>
      have hstands := stands_of_header keyword
        ⟨name, opening, names.close (.close ⟨token, hclosing⟩)⟩ h
      rw [Header.tokens, Names.tokens_close] at hstands
      exact Except.ok.inj hstep ▸ hstands
  | parameterName keyword name opening names last h =>
    rw [List.append_assoc]
    exact stands_of_parameterName keyword name opening names last h hstep
  | operand opening hbegun hlisted h =>
    have hmore := h.append_right hbegun [token]
    rw [List.append_assoc]
    cases opening with
    | bare => exact absurd rfl hbegun
    | body | operator | parens | comma => exact stands_of_stepOperand _ hlisted hmore hstep
    | call before callee paren =>
      exact stands_of_firstArgument before callee paren hlisted hmore hstep
  | complete opening operand hlisted h =>
    rw [List.append_assoc]
    exact stands_of_stepComplete opening hlisted h hstep

end Steps

-- Tokens end at a position just where a reader of positions is behind them.
theorem stands_iff_walk {table : PrecedenceTable} {tokens : List Token} {position : Position} :
    Stands table tokens position ↔ Position.start.walk table tokens = .ok position := by
  refine ⟨Stands.walk, fun h => ?_⟩
  induction tokens using List.reverseRecOn generalizing position with
  | nil => exact Except.ok.inj h ▸ .start
  | append_singleton tokens token ih =>
    obtain ⟨middle, hmiddle, hlast⟩ := Position.exists_walk_of_append h
    refine (ih hmiddle).step ?_
    simp only [Position.walk, List.foldlM_cons, List.foldlM_nil] at hlast
    cases hstep : middle.step table token with
    | error cause => rw [hstep] at hlast; cases hlast
    | ok next => rw [hstep] at hlast; exact hlast

end ExprLang.Grammar
