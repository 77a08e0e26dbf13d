import ExprLang.Proofs.Grammar.Complaint
import ExprLang.Proofs.Parser.Guarded
import ExprLang.Proofs.Source.PlainTree

-- Failures that never come up: no guard of the parser fires, no operator of a
-- source is undefined, and the lexer goes through every source.

namespace ExprLang

open Grammar Scanner

section Codes

theorem Cause.code_eq_unexpectedToken {cause : Cause} (h : cause.code = "P001") :
    ∃ expected, cause = .unexpectedToken expected := by
  cases cause <;> simp_all [Cause.code]

theorem Cause.code_eq_undefinedOperator {cause : Cause} (h : cause.code = "P002") :
    ∃ symbol, cause = .undefinedOperator symbol := by
  cases cause <;> simp_all [Cause.code]

theorem Cause.eq_nestingTooDeep {cause : Cause} (h : cause.kind = .unexpectedToken)
    (hexpected : ∀ expected, cause ≠ .unexpectedToken expected) : cause = .nestingTooDeep := by
  cases cause <;> simp_all [Cause.kind]

end Codes

section Operators

variable {token : Token}

-- A sign that the lexer takes for an operator is one that is listed.
theorem exists_level_of_isSign {c : Char} (h : isSign c = true) :
    ∃ level, PrecedenceTable.defaults.level? (.text (String.ofList [c])) = some level := by
  simp only [isSign, Bool.or_eq_true, decide_eq_true_eq] at h
  rcases h with ((rfl | rfl) | rfl) | rfl
  · exact ⟨20, rfl⟩
  · exact ⟨20, rfl⟩
  · exact ⟨40, rfl⟩
  · exact ⟨40, rfl⟩

theorem Token.Plain.exists_level (h : token.Plain) (hkind : token.kind = .binaryOperator) :
    ∃ level, PrecedenceTable.defaults.level? token.value = some level := by
  obtain ⟨c, hvalue, hsign⟩ := h.operator hkind
  rw [hvalue]
  exact exists_level_of_isSign hsign

end Operators

section Faults

variable {tokens : List Token} {table : PrecedenceTable} {depth : Nat} {fault : SyntaxFault}

theorem cause_ne_of_parseWithin (h : parseWithin depth tokens table = .error fault)
    (expected : String) : fault.cause ≠ .unexpectedToken expected := by
  by_cases hdeep : fault.cause = .nestingTooDeep
  · rw [hdeep]
    exact Cause.noConfusion
  · obtain ⟨hat, -⟩ := faultAt_of_parseWithin h hdeep
    obtain ⟨position, hraises⟩ := hat.exists_raises
    exact hraises.cause_ne expected

-- An operator that is reported as undefined is one of the tokens.
theorem exists_undefined_operator {symbol : Value}
    (h : parseWithin depth tokens table = .error fault)
    (hcause : fault.cause = .undefinedOperator symbol) :
    ∃ token ∈ tokens, token.kind = .binaryOperator ∧ table.level? token.value = none := by
  obtain ⟨hat, -⟩ := faultAt_of_parseWithin h (by rw [hcause]; exact Cause.noConfusion)
  obtain ⟨position, hraises⟩ := hat.exists_raises
  rw [hcause] at hraises
  obtain ⟨token, htoken, hkind, hlevel⟩ := hraises.exists_operator
  exact ⟨token, List.mem_of_getElem? htoken, hkind, hlevel⟩

end Faults

section Sources

variable {source file : String}

theorem exists_lexed (source file : String) : ∃ lexed, tokenize source file = .ok lexed ∧
    ∀ token ∈ lexed, token.kind = .binaryOperator →
      ∃ level, PrecedenceTable.defaults.level? token.value = some level := by
  obtain ⟨lexed, htokenize, -⟩ := exists_tokenize source file
  refine ⟨lexed, htokenize, fun token hmem hkind => ?_⟩
  exact (plain_of_tokenize htokenize token hmem).exists_level hkind

theorem exists_fault_of_parseText {failure : Failure}
    (h : parseText source file = .error failure) :
    ∃ lexed fault, tokenize source file = .ok lexed ∧ failure = .syntaxFault fault ∧
      parseWithin Parser.depthLimit lexed .defaults = .error fault := by
  obtain ⟨lexed, htokenize, -⟩ := exists_tokenize source file
  rw [parseText_eq htokenize] at h
  cases hparse : parseTokens lexed .defaults with
  | ok definitions =>
    rw [hparse] at h
    cases h
  | error fault =>
    rw [hparse] at h
    exact ⟨lexed, fault, htokenize, (Except.error.inj h).symm, hparse⟩

-- The operators of a source are all listed.
theorem cause_ne_undefinedOperator {fault : SyntaxFault} {lexed : List Token}
    (htokenize : tokenize source file = .ok lexed)
    (h : parseWithin Parser.depthLimit lexed .defaults = .error fault) (symbol : Value) :
    fault.cause ≠ .undefinedOperator symbol := by
  intro hcause
  obtain ⟨token, hmem, hkind, hnone⟩ := exists_undefined_operator h hcause
  obtain ⟨again, hagain, hlisted⟩ := exists_lexed source file
  obtain rfl := Except.ok.inj (htokenize.symm.trans hagain)
  obtain ⟨level, hlevel⟩ := hlisted token hmem hkind
  cases hnone.symm.trans hlevel

end Sources

-- Whatever the guards would do, parsing comes to the same, so none of them fires,
-- and no token is reported as unexpected unless it nests too deeply. A source can
-- only fail for its syntax, and not for an operator.
theorem guards_never_fire (tokens : List Token) (table : PrecedenceTable) (depth : Nat)
    (source file : String) :
    Parser.Guards.Own ⟨tokens.toArray, table⟩ depth ∧
      (∀ guards : Parser.Guards, guards.limited ⟨tokens.toArray, table⟩ depth =
        Parser.limited ⟨tokens.toArray, table⟩ depth) ∧
      (∀ fault, parseWithin depth tokens table = .error fault →
        fault.report.diagnostic.code? ≠ some "P001" ∧
        (fault.report.kind = .unexpectedToken →
          fault.report.diagnostic.code? = some "P007")) ∧
      (∃ lexed, tokenize source file = .ok lexed ∧
        ∀ token ∈ lexed, token.kind = .binaryOperator →
          ∃ level, PrecedenceTable.defaults.level? token.value = some level) ∧
      ∀ failure, parseText source file = .error failure →
        ∃ fault, failure = .syntaxFault fault ∧
          fault.report.diagnostic.code? ≠ some "P001" ∧
          fault.report.diagnostic.code? ≠ some "P002" := by
  refine ⟨Parser.Guards.own _ depth, fun guards => guards.limited_eq _ depth,
    fun fault hparse => ⟨fun hcode => ?_, fun hkind => ?_⟩, exists_lexed source file,
    fun failure hfailure => ?_⟩
  · obtain ⟨expected, hcause⟩ := Cause.code_eq_unexpectedToken (Option.some.inj hcode)
    exact cause_ne_of_parseWithin hparse expected hcause
  · have hcause := Cause.eq_nestingTooDeep hkind (cause_ne_of_parseWithin hparse)
    exact congrArg (some ∘ Cause.code) hcause
  · obtain ⟨lexed, fault, htokenize, rfl, hparse⟩ := exists_fault_of_parseText hfailure
    refine ⟨fault, rfl, fun hcode => ?_, fun hcode => ?_⟩
    · obtain ⟨expected, hcause⟩ := Cause.code_eq_unexpectedToken (Option.some.inj hcode)
      exact cause_ne_of_parseWithin hparse expected hcause
    · obtain ⟨symbol, hcause⟩ := Cause.code_eq_undefinedOperator (Option.some.inj hcode)
      exact cause_ne_undefinedOperator htokenize hparse symbol hcause

section Sample

-- Guards that let everything pass.
private def lax : Parser.Guards where
  notNumber := pure
  notIdentifier := pure
  notOpening := pure
  notOperator := pure
  negativeLevel _ left _ := pure left
  roundless cursor := .error ⟨.expectedExpression, Sample.opening⟩ cursor
  unmoved cursor := ⟨[], none, cursor⟩

private def cutOff : String := "(a +"

private def cutOffTokens : List Token :=
  [⟨.parensOpen, "(", .absent, some ⟨"<string>", 1, 1, 0⟩⟩,
    ⟨.identifier, "a", .text "a", some ⟨"<string>", 1, 2, 1⟩⟩,
    ⟨.binaryOperator, "+", .text "+", some ⟨"<string>", 1, 4, 3⟩⟩]

private def cutOffFault : SyntaxFault :=
  ⟨.expectedExpression, ⟨.endOfInput, "", .absent, some ⟨"<string>", 1, 5, 4⟩⟩⟩

-- At depth two not even the parenthesis is read.
theorem guards_never_fire_cutOff :
    lax.limited ⟨cutOffTokens.toArray, .defaults⟩ 2 =
        Parser.limited ⟨cutOffTokens.toArray, .defaults⟩ 2 ∧
      (∃ fault, parseWithin 2 cutOffTokens .defaults = .error fault ∧
        fault.report.kind = .unexpectedToken ∧
        fault.report.diagnostic.code? = some "P007") ∧
      parseText cutOff "<string>" = .error (.syntaxFault cutOffFault) ∧
      cutOffFault.report.diagnostic.code? ≠ some "P002" := by
  obtain ⟨-, hlax, hdeep, -, hsource⟩ :=
    guards_never_fire cutOffTokens .defaults 2 cutOff "<string>"
  have hparse : parseWithin 2 cutOffTokens .defaults =
      .error ⟨.nestingTooDeep, cutOffTokens.head (by decide)⟩ := by decide +kernel
  have htext : parseText cutOff "<string>" = .error (.syntaxFault cutOffFault) := by
    rw [parseText_eq (show tokenize cutOff "<string>" = .ok cutOffTokens from rfl)]
    rfl
  obtain ⟨fault, hfault, -, hcode⟩ := hsource _ htext
  obtain rfl := Failure.syntaxFault.inj hfault
  exact ⟨hlax lax, ⟨_, hparse, rfl, (hdeep _ hparse).2 rfl⟩, htext, hcode⟩

end Sample

end ExprLang
