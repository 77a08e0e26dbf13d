import ExprLang.Proofs.Parser.Verdict

-- Faults are reported at the first token that no program can go on with, and
-- what comes behind this token has no part in it.

namespace ExprLang

open Grammar

variable {tokens other : List Token} {table : PrecedenceTable} {place : Nat} {cause : Cause}

-- The place of the token with which a fault is reported, which is behind all
-- tokens if it is that of the end.
def faultPlace (depth : Nat) (tokens : List Token) (table : PrecedenceTable) (fault : SyntaxFault) :
    Nat :=
  (Parser.limited ⟨tokens.toArray, table⟩ depth).place fault tokens.length

theorem faultAt_of_parseWithin {depth : Nat} {fault : SyntaxFault}
    (h : parseWithin depth tokens table = .error fault) (hcause : fault.cause ≠ .nestingTooDeep) :
    FaultAt table tokens (faultPlace depth tokens table fault) fault.cause ∧
      fault.token = Parser.tokenAt ⟨tokens.toArray, table⟩ (faultPlace depth tokens table fault) :=
  Parser.faultAt_of_limited (Parser.Progress.result_eq_error_iff.mp h) hcause

-- Accepted tokens parse, however deep they nest.
theorem exists_parseUnlimited (h : Accepts table tokens) :
    ∃ definitions, parseUnlimited tokens table = .ok definitions := by
  have hfault := Parser.fault?_eq_none_of_accepts (p := ⟨tokens.toArray, table⟩) h
    fun _ => Parser.unlimited_not_tooDeep
  exact ⟨_, Parser.Progress.result_eq_ok_iff.mpr ⟨hfault, rfl⟩⟩

theorem parseUnlimited_of_faultAt (h : FaultAt table tokens place cause) :
    parseUnlimited tokens table =
      .error ⟨cause, Parser.tokenAt ⟨tokens.toArray, table⟩ place⟩ :=
  Parser.Progress.result_eq_error_iff.mpr
    (Parser.fault?_eq_some_of_faultAt (p := ⟨tokens.toArray, table⟩) h)

-- What stands before a fault begins a program.
theorem exists_completion (h : FaultAt table tokens place cause) :
    ∃ more definitions, parseUnlimited (tokens.take place ++ more) table = .ok definitions := by
  obtain ⟨-, position, hwalk, -⟩ := h
  exact ⟨position.completion, exists_parseUnlimited (accepts_completion hwalk)⟩

theorem parseUnlimited_congr (h : FaultAt table tokens place cause) (hplace : place < tokens.length)
    (hagree : other.take (place + 1) = tokens.take (place + 1)) :
    parseUnlimited other table =
      .error ⟨cause, Parser.tokenAt ⟨tokens.toArray, table⟩ place⟩ := by
  obtain ⟨hother, htoken⟩ := h.congr hplace hagree
  rw [parseUnlimited_of_faultAt hother]
  rw [List.getElem?_eq_getElem hplace] at htoken
  simp [Parser.tokenAt, htoken, hplace]

-- The tokens before the one that is reported begin a program, and no program
-- begins with these and that one.
theorem fault_at_earliest_token (tokens : List Token) (table : PrecedenceTable) (depth : Nat)
    {fault : SyntaxFault} (h : parseWithin depth tokens table = .error fault)
    (hcause : fault.cause ≠ .nestingTooDeep) :
    Parser.tokenAt ⟨tokens.toArray, table⟩ (faultPlace depth tokens table fault) = fault.token ∧
      (∃ more definitions,
        parseUnlimited (tokens.take (faultPlace depth tokens table fault) ++ more) table =
          .ok definitions) ∧
      (faultPlace depth tokens table fault < tokens.length → ∀ other : List Token,
        other.take (faultPlace depth tokens table fault + 1) =
            tokens.take (faultPlace depth tokens table fault + 1) →
          parseUnlimited other table = .error fault) := by
  obtain ⟨hat, htoken⟩ := faultAt_of_parseWithin h hcause
  refine ⟨htoken.symm, exists_completion hat, fun hplace other hagree => ?_⟩
  rw [parseUnlimited_congr hat hplace hagree, ← htoken]

section Sum

open Sample

-- A sum that is closed before its second term.
private def broken : List Token := [numeral, sign "+", closing]

private theorem parse_broken :
    parseTokens broken .defaults = .error ⟨.expectedExpression, closing⟩ := rfl

theorem fault_at_earliest_token_broken :
    (∃ more definitions,
      parseUnlimited ([numeral, sign "+"] ++ more) .defaults = .ok definitions) ∧
    ∀ rest, parseUnlimited (broken ++ rest) .defaults = .error ⟨.expectedExpression, closing⟩ := by
  have hplace : faultPlace Parser.depthLimit broken .defaults ⟨.expectedExpression, closing⟩ = 2 :=
    rfl
  obtain ⟨-, hbegins, hrest⟩ := fault_at_earliest_token broken .defaults Parser.depthLimit
    parse_broken (by decide)
  rw [hplace] at hbegins hrest
  exact ⟨hbegins, fun rest => hrest (by decide) (broken ++ rest) rfl⟩

end Sum

end ExprLang
