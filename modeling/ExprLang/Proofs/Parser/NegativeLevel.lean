import ExprLang.Proofs.Grammar.Position
import ExprLang.Proofs.Parser.CursorKept

-- Climbing from a negative level. If no operator binds so loosely, the chain goes on
-- up to where it would stop anyway, and there it takes a token that it refuses.

namespace ExprLang

-- No operator of the table binds below zero.
def PrecedenceTable.NonNegative (table : PrecedenceTable) : Prop := ∀ entry ∈ table, 0 ≤ entry.2

theorem PrecedenceTable.NonNegative.le_of_level? {table : PrecedenceTable}
    (h : table.NonNegative) {symbol : Value} {level : Int}
    (hlevel : table.level? symbol = some level) : 0 ≤ level := by
  obtain ⟨op, -, hlookup⟩ := Option.bind_eq_some_iff.mp hlevel
  obtain ⟨before, after, hsplit, -⟩ := List.lookup_eq_some_iff.mp hlookup
  exact h (op, level) (by simp [hsplit])

namespace Parser

variable {p : Parser} {cursor : Nat} {least : Int}

-- Takes whatever token comes next for an operator that it is not.
def refuseToken (p : Parser) : Run Node := do
  fail (.unexpectedToken "a binary operator") (← p.advance)

theorem refuseToken_eq (p : Parser) (cursor : Nat) : p.refuseToken cursor =
    .error ⟨.unexpectedToken "a binary operator", p.tokenAt cursor⟩ (cursor + 1) := rfl

-- What stands there is no operator, or one that binds tightly enough for any level
-- up to zero.
theorem levelAt_cases (htable : p.precedence.NonNegative) {level : Int}
    (hlevel : p.levelAt cursor = some level) :
    ((p.tokenAt cursor).kind ≠ .binaryOperator ∧ level = noPrecedence) ∨ 0 ≤ level := by
  unfold levelAt at hlevel
  split at hlevel
  case isTrue hkind => exact .inr (htable.le_of_level? hlevel)
  case isFalse hkind => exact .inl ⟨hkind, (Option.some.inj hlevel).symm⟩

-- Both loops take the same links. They part where no operator stands: one returns
-- what it has, and the other takes the token for an operator.
theorem climb_of_negative (htable : p.precedence.NonNegative) (hleast : least < 0)
    (operand : Run Node) (tighter : Node → Int → Run Node) (bound : Nat) (left : Node) :
    p.climb operand tighter least bound left =
      (p.climb operand tighter 0 bound left >>= fun _ => p.refuseToken) := by
  induction bound generalizing left with
  | zero => rfl
  | succ bound ih =>
    funext cursor
    simp only [climb, bind_assoc]
    refine bind_congr_of_ok rfl fun level next hlevel => ?_
    obtain ⟨hlisted, rfl⟩ := levelAt_of_currentPrecedence hlevel
    rcases levelAt_cases htable hlisted with ⟨hkind, rfl⟩ | hpos
    · have hstop : noPrecedence < 0 := by decide
      have hon : ¬ noPrecedence < least := by
        unfold noPrecedence
        omega
      rw [if_neg hon, if_pos hstop, bind_of_error (take_of_kind_ne hkind)]
      rfl
    · rw [if_neg (by omega), if_neg (by omega)]
      simp only [bind_assoc, ih]

theorem binaryOp_of_negative (htable : p.precedence.NonNegative) (hleast : least < 0)
    (depth : Nat) (left : Node) :
    p.binaryOp depth left least = (p.binaryOp depth left 0 >>= fun _ => p.refuseToken) := by
  cases depth with
  | zero => rfl
  | succ depth => simp only [binaryOp, climb_of_negative htable hleast, bind_assoc]

-- From a negative level on no chain ever ends well. Where the one from level zero
-- returns, the token that follows, if only that of the end, is taken and refused, and
-- where it fails, for whatever reason, this one fails in the same way. In no case has
-- a loop used up its rounds.
theorem binaryOp_fails_of_negative (p : Parser) (htable : p.precedence.NonNegative)
    (hleast : least < 0) (depth cursor : Nat) (left : Node) :
    (∀ tree stop, p.binaryOp depth left least cursor ≠ .ok tree stop) ∧
      (∀ tree stop, p.binaryOp depth left 0 cursor = .ok tree stop →
        ∃ fault, p.binaryOp depth left least cursor = .error fault (stop + 1) ∧
          fault.cause = .unexpectedToken "a binary operator" ∧
          fault.report.kind = .unexpectedToken ∧ fault.report.diagnostic.code? = some "P001" ∧
          p.peek stop = .ok fault.token stop ∧
          (p.tokens.size ≤ stop → fault.token = p.endToken)) ∧
      (∀ fault stop, p.binaryOp depth left 0 cursor = .error fault stop →
        p.binaryOp depth left least cursor = .error fault stop) ∧
      ∀ fault stop, p.binaryOp depth left least cursor = .error fault stop →
        p.Blames cursor fault stop := by
  have heq := congrFun (binaryOp_of_negative htable hleast depth left) cursor
  have hkeeps := ((p.keepsAt depth).binaryOp left least cursor).blames
  refine ⟨fun tree stop hrun => ?_, fun tree stop hrun => ?_, fun fault stop hrun => ?_,
    fun fault stop hrun => hkeeps.error hrun⟩
  · rw [heq] at hrun
    cases hzero : p.binaryOp depth left 0 cursor with
    | ok tree next =>
      rw [bind_of_ok hzero, refuseToken_eq] at hrun
      cases hrun
    | error fault next =>
      rw [bind_of_error hzero] at hrun
      cases hrun
  · rw [bind_of_ok hrun, refuseToken_eq] at heq
    exact ⟨_, heq, rfl, rfl, rfl, rfl, fun hend => p.tokenAt_of_size_le hend⟩
  · rw [heq, bind_of_error hrun]

section Chain

open Grammar.Sample

private def term : Node := .number numeral.value

-- A sum whose second term is a product, and a parenthesis that ends it.
private def endedChain : Parser :=
  ⟨#[sign "+", numeral, sign "*", numeral, closing, sign "+"], .defaults⟩

private theorem endedChain_nonNegative : endedChain.precedence.NonNegative := by
  unfold PrecedenceTable.NonNegative
  decide

-- The chain stops at the parenthesis, none begins behind the last token, and one
-- that begins with the last operator lacks an operand.
theorem binaryOp_fails_of_negative_chain :
    (endedChain.binaryOp 3 term 0 0 = .ok (.binary "+" term (.binary "*" term term)) 4 ∧
        ∃ fault, endedChain.binaryOp 3 term (-1) 0 = .error fault 5 ∧ fault.token = closing ∧
          fault.report.diagnostic.code? = some "P001") ∧
      (endedChain.binaryOp 3 term 0 7 = .ok term 7 ∧
        ∃ fault, endedChain.binaryOp 3 term (-4) 7 = .error fault 8 ∧
          fault.token = endedChain.endToken) ∧
      endedChain.binaryOp 3 term (-4) 5 = .error ⟨.expectedExpression, endedChain.endToken⟩ 6 := by
  have hfails {least : Int} (hleast : least < 0) (cursor : Nat) :=
    binaryOp_fails_of_negative endedChain endedChain_nonNegative hleast 3 cursor term
  have hchain : endedChain.binaryOp 3 term 0 0 =
      .ok (.binary "+" term (.binary "*" term term)) 4 := rfl
  have hbehind : endedChain.binaryOp 3 term 0 7 = .ok term 7 := rfl
  obtain ⟨-, hreturns, -⟩ := hfails (by decide : (-1 : Int) < 0) 0
  obtain ⟨fault, hfault, -, -, hcode, hpeek, -⟩ := hreturns _ _ hchain
  obtain ⟨-, hreturnsBehind, -⟩ := hfails (by decide : (-4 : Int) < 0) 7
  obtain ⟨last, hlast, -, -, -, -, hend⟩ := hreturnsBehind _ _ hbehind
  obtain ⟨-, -, hbreaks, -⟩ := hfails (by decide : (-4 : Int) < 0) 5
  have htoken : closing = fault.token := (EStateM.Result.ok.inj hpeek).1
  exact ⟨⟨hchain, fault, hfault, htoken.symm, hcode⟩,
    ⟨hbehind, last, hlast, hend (by decide)⟩, hbreaks _ _ rfl⟩

end Chain

end Parser

end ExprLang
