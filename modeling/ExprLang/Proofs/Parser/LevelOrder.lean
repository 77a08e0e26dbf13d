import ExprLang.Proofs.Grammar.Position
import ExprLang.Proofs.Parser.Ample
import ExprLang.Proofs.Parser.Lockstep

-- The levels of a table matter only for the order into which they put the
-- operators, and for which of them are below zero.

namespace ExprLang

variable {table table' : PrecedenceTable}

theorem Parser.ahead_of_sameOrder (tokens : Array Token) (h : table.SameOrder table') :
    Parser.Ahead id ⟨tokens, table⟩ ⟨tokens, table'⟩ 0 where
  size := rfl
  order := h
  kind _ := rfl
  value _ := rfl

-- No other levels give the same tokens another result, at any limit on the depth,
-- if they put the operators in the same order. Tokens of faults are the same as
-- well, wherever they stand.
theorem parse_eq_of_sameOrder (tokens : List Token) (h : table.SameOrder table') :
    parseTokens tokens table' = parseTokens tokens table ∧
      (∀ depth, parseWithin depth tokens table' = parseWithin depth tokens table) ∧
      parseUnlimited tokens table' = parseUnlimited tokens table := by
  have hahead := Parser.ahead_of_sameOrder tokens.toArray h
  have hwithin : ∀ depth, parseWithin depth tokens table' = parseWithin depth tokens table := by
    intro depth
    have hunits := hahead.result_units_eq (fun _ => rfl) depth tokens.length 0
    simpa only [parseWithin, Parser.limited, List.size_toArray] using hunits
  have hlimit := hwithin Parser.depthLimit
  rw [parseWithin_depthLimit, parseWithin_depthLimit] at hlimit
  exact ⟨hlimit, hwithin, hwithin _⟩

section Wide

open Grammar Sample

-- Levels that are next to each other, and levels far apart, one of them at zero.
private def close : PrecedenceTable := [("&", -1), ("+", 1), ("*", 2)]

private def wide : PrecedenceTable := [("*", 1000000000000), ("+", 0), ("&", -7)]

private theorem lookup_close (op : String) : close.lookup op =
    if op = "&" then some (-1) else if op = "+" then some 1
    else if op = "*" then some 2 else none := by
  simp only [close, List.lookup_cons, List.lookup_nil]
  grind

private theorem lookup_wide (op : String) : wide.lookup op =
    if op = "*" then some (1000000000000) else if op = "+" then some 0
    else if op = "&" then some (-7) else none := by
  simp only [wide, List.lookup_cons, List.lookup_nil]
  grind

private theorem paired_close_wide {level level' : Int} (h : close.Paired wide level level') :
    (level = -1 ∧ level' = -7) ∨ (level = 1 ∧ level' = 0) ∨ (level = 2 ∧ level' = 1000000000000) := by
  obtain ⟨op, hlevel, hlevel'⟩ := h
  rw [lookup_close] at hlevel
  rw [lookup_wide] at hlevel'
  grind

private theorem sameOrder_close_wide : close.SameOrder wide where
  listed op := by
    rw [lookup_close, lookup_wide]
    grind
  lt_iff h hother := by
    have := paired_close_wide h
    have := paired_close_wide hother
    omega
  neg_iff h := by
    have := paired_close_wide h
    omega

private def naught : Node := .number numeral.value

-- The product is a term of the sum, and what binds below zero ends the unit.
private def cutShort : List Token :=
  [numeral, sign "+", numeral, sign "*", numeral, sign "&", numeral]

theorem parse_eq_of_sameOrder_wide :
    close.SameOrder wide ∧
      parseTokens (cutShort.take 5) wide =
        .ok [.anonymous (.binary "+" naught (.binary "*" naught naught))] ∧
      parseTokens cutShort wide = .error ⟨.expectedExpression, sign "&"⟩ := by
  refine ⟨sameOrder_close_wide, ?_, ?_⟩
  · rw [(parse_eq_of_sameOrder (cutShort.take 5) sameOrder_close_wide).1]
    rfl
  · rw [(parse_eq_of_sameOrder cutShort sameOrder_close_wide).1]
    rfl

end Wide

end ExprLang
