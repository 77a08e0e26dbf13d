import ExprLang.Proofs.Grammar.Fusion
import ExprLang.Proofs.Parser.Language
import ExprLang.Proofs.Parser.Lockstep
import ExprLang.Proofs.Parser.Onward

-- One program behind another. No sign stands between two units, so where the one
-- ends is decided by what the other begins with, and by nothing else.

namespace ExprLang

open Grammar

variable {first second : List Token} {table : PrecedenceTable} {definitions : List Definition}

theorem tokenAt_append_left (cursor : Nat) (h : cursor < first.length) :
    Parser.tokenAt ⟨(first ++ second).toArray, table⟩ cursor =
      Parser.tokenAt ⟨first.toArray, table⟩ cursor := by
  simp [Parser.tokenAt, List.getElem?_append_left h, h]

-- The token of the end is placed behind the last token, which both have in common.
theorem tokenAt_append_right (first : List Token) (table : PrecedenceTable) (hne : second ≠ [])
    (cursor : Nat) :
    Parser.tokenAt ⟨(first ++ second).toArray, table⟩ (cursor + first.length) =
      Parser.tokenAt ⟨second.toArray, table⟩ cursor := by
  have hend : Parser.endToken ⟨(first ++ second).toArray, table⟩ =
      Parser.endToken ⟨second.toArray, table⟩ := by
    simp [Parser.endToken, Parser.endLocation, List.getLast?_append_of_ne_nil _ hne]
  have htoken : (first ++ second)[cursor + first.length]? = second[cursor]? := by
    rw [List.getElem?_append_right (Nat.le_add_left _ _), Nat.add_sub_cancel]
  simp [Parser.tokenAt, hend, htoken]

theorem ahead_append (first : List Token) (table : PrecedenceTable) (hne : second ≠ []) :
    Parser.Ahead id ⟨second.toArray, table⟩ ⟨(first ++ second).toArray, table⟩ first.length where
  size := by simp [Nat.add_comm]
  order := .refl table
  kind cursor := by rw [tokenAt_append_right first table hne]
  value cursor := by rw [tokenAt_append_right first table hne]

theorem extends_append (table : PrecedenceTable) (hne : second ≠ []) (hoperator : NoOperator second)
    (hapart : Apart first second) :
    Parser.Extends ⟨first.toArray, table⟩ ⟨(first ++ second).toArray, table⟩ := by
  obtain ⟨head, rest, rfl⟩ := List.exists_cons_of_ne_nil hne
  have hhead : Parser.tokenAt ⟨(first ++ head :: rest).toArray, table⟩ first.length = head := by
    simp [Parser.tokenAt]
  refine ⟨by simp, rfl, tokenAt_append_left, ?_, ?_⟩
  · exact hhead.symm ▸ hoperator head rfl
  · intro cursor hcursor hname
    have hlength : first.length = cursor + 1 := by simpa using hcursor.symm
    have hlast : first.getLast? = some (Parser.tokenAt ⟨first.toArray, table⟩ cursor) := by
      simp [Parser.tokenAt, List.getLast?_eq_getElem?, hlength]
    exact hhead.symm ▸ hapart _ hlast head rfl hname

theorem parseTokens_append_apart (h : parseTokens first table = .ok definitions)
    (hne : second ≠ []) (hoperator : NoOperator second) (hapart : Apart first second) :
    parseTokens (first ++ second) table = (parseTokens second table).map (definitions ++ ·) := by
  obtain ⟨hfault, rfl⟩ := Parser.Progress.result_eq_ok_iff.mp h
  have hfirst := (extends_append table hne hoperator hapart).units_eq Parser.depthLimit
    first.length (first ++ second).length second.length (Nat.zero_le _) (Nat.le_refl _) (by simp)
    (by simp) hfault
  have hsecond := (ahead_append first table hne).result_units_eq
    (tokenAt_append_right first table hne) Parser.depthLimit second.length 0
  rw [Nat.zero_add] at hsecond
  simp only [parseTokens, Parser.progress, List.size_toArray] at hfirst ⊢
  rw [hfirst, Parser.Progress.result_prepend, hsecond]

-- The last unit of the one and the first of the other make one unit, in which the
-- name is called.
theorem exists_fused_unit {others fused : List Definition}
    (h : parseTokens first table = .ok definitions) (h' : parseTokens second table = .ok others)
    (hfused : parseTokens (first ++ second) table = .ok fused) (hapart : ¬ Apart first second) :
    ∃ before last unit head after, definitions = before ++ [last] ∧ others = head :: after ∧
      fused = before ++ unit :: after := by
  obtain ⟨phrases, hderives, hgreedy, rfl⟩ := exists_derives_of_parseTokens h
  obtain ⟨phrases', hderives', hgreedy', rfl⟩ := exists_derives_of_parseTokens h'
  obtain ⟨joined, hjoined, hgreedy'', rfl⟩ := exists_derives_of_parseTokens hfused
  obtain ⟨before, phrase, unit, phrase', after, rfl, rfl, hunit, hgreedyUnit⟩ :=
    exists_fused_derivation hderives hderives' hgreedy hgreedy' hapart
  obtain rfl : joined = before ++ unit :: after :=
    greedy_unique hgreedy'' hgreedyUnit (hjoined.2.trans hunit.2.symm)
  simp only [List.map_append, List.map_cons, List.map_nil]
  exact ⟨_, _, _, _, _, rfl, rfl, rfl⟩

-- Units that stand apart are parsed each for itself, up to the first fault. A name
-- and a parenthesis that meet are a call, and the units around them are one.
theorem parseTokens_append (first second : List Token) (table : PrecedenceTable)
    {definitions : List Definition} (h : parseTokens first table = .ok definitions)
    (hne : second ≠ []) :
    (NoOperator second → Apart first second →
      (∀ others, parseTokens second table = .ok others →
        parseTokens (first ++ second) table = .ok (definitions ++ others)) ∧
      ∀ fault, parseTokens second table = .error fault →
        parseTokens (first ++ second) table = .error fault) ∧
    (¬ Apart first second → ∀ others, parseTokens second table = .ok others →
      parseTokens (first ++ second) table ≠ .ok (definitions ++ others) ∧
      ∀ fused, parseTokens (first ++ second) table = .ok fused →
        ∃ before last unit head after, definitions = before ++ [last] ∧
          others = head :: after ∧ fused = before ++ unit :: after) := by
  refine ⟨fun hoperator hapart => ?_, fun hapart others h' => ⟨fun hboth => ?_, ?_⟩⟩
  · have happend := parseTokens_append_apart h hne hoperator hapart
    refine ⟨fun others h' => ?_, fun fault h' => ?_⟩
    · rw [happend, h']
      rfl
    · rw [happend, h']
      rfl
  · obtain ⟨before, last, unit, head, after, rfl, rfl, hfused⟩ := exists_fused_unit h h' hboth hapart
    have hlength := congrArg List.length hfused
    simp at hlength
  · exact fun fused hfused => exists_fused_unit h h' hfused hapart

section Adjoining

open Sample

-- A name before a call, before a sum that lacks a term, and before a number in
-- parentheses.
private def callBehind : List Token := [word, opening, closing]

private def sumBehind : List Token := [numeral, sign "+"]

private def numberBehind : List Token := [opening, numeral, closing]

theorem parseTokens_append_word :
    parseTokens ([word] ++ callBehind) .defaults =
        .ok [.anonymous (.var word.value), .anonymous (.call word.value [])] ∧
      parseTokens ([word] ++ sumBehind) .defaults =
        .error ⟨.expectedExpression, Parser.endToken ⟨sumBehind.toArray, .defaults⟩⟩ ∧
      parseTokens ([word] ++ numberBehind) .defaults ≠
        .ok [.anonymous (.var word.value), .anonymous (.number numeral.value)] := by
  have hword : parseTokens [word] .defaults = .ok [.anonymous (.var word.value)] := rfl
  have happend := fun second hne => parseTokens_append [word] second .defaults hword hne
  refine ⟨?_, ?_, ?_⟩
  · exact ((happend callBehind (by decide)).1 (by decide) (by decide)).1 _ rfl
  · exact ((happend sumBehind (by decide)).1 (by decide) (by decide)).2 _ rfl
  · exact ((happend numberBehind (by decide)).2 (by decide) _ rfl).1

end Adjoining

end ExprLang
