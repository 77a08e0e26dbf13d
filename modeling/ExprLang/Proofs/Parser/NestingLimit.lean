import ExprLang.Proofs.Grammar.Reached
import ExprLang.Proofs.Parser.EarliestFault
import ExprLang.Proofs.Parser.Exhaustion

-- A limit on the depth shows only in brackets that nest too deeply for it, and
-- nowhere before the place where they do.

namespace ExprLang

open Grammar

variable {tokens : List Token} {table : PrecedenceTable} {depth levels : Nat}
  {deep fault : SyntaxFault}

-- So few brackets are open wherever these tokens can be read to.
def NestsWithin (levels : Nat) (table : PrecedenceTable) (tokens : List Token) : Prop :=
  ∀ length position, Stands table (tokens.take length) position → position.nesting ≤ levels

theorem exists_tooDeep_of_ne (h : parseWithin depth tokens table ≠ parseUnlimited tokens table) :
    ∃ deep, parseWithin depth tokens table = .error deep ∧ deep.cause = .nestingTooDeep := by
  rcases Parser.limited_or_tooDeep ⟨tokens.toArray, table⟩ depth with heq | ⟨deep, hdeep, hcause⟩
  · exact absurd (congrArg Parser.Progress.result heq) h
  · exact ⟨deep, Parser.Progress.result_eq_error_iff.mpr hdeep, hcause⟩

theorem exists_stands_of_tooDeep (h : parseWithin depth tokens table = .error deep)
    (hcause : deep.cause = .nestingTooDeep) :
    deep.token =
        Parser.tokenAt ⟨tokens.toArray, table⟩ (faultPlace depth tokens table deep) ∧
      ∃ position, Stands table (tokens.take (faultPlace depth tokens table deep)) position ∧
        depth < table.bracketDepth * (position.nesting + 1) := by
  obtain ⟨htoken, position, hwalk, hlt⟩ :=
    Parser.exists_walk_of_tooDeep (Parser.Progress.result_eq_error_iff.mp h) hcause
  exact ⟨htoken, position, stands_iff_walk.mpr hwalk, hlt⟩

-- What is wrong without the limit is wrong there or behind it.
theorem faultPlace_le_of_tooDeep {deeper : Nat} (h : parseWithin depth tokens table = .error deep)
    (hcause : deep.cause = .nestingTooDeep) (hfault : parseWithin deeper tokens table = .error fault)
    (hother : fault.cause ≠ .nestingTooDeep) :
    faultPlace depth tokens table deep ≤ faultPlace deeper tokens table fault := by
  obtain ⟨-, position, hstands, -⟩ := exists_stands_of_tooDeep h hcause
  obtain ⟨hat, -⟩ := faultAt_of_parseWithin hfault hother
  have hlength : faultPlace depth tokens table deep ≤ tokens.length := Nat.min_le_right _ _
  have := hat.le_of_walk (stands_iff_walk.mp hstands)
  omega

-- Where brackets do not nest deeply the limit does not show, however long the
-- chains, the lists and the program are.
theorem parseWithin_of_nestsWithin (hdepth : table.bracketDepth * (levels + 1) ≤ depth)
    (h : NestsWithin levels table tokens) :
    parseWithin depth tokens table = parseUnlimited tokens table := by
  by_contra hne
  obtain ⟨deep, hdeep, hcause⟩ := exists_tooDeep_of_ne hne
  obtain ⟨-, position, hstands, hlt⟩ := exists_stands_of_tooDeep hdeep hcause
  have hle := Nat.mul_le_mul_left table.bracketDepth (Nat.add_le_add_right (h _ _ hstands) 1)
  omega

-- Two levels of operators make two chains for each bracket.
theorem bracketDepth_defaults : PrecedenceTable.defaults.bracketDepth = 5 := by decide

theorem parseUnlimited_not_tooDeep (h : parseUnlimited tokens table = .error fault) :
    fault.cause ≠ .nestingTooDeep :=
  Parser.unlimited_not_tooDeep (Parser.Progress.result_eq_error_iff.mp h)

-- A limit only ever replaces what there is without it, and only where the
-- brackets that are open need more depth than it leaves. With the operators of
-- the language these are more than a hundred and fifty.
theorem limit_shows_only_in_nesting (tokens : List Token) (table : PrecedenceTable) (depth : Nat) :
    (∃ enough, ∀ deeper, enough ≤ deeper →
      parseWithin deeper tokens table = parseUnlimited tokens table) ∧
    (∀ fault, parseUnlimited tokens table = .error fault → fault.cause ≠ .nestingTooDeep) ∧
    (parseWithin depth tokens table = parseUnlimited tokens table ∨
      ∃ deep, parseWithin depth tokens table = .error deep ∧
        deep.report.diagnostic.code? = some "P007" ∧
        deep.token =
          Parser.tokenAt ⟨tokens.toArray, table⟩ (faultPlace depth tokens table deep) ∧
        (∃ position, Stands table (tokens.take (faultPlace depth tokens table deep)) position ∧
          depth < table.bracketDepth * (position.nesting + 1)) ∧
        ∀ deeper fault, parseWithin deeper tokens table = .error fault →
          fault.cause ≠ .nestingTooDeep →
          faultPlace depth tokens table deep ≤ faultPlace deeper tokens table fault) ∧
    (∀ levels, table.bracketDepth * (levels + 1) ≤ depth → NestsWithin levels table tokens →
      parseWithin depth tokens table = parseUnlimited tokens table) ∧
    (NestsWithin 150 .defaults tokens → 5 * 151 ≤ depth →
      parseWithin depth tokens .defaults = parseUnlimited tokens .defaults) ∧
    (NestsWithin 150 .defaults tokens →
      parseTokens tokens .defaults = parseUnlimited tokens .defaults) := by
  refine ⟨⟨Parser.ampleDepth ⟨tokens.toArray, table⟩, fun deeper => ?_⟩, fun fault => parseUnlimited_not_tooDeep, ?_,
    fun levels => parseWithin_of_nestsWithin, fun hnests hdepth => ?_, fun hnests => ?_⟩
  · intro hle
    exact congrArg Parser.Progress.result (Parser.limited_of_ample hle)
  · by_cases heq : parseWithin depth tokens table = parseUnlimited tokens table
    · exact .inl heq
    obtain ⟨deep, hdeep, hcause⟩ := exists_tooDeep_of_ne heq
    obtain ⟨htoken, hstands⟩ := exists_stands_of_tooDeep hdeep hcause
    refine .inr ⟨deep, hdeep, ?_, htoken, hstands, fun deeper fault hfault hother =>
      faultPlace_le_of_tooDeep hdeep hcause hfault hother⟩
    exact congrArg (some ∘ Cause.code) hcause
  · exact parseWithin_of_nestsWithin (by rwa [bracketDepth_defaults]) hnests
  · rw [← parseWithin_depthLimit]
    exact parseWithin_of_nestsWithin (by rw [bracketDepth_defaults]; decide) hnests

section Sum

open Sample

-- A sum in parentheses without its second term.
private def unclosed : List Token := [opening, numeral, sign "+"]

private theorem nestsWithin_unclosed : NestsWithin 1 .defaults unclosed := by
  intro length position hstands
  have hwalk := stands_iff_walk.mp hstands
  rcases length with _ | _ | _ | length
  · cases hwalk
    decide
  · cases hwalk
    decide
  · cases hwalk
    decide
  · have hlength : unclosed.length ≤ length + 1 + 1 + 1 := Nat.le_add_left 3 length
    rw [List.take_of_length_le hlength] at hwalk
    cases hwalk
    decide

-- At depth three not even the number is read, and at depth ten all is.
theorem limit_shows_only_in_nesting_unclosed :
    (∃ deep, parseWithin 3 unclosed .defaults = .error deep ∧
      deep.report.diagnostic.code? = some "P007" ∧ deep.token = numeral ∧
      faultPlace 3 unclosed .defaults deep ≤ 3) ∧
    parseWithin 10 unclosed .defaults = parseUnlimited unclosed .defaults ∧
    parseTokens unclosed .defaults = parseUnlimited unclosed .defaults ∧
    parseUnlimited unclosed .defaults =
      .error ⟨.expectedExpression, Parser.endToken ⟨unclosed.toArray, .defaults⟩⟩ := by
  have hshallow : parseWithin 3 unclosed .defaults = .error ⟨.nestingTooDeep, numeral⟩ := rfl
  have hfault : parseWithin 10 unclosed .defaults =
      .error ⟨.expectedExpression, Parser.endToken ⟨unclosed.toArray, .defaults⟩⟩ := rfl
  have hplace : faultPlace 10 unclosed .defaults
      ⟨.expectedExpression, Parser.endToken ⟨unclosed.toArray, .defaults⟩⟩ = 3 := rfl
  obtain ⟨-, -, hreplaced, -, -, htokens⟩ := limit_shows_only_in_nesting unclosed .defaults 3
  obtain ⟨-, -, -, hten, -, -⟩ := limit_shows_only_in_nesting unclosed .defaults 10
  have hunlimited := hten 1 (by decide) nestsWithin_unclosed
  have hnests : NestsWithin 150 .defaults unclosed := fun length position hstands =>
    Nat.le_trans (nestsWithin_unclosed length position hstands) (by decide)
  rw [hfault] at hunlimited
  rcases hreplaced with heq | ⟨deep, hdeep, hcode, -, -, hplaces⟩
  · rw [hshallow, ← hunlimited] at heq
    cases heq
  obtain rfl := Except.error.inj (hshallow.symm.trans hdeep)
  refine ⟨⟨_, hdeep, hcode, rfl, ?_⟩, hfault.trans hunlimited, htokens hnests, hunlimited.symm⟩
  have hle := hplaces 10 _ hfault (by decide)
  rwa [hplace] at hle

end Sum

end ExprLang
