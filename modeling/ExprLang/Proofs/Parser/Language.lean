import ExprLang.Proofs.Grammar.Rendering
import ExprLang.Proofs.Parser.Verdict

-- The parser accepts the language of the grammar, and reads each program as
-- the one derivation says that calls whatever can be called. So it reads back
-- every way to write a tree down.

namespace ExprLang

open Grammar

variable {tokens : List Token} {table : PrecedenceTable}

-- Parsing does not stop for the depth of these tokens.
def Shallow (tokens : List Token) (table : PrecedenceTable) : Prop :=
  ∀ fault, parseTokens tokens table = .error fault → fault.cause ≠ .nestingTooDeep

theorem exists_derives_of_parseTokens {definitions : List Definition}
    (h : parseTokens tokens table = .ok definitions) :
    ∃ phrases, Derives table phrases tokens ∧ Greedy phrases ∧
      definitions = phrases.map (Phrase.meaning table) := by
  obtain ⟨hfault, rfl⟩ := Parser.Progress.result_eq_ok_iff.mp h
  exact Parser.derives_of_limited hfault

theorem exists_parseTokens_of_derives {phrases : List Phrase}
    (h : Derives table phrases tokens) (hdeep : Shallow tokens table) :
    ∃ definitions, parseTokens tokens table = .ok definitions := by
  have hfault := Parser.fault?_eq_none_of_accepts (p := ⟨tokens.toArray, table⟩) h.accepts
    fun fault hfault => hdeep fault (Parser.Progress.result_eq_error_iff.mpr hfault)
  exact ⟨_, Parser.Progress.result_eq_ok_iff.mpr ⟨hfault, rfl⟩⟩

theorem parseTokens_of_derives {phrases : List Phrase} (h : Derives table phrases tokens)
    (hgreedy : Greedy phrases) (hdeep : Shallow tokens table) :
    parseTokens tokens table = .ok (phrases.map (Phrase.meaning table)) := by
  obtain ⟨definitions, hparse⟩ := exists_parseTokens_of_derives h hdeep
  obtain ⟨other, hother, hgreedy', rfl⟩ := exists_derives_of_parseTokens hparse
  rw [hparse, greedy_unique hgreedy hgreedy' (h.2.trans hother.2.symm)]

-- Programs that are not too deep parse if and only if they have a derivation.
-- Of these one is greedy, and the program means what that says.
theorem parseTokens_iff_derives (tokens : List Token) (table : PrecedenceTable)
    (hdeep : Shallow tokens table) :
    ((∃ definitions, parseTokens tokens table = .ok definitions) ↔
        ∃ phrases, Derives table phrases tokens) ∧
      ∀ definitions, parseTokens tokens table = .ok definitions →
        ∃ phrases, Derives table phrases tokens ∧ Greedy phrases ∧
          (∀ other, Derives table other tokens → Greedy other → other = phrases) ∧
          definitions = phrases.map (Phrase.meaning table) := by
  refine ⟨⟨?_, ?_⟩, ?_⟩
  · rintro ⟨definitions, hparse⟩
    obtain ⟨phrases, hderives, -⟩ := exists_derives_of_parseTokens hparse
    exact ⟨phrases, hderives⟩
  · rintro ⟨phrases, hderives⟩
    exact exists_parseTokens_of_derives hderives hdeep
  · intro definitions hparse
    obtain ⟨phrases, hderives, hgreedy, hmeaning⟩ := exists_derives_of_parseTokens hparse
    refine ⟨phrases, hderives, hgreedy, fun other hother hgreedy' => ?_, hmeaning⟩
    exact greedy_unique hgreedy' hgreedy (hother.2.trans hderives.2.symm)

section Call

open Sample

-- A call, or else a name and a number in parentheses.
private def called : List Token := [word, opening, numeral, closing]

theorem parseTokens_iff_derives_call :
    ∃ phrases, Derives .defaults phrases called ∧ Greedy phrases ∧
      (∀ other, Derives .defaults other called → Greedy other → other = phrases) ∧
      [.anonymous (.call word.value [.number numeral.value])] =
        phrases.map (Phrase.meaning .defaults) := by
  have hparse : parseTokens called .defaults =
      .ok [.anonymous (.call word.value [.number numeral.value])] := rfl
  have hdeep : Shallow called .defaults := by
    intro fault hfault
    cases hparse.symm.trans hfault
  exact (parseTokens_iff_derives called .defaults hdeep).2 _ hparse

end Call

-- Whatever parentheses a program is written with, it is read back.
theorem parseTokens_of_renders {definitions : List Definition} {parts : List (List Token)}
    (h : List.Forall₂ (RendersDefinition table) definitions parts) (hapart : parts.IsChain Apart)
    (hdeep : Shallow parts.flatten table) : parseTokens parts.flatten table = .ok definitions := by
  obtain ⟨phrases, hlisted, rfl, rfl⟩ := exists_phrases_of_renders h
  refine parseTokens_of_derives ⟨hlisted, ?_⟩ hapart hdeep
  rw [List.flatMap_def]

section Difference

open Sample

private def zero : Node := .number numeral.value

-- A difference on the right of another needs parentheses, and one on its left
-- needs none.
private def differences : List Token :=
  [numeral, sign "-", numeral, sign "-", opening, numeral, sign "-", numeral, closing]

theorem parseTokens_of_renders_differences :
    parseTokens [differences].flatten .defaults =
      .ok [.anonymous (.binary "-" (.binary "-" zero zero) (.binary "-" zero zero))] := by
  have hzero : ∀ least, Renders .defaults least zero [numeral] :=
    fun least => .number ⟨numeral, rfl⟩
  have hdifference : ∀ least ≤ 20,
      Renders .defaults least (.binary "-" zero zero) [numeral, sign "-", numeral] :=
    fun least hle => .binary ⟨sign "-", rfl⟩ rfl rfl hle (hzero 20) (hzero 21)
  have hparens : Renders .defaults 21 (.binary "-" zero zero)
      [opening, numeral, sign "-", numeral, closing] :=
    .parens ⟨opening, rfl⟩ (hdifference 0 (by decide)) ⟨closing, rfl⟩
  have hwhole : RendersDefinition .defaults
      (.anonymous (.binary "-" (.binary "-" zero zero) (.binary "-" zero zero))) differences :=
    .anonymous (.binary ⟨sign "-", rfl⟩ rfl rfl (by decide) (hdifference 20 (by decide)) hparens)
  refine parseTokens_of_renders (.cons hwhole .nil) (.singleton _) fun fault hfault => ?_
  have hparse : parseTokens [differences].flatten .defaults = .ok _ := rfl
  cases hparse.symm.trans hfault

end Difference

end ExprLang
