import ExprLang.Proofs.Grammar.Derivation

-- A program that ends in a name and one that begins with a parenthesis make one
-- where they meet: the name is called, and two phrases are one.

namespace ExprLang.Grammar

variable {table : PrecedenceTable}

section Fused

-- The name at the end takes what the parentheses hold for its argument.
theorem Links.exists_fused {inner : Expression} {more : Links} (opening : Terminal .parensOpen)
    (closing : Terminal .parensClose) (hinner : inner.Listed table) (hmore : more.Listed table) :
    (links : Links) → (first : Operand) → first.Listed table → links.Listed table →
    links.endsInName first.isName = true →
    ∃ fused : Expression, fused.Listed table ∧ fused.endsInName = more.endsInName false ∧
      fused.tokens = first.tokens ++ links.tokens ++
        (Expression.chain (.parens opening inner closing) more).tokens
  | .nil, first, _, _, hends => by
    cases first with
    | name callee =>
      have harguments : (Arguments.last inner closing).Listed table := hinner
      refine ⟨.chain (.call callee opening (.last inner closing)) more, ⟨harguments, hmore⟩, rfl, ?_⟩
      simp [Expression.tokens, Operand.tokens, Arguments.tokens, Links.tokens]
    | number => cases hends
    | emptyCall => cases hends
    | call => cases hends
    | parens => cases hends
  | .cons op operand rest, first, hfirst, hlinks, hends => by
    obtain ⟨hop, hoperand, hrest⟩ := hlinks
    obtain ⟨⟨next, links⟩, hlisted, hsame, htokens⟩ :=
      Links.exists_fused opening closing hinner hmore rest operand hoperand hrest hends
    refine ⟨.chain first (.cons op next links), ⟨hfirst, hop, hlisted.1, hlisted.2⟩, hsame, ?_⟩
    simp only [Expression.tokens] at htokens
    simp [Expression.tokens, Links.tokens, htokens]

-- What begins with a parenthesis is a chain whose first operand is in parentheses.
theorem Expression.exists_parens (expression : Expression)
    (h : ∀ head ∈ expression.tokens.head?, head.kind = .parensOpen) :
    ∃ opening inner closing more, expression = .chain (.parens opening inner closing) more := by
  obtain ⟨first, links⟩ := expression
  cases first with
  | parens opening inner closing => exact ⟨opening, inner, closing, links, rfl⟩
  | number token => exact absurd (token.property.symm.trans (h _ rfl)) (by decide)
  | name token => exact absurd (token.property.symm.trans (h _ rfl)) (by decide)
  | emptyCall callee => exact absurd (callee.property.symm.trans (h _ rfl)) (by decide)
  | call callee => exact absurd (callee.property.symm.trans (h _ rfl)) (by decide)

theorem Expression.exists_fused {expression expression' : Expression}
    (hlisted : expression.Listed table) (hlisted' : expression'.Listed table)
    (hends : expression.endsInName = true)
    (hopens : ∀ head ∈ expression'.tokens.head?, head.kind = .parensOpen) :
    ∃ fused : Expression, fused.Listed table ∧ fused.endsInName = expression'.endsInName ∧
      fused.tokens = expression.tokens ++ expression'.tokens := by
  obtain ⟨opening, inner, closing, more, rfl⟩ := expression'.exists_parens hopens
  obtain ⟨first, links⟩ := expression
  exact Links.exists_fused opening closing hlisted'.1 hlisted'.2 links first hlisted.1 hlisted.2
    hends

theorem Phrase.exists_fused {phrase phrase' : Phrase} (hlisted : phrase.Listed table)
    (hlisted' : phrase'.Listed table) (hends : phrase.body.endsInName = true)
    (hopens : ∀ head ∈ phrase'.tokens.head?, head.kind = .parensOpen) :
    ∃ fused : Phrase, fused.Listed table ∧ fused.body.endsInName = phrase'.body.endsInName ∧
      fused.tokens = phrase.tokens ++ phrase'.tokens := by
  cases phrase' with
  | definition keyword => exact absurd (keyword.property.symm.trans (hopens _ rfl)) (by decide)
  | bare body' =>
    cases phrase with
    | definition keyword header body =>
      obtain ⟨fused, hfused, hsame, htokens⟩ := Expression.exists_fused hlisted hlisted' hends hopens
      exact ⟨.definition keyword header fused, hfused, hsame, by simp [Phrase.tokens, htokens]⟩
    | bare body =>
      obtain ⟨fused, hfused, hsame, htokens⟩ := Expression.exists_fused hlisted hlisted' hends hopens
      exact ⟨.bare fused, hfused, hsame, htokens⟩

end Fused

-- Phrases that begin alike may take each other's place, if what comes behind may.
section Replace

variable {before after after' : List Phrase} {phrase phrase' other : Phrase}

theorem Greedy.of_append (h : Greedy (before ++ after)) : Greedy after := by
  rw [Greedy, List.map_append] at h
  exact List.IsChain.right_of_append h

theorem head?_replace (hhead : phrase'.tokens.head? = phrase.tokens.head?) :
    ((before ++ phrase' :: after').flatMap Phrase.tokens).head? =
      ((before ++ phrase :: after).flatMap Phrase.tokens).head? := by
  cases before with
  | nil =>
    obtain ⟨first, rest, htokens, -⟩ := phrase.exists_tokens
    obtain ⟨first', rest', htokens', -⟩ := phrase'.exists_tokens
    rw [htokens, htokens'] at hhead
    simpa [htokens, htokens'] using hhead
  | cons other before =>
    obtain ⟨first, rest, htokens, -⟩ := other.exists_tokens
    simp [htokens]

theorem greedy_replace (hhead : phrase'.tokens.head? = phrase.tokens.head?)
    (hends : phrase'.body.endsInName = other.body.endsInName)
    (h : Greedy (before ++ phrase :: after)) (h' : Greedy (other :: after')) :
    Greedy (before ++ phrase' :: after') := by
  induction before with
  | nil =>
    rw [List.nil_append, greedy_cons, hends]
    exact greedy_cons.mp h'
  | cons first before ih =>
    rw [List.cons_append, greedy_cons] at h ⊢
    exact ⟨fun hnamed head hmem => h.1 hnamed head (head?_replace hhead ▸ hmem), ih h.2⟩

end Replace

-- The last phrase of the one and the first of the other are one phrase, and all
-- others stay as they are.
theorem exists_fused_derivation {phrases phrases' : List Phrase} {first second : List Token}
    (h : Derives table phrases first) (h' : Derives table phrases' second)
    (hgreedy : Greedy phrases) (hgreedy' : Greedy phrases') (hapart : ¬ Apart first second) :
    ∃ before phrase fused phrase' after,
      phrases = before ++ [phrase] ∧ phrases' = phrase' :: after ∧
        Derives table (before ++ fused :: after) (first ++ second) ∧
        Greedy (before ++ fused :: after) := by
  obtain ⟨hlisted, rfl⟩ := h
  obtain ⟨hlisted', rfl⟩ := h'
  simp only [Apart, not_forall, not_not] at hapart
  obtain ⟨last, hlast, head, hhead, hname, hopen⟩ := hapart
  obtain rfl | ⟨before, phrase, rfl⟩ := phrases.eq_nil_or_concat'
  · simp at hlast
  cases phrases' with
  | nil => simp at hhead
  | cons phrase' after =>
    obtain ⟨final, hfinal, hends⟩ := phrase.getLast?_tokens
    obtain ⟨initial, rest, hinitial, -⟩ := phrase'.exists_tokens
    obtain ⟨start, tokens, hstart, -⟩ := phrase.exists_tokens
    have hnamed : phrase.body.endsInName = true := by
      simp only [List.flatMap_append, List.flatMap_singleton, List.getLast?_append, hfinal,
        Option.some_or, Option.mem_some_iff] at hlast
      exact hends.mp (hlast ▸ hname)
    have hopens : ∀ other ∈ phrase'.tokens.head?, other.kind = .parensOpen := by
      simp only [List.flatMap_cons, hinitial, List.cons_append, List.head?_cons,
        Option.mem_some_iff, forall_eq'] at hhead ⊢
      rwa [hhead]
    rw [List.forall_mem_append, List.forall_mem_singleton] at hlisted
    rw [List.forall_mem_cons] at hlisted'
    obtain ⟨fused, hfused, hsame, htokens⟩ :=
      Phrase.exists_fused hlisted.2 hlisted'.1 hnamed hopens
    have hsamehead : fused.tokens.head? = phrase.tokens.head? := by
      rw [htokens, hstart]
      rfl
    refine ⟨before, phrase, fused, phrase', after, rfl, rfl, ⟨?_, ?_⟩,
      greedy_replace hsamehead hsame hgreedy hgreedy'⟩
    · rw [List.forall_mem_append, List.forall_mem_cons]
      exact ⟨hlisted.1, hfused, hlisted'.2⟩
    · simp [htokens]

end ExprLang.Grammar
