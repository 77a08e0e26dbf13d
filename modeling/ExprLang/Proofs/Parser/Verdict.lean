import ExprLang.Proofs.Parser.Ample
import ExprLang.Proofs.Parser.Program

-- What a list of tokens comes to at a depth, in terms of the grammar alone.

namespace ExprLang.Parser

open Grammar

variable {p : Parser} {depth : Nat}

-- Spans from the first token on are prefixes.
theorem Spans.eq_take {tokens : List Token} {stop : Nat} (h : p.Spans 0 tokens stop) :
    tokens = p.tokens.toList.take stop := by
  have hstop := h.eq_add
  rw [Nat.zero_add] at hstop
  have hdrop := h.drop_eq
  rw [List.drop_zero] at hdrop
  rw [hdrop, hstop, List.take_left]

-- The place among the tokens at which a fault shows, or their number if that is
-- behind the last one.
def Progress.place (progress : Progress) (fault : SyntaxFault) (length : Nat) : Nat :=
  min (progress.cursor - fault.cause.taken) length

theorem Progress.result_eq_ok_iff {progress : Progress} {definitions : List Definition} :
    progress.result = .ok definitions ↔
      progress.fault? = none ∧ progress.definitions = definitions := by
  unfold result
  split <;> simp [*]

theorem Progress.result_eq_error_iff {progress : Progress} {fault : SyntaxFault} :
    progress.result = .error fault ↔ progress.fault? = some fault := by
  unfold result
  split <;> simp [*]

theorem derives_of_limited (h : (p.limited depth).fault? = none) :
    ∃ phrases, Derives p.precedence phrases p.tokens.toList ∧ Greedy phrases ∧
      (p.limited depth).definitions = phrases.map (Phrase.meaning p.precedence) := by
  have hunits := p.unitsAt_units depth p.tokens.size 0 (Nat.zero_le _) (Nat.le_refl _)
  unfold limited at h ⊢
  rw [UnitsAt, h] at hunits
  obtain ⟨phrases, hlisted, hspans, hgreedy, hdefinitions, -⟩ := hunits
  refine ⟨phrases, ⟨hlisted, ?_⟩, hgreedy, hdefinitions⟩
  rw [hspans.eq_take, ← Array.length_toList, List.take_length]

theorem faultAt_of_limited {fault : SyntaxFault} (h : (p.limited depth).fault? = some fault)
    (hcause : fault.cause ≠ .nestingTooDeep) :
    FaultAt p.precedence p.tokens.toList ((p.limited depth).place fault p.tokens.size) fault.cause ∧
      fault.token = p.tokenAt ((p.limited depth).place fault p.tokens.size) := by
  have hunits := p.unitsAt_units depth p.tokens.size 0 (Nat.zero_le _) (Nat.le_refl _)
  unfold limited Progress.place at *
  rw [UnitsAt, h] at hunits
  obtain ⟨⟨tokens, position, hspans, hwalk, hfault⟩, htoken⟩ := hunits.resolve_left hcause
  refine ⟨⟨?_, position, ?_, ?_⟩, htoken⟩
  · exact Nat.min_le_right _ _
  · rwa [← hspans.eq_take]
  · rwa [Array.getElem?_toList]

-- Without a limit tokens with a fault are rejected for it.
theorem fault?_eq_some_of_faultAt {place : Nat} {cause : Cause}
    (h : FaultAt p.precedence p.tokens.toList place cause) :
    p.unlimited.fault? = some ⟨cause, p.tokenAt place⟩ := by
  cases hfault : p.unlimited.fault? with
  | none =>
    obtain ⟨phrases, hderives, -⟩ := derives_of_limited hfault
    exact absurd hderives.accepts h.not_accepts
  | some fault =>
    obtain ⟨hat, htoken⟩ := faultAt_of_limited hfault (unlimited_not_tooDeep hfault)
    obtain ⟨rfl, rfl⟩ := h.unique hat
    rw [← htoken]

theorem fault?_eq_none_of_accepts (h : Accepts p.precedence p.tokens.toList)
    (hdeep : ∀ fault, (p.limited depth).fault? = some fault → fault.cause ≠ .nestingTooDeep) :
    (p.limited depth).fault? = none := by
  cases hfault : (p.limited depth).fault? with
  | none => rfl
  | some fault => exact absurd h (faultAt_of_limited hfault (hdeep fault hfault)).1.not_accepts

end ExprLang.Parser
