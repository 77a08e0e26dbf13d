import ExprLang.Proofs.Grammar.Complaint
import ExprLang.Proofs.Grammar.Reached
import ExprLang.Proofs.Parser.EarliestFault

-- What a fault is follows from the place in the grammar at which its token
-- stands. That place is told by the tokens before it.

namespace ExprLang

open Grammar

variable {tokens : List Token} {table : PrecedenceTable} {place : Nat} {cause : Cause}

theorem faultAt_iff_raises {position : Position} (hplace : place ≤ tokens.length)
    (hstands : Stands table (tokens.take place) position) :
    FaultAt table tokens place cause ↔ Raises table position tokens[place]? cause := by
  rw [raises_iff_fault?]
  constructor
  · rintro ⟨-, other, hwalk, hfault⟩
    obtain rfl := Except.ok.inj (hstands.walk.symm.trans hwalk)
    exact hfault
  · exact fun hfault => ⟨hplace, position, hstands.walk, hfault⟩

-- Tokens with a fault are rejected for it at every depth that is enough.
theorem parseWithin_of_faultAt {depth : Nat} (h : FaultAt table tokens place cause)
    (hdeep : ∀ fault, parseWithin depth tokens table = .error fault →
      fault.cause ≠ .nestingTooDeep) :
    ∃ fault, parseWithin depth tokens table = .error fault ∧
      faultPlace depth tokens table fault = place ∧ fault.cause = cause := by
  cases hparse : parseWithin depth tokens table with
  | ok definitions =>
    have hfault := (Parser.Progress.result_eq_ok_iff.mp hparse).1
    obtain ⟨phrases, hderives, -⟩ := Parser.derives_of_limited hfault
    exact absurd hderives.accepts h.not_accepts
  | error fault =>
    obtain ⟨hat, -⟩ := faultAt_of_parseWithin hparse (hdeep fault hparse)
    obtain ⟨hplace, hcause⟩ := hat.unique h
    exact ⟨fault, rfl, hplace, hcause⟩

-- Wherever the tokens may end, the next token is reported if and only if it is
-- wrong there, and for what is wrong with it.
theorem faults_by_position (tokens : List Token) (table : PrecedenceTable) (depth : Nat)
    (hdeep : ∀ fault, parseWithin depth tokens table = .error fault →
      fault.cause ≠ .nestingTooDeep) :
    (∀ fault, parseWithin depth tokens table = .error fault →
      fault.token = Parser.tokenAt ⟨tokens.toArray, table⟩ (faultPlace depth tokens table fault) ∧
      ∃ position, Stands table (tokens.take (faultPlace depth tokens table fault)) position ∧
        (∀ other, Stands table (tokens.take (faultPlace depth tokens table fault)) other →
          other = position) ∧
        Raises table position tokens[faultPlace depth tokens table fault]? fault.cause) ∧
    ∀ place ≤ tokens.length, ∀ position, Stands table (tokens.take place) position →
      ∀ cause, Raises table position tokens[place]? cause ↔
        ∃ fault, parseWithin depth tokens table = .error fault ∧
          faultPlace depth tokens table fault = place ∧ fault.cause = cause := by
  refine ⟨fun fault hparse => ?_, fun place hplace position hstands cause => ⟨fun h => ?_, ?_⟩⟩
  · obtain ⟨hat, htoken⟩ := faultAt_of_parseWithin hparse (hdeep fault hparse)
    obtain ⟨hplace, position, hwalk, -⟩ := id hat
    have hstands := stands_iff_walk.mpr hwalk
    refine ⟨htoken, position, hstands, fun other hother => ?_,
      (faultAt_iff_raises hplace hstands).mp hat⟩
    exact Except.ok.inj (hother.walk.symm.trans hwalk)
  · exact parseWithin_of_faultAt ((faultAt_iff_raises hplace hstands).mpr h) hdeep
  · rintro ⟨fault, hparse, rfl, rfl⟩
    obtain ⟨hat, -⟩ := faultAt_of_parseWithin hparse (hdeep fault hparse)
    exact (faultAt_iff_raises hplace hstands).mp hat

section Definition

open Sample

-- Two parameters with no comma between them.
private def crowded : List Token :=
  [⟨.define, "def", .absent, none⟩, word, opening, word, word]

private theorem parse_crowded :
    parseWithin Parser.depthLimit crowded .defaults = .error ⟨.expectedArgumentList, word⟩ := rfl

theorem faults_by_position_crowded :
    (∃ position, Stands .defaults (crowded.take 4) position ∧
      Raises .defaults position (some word) .expectedArgumentList) ∧
    ∀ position, Stands .defaults (crowded.take 3) position →
      ∀ cause, ¬ Raises .defaults position (some word) cause := by
  have hplace : faultPlace Parser.depthLimit crowded .defaults ⟨.expectedArgumentList, word⟩ = 4 :=
    rfl
  obtain ⟨hreported, hraised⟩ := faults_by_position crowded .defaults Parser.depthLimit (by
    intro fault hfault
    cases parse_crowded.symm.trans hfault
    decide)
  constructor
  · obtain ⟨-, position, hstands, -, hraises⟩ := hreported _ parse_crowded
    rw [hplace] at hstands hraises
    exact ⟨position, hstands, hraises⟩
  · intro position hstands cause hraises
    obtain ⟨fault, hfault, hthree, -⟩ := (hraised 3 (by decide) position hstands cause).mp hraises
    cases parse_crowded.symm.trans hfault
    rw [hplace] at hthree
    cases hthree

end Definition

end ExprLang
