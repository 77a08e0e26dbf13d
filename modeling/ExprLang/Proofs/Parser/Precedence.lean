import ExprLang.Proofs.Parser.Ample
import ExprLang.Proofs.Parser.Soundness

-- Precedence climbing reads the textbook tree. What an operand is, is told by
-- the parser itself here, and how deep it may nest does not matter.

namespace ExprLang.Parser

variable {p : Parser}

-- What the parser makes of an operand that nests as deep as it likes.
def Reads (p : Parser) (cursor : Nat) (operand : Node) (next : Nat) : Prop :=
  Settles p.primary cursor (.ok operand next)

def Refuses (p : Parser) (cursor : Nat) (fault : SyntaxFault) (next : Nat) : Prop :=
  fault.cause = .nestingTooDeep ∨ Settles p.primary cursor (.error fault next)

theorem Reads.lt {cursor next : Nat} {operand : Node} (h : p.Reads cursor operand next) :
    cursor < next := by
  obtain ⟨limit, hlimit⟩ := h
  exact ((ends_primary limit cursor).ok (hlimit limit (Nat.le_refl _))).lt

theorem Reads.unique {cursor next next' : Nat} {operand operand' : Node}
    (h : p.Reads cursor operand next) (h' : p.Reads cursor operand' next') :
    operand = operand' ∧ next = next' := by
  have hresult := Settles.unique h h'
  injection hresult with htree hnext
  exact ⟨htree, hnext⟩

theorem ends_primary_reads (depth cursor : Nat) :
    Ends (p.primary depth) cursor (p.Reads cursor) (p.Refuses cursor) := by
  have hstep := fun depth => (p.depthStep depth).primary
  refine .of_cases (fun operand next hrun => settles_ok hstep hrun) fun fault next hrun => ?_
  by_cases hcause : fault.cause = .nestingTooDeep
  · exact .inl hcause
  · exact .inr (settles_error hstep hrun hcause)

-- Of two chains from the same cursor one goes on where the other stops.
theorem Chain.compare {cursor stop stop' : Nat} {links links' : List Link}
    (h : p.Chain p.Reads cursor links stop) (h' : p.Chain p.Reads cursor links' stop') :
    (∃ rest, links = links' ++ rest ∧ p.Chain p.Reads stop' rest stop) ∨
      ∃ link rest, links' = links ++ link :: rest ∧ p.Chain p.Reads stop (link :: rest) stop' := by
  induction h generalizing links' with
  | nil =>
    cases h' with
    | nil => exact .inl ⟨[], rfl, .nil⟩
    | cons hkind hlevel hoperand hrest =>
      exact .inr ⟨_, _, rfl, .cons hkind hlevel hoperand hrest⟩
  | cons hkind hlevel hoperand hmore ih =>
    cases h' with
    | nil => exact .inl ⟨_, rfl, .cons hkind hlevel hoperand hmore⟩
    | cons _ hlevel' hoperand' hmore' =>
      obtain rfl := Option.some.inj (hlevel.symm.trans hlevel')
      obtain ⟨rfl, rfl⟩ := hoperand.unique hoperand'
      rcases ih hmore' with ⟨rest, rfl, hrest⟩ | ⟨link, rest, rfl, hrest⟩
      · exact .inl ⟨rest, rfl, hrest⟩
      · exact .inr ⟨link, rest, rfl, hrest⟩

section Climbing

variable {least : Int} {cursor stop : Nat} {links : List Link}

-- A chain does not go on where only looser operators may follow.
theorem Chain.eq_nil_of_below {link : Link} {rest : List Link} {next : Nat}
    (h : p.Chain p.Reads stop (link :: rest) next) (hbelow : p.Below least stop) :
    link.level < least := by
  obtain ⟨level, hlevel, hlt⟩ := hbelow
  have hsame := Option.some.inj ((h.head_level link rfl).symm.trans hlevel)
  omega

-- The links that have been taken are those up to the first that binds too loosely.
theorem Chain.takeWhile_of_climbed {taken : List Link} {next : Nat}
    (hchain : p.Chain p.Reads cursor links stop)
    (hstop : (∀ link ∈ links, least ≤ link.level) → p.Below least stop)
    (htaken : p.Chain p.Reads cursor taken next) (hall : ∀ link ∈ taken, least ≤ link.level)
    (hbelow : p.Below least next) :
    links.takeWhile (least ≤ ·.level) = taken ∧
      p.Chain p.Reads next (links.dropWhile (least ≤ ·.level)) stop := by
  rcases hchain.compare htaken with ⟨rest, rfl, hrest⟩ | ⟨link, rest, rfl, hrest⟩
  · have hkeep : ∀ link ∈ taken, decide (least ≤ link.level) = true := by simpa using hall
    rw [List.takeWhile_append_of_pos hkeep, List.dropWhile_append_of_pos hkeep]
    cases rest with
    | nil => exact ⟨List.append_nil _, hrest⟩
    | cons link rest =>
      have hlt := hrest.eq_nil_of_below hbelow
      have hnot : ¬ least ≤ link.level := by omega
      simpa [hnot] using hrest
  · have hlt := hrest.eq_nil_of_below (hstop fun other hother => hall other (by simp [hother]))
    have hle := hall link (by simp)
    omega

-- A chain of operands that are read does not fail before it stops.
theorem not_climbFails {fault : SyntaxFault} {last : Nat}
    (hchain : p.Chain p.Reads cursor links stop)
    (hstop : (∀ link ∈ links, least ≤ link.level) → p.Below least stop)
    (hcause : fault.cause ≠ .nestingTooDeep) :
    ¬ p.ClimbFails p.Reads p.Refuses least cursor fault last := by
  rintro (hdeep | ⟨taken, next, htaken, hall, hbreaks⟩)
  · exact hcause hdeep
  rcases hchain.compare htaken with ⟨rest, rfl, hrest⟩ | ⟨link, rest, rfl, hrest⟩
  · cases hrest with
    | nil =>
      obtain ⟨level, hlevel, hlt⟩ := hstop (by simpa using hall)
      rcases hbreaks with ⟨hnone, -⟩ | ⟨other, hkind, hother, hle, -⟩
      · cases hnone.symm.trans hlevel
      · rw [levelAt_of_kind hkind, hother] at hlevel
        obtain rfl := Option.some.inj hlevel
        omega
    | cons hkind hlevel hoperand _ =>
      rcases hbreaks with ⟨hnone, -⟩ | ⟨_, _, _, _, hdeep | hfails⟩
      · rw [levelAt_of_kind hkind, hlevel] at hnone
        cases hnone
      · exact hcause hdeep
      · cases Settles.unique hoperand hfails
  · have hlt := hrest.eq_nil_of_below (hstop fun other hother => hall other (by simp [hother]))
    have hle := hall link (by simp)
    omega

theorem settles_binaryOp (hleast : 0 ≤ least) (hchain : p.Chain p.Reads cursor links stop)
    (hstop : (∀ link ∈ links, least ≤ link.level) → p.Below least stop) (left : Node) :
    ∃ next, p.Chain p.Reads cursor (links.takeWhile (least ≤ ·.level)) next ∧
      p.Chain p.Reads next (links.dropWhile (least ≤ ·.level)) stop ∧
      Settles (p.binaryOp · left least) cursor
        (.ok (reference left (links.takeWhile (least ≤ ·.level))) next) := by
  have hends := ends_binaryOp p.ampleDepth
    (fun shallower _ cursor => p.ends_primary_reads shallower cursor) (fun _ _ _ h => h.lt) hleast
    left cursor
  have hfits := (p.ample p.ampleDepth).binaryOp cursor (by unfold ampleDepth; omega) left least
  cases hrun : p.binaryOp p.ampleDepth left least cursor with
  | error fault last =>
    exact absurd (hends.error hrun) (not_climbFails hchain hstop (hfits.error hrun))
  | ok tree next =>
    obtain ⟨taken, htaken, hall, hbelow, rfl⟩ := hends.ok hrun
    obtain ⟨rfl, hrest⟩ := hchain.takeWhile_of_climbed hstop htaken hall hbelow
    have hstep := fun depth => (p.depthStep depth).binaryOp left least
    exact ⟨next, htaken, hrest, settles_ok hstep hrun⟩

-- An expression is an operand and what climbs from it.
theorem settles_expression {start next : Nat} {first tree : Node}
    (hfirst : p.Reads start first cursor)
    (hrest : Settles (p.binaryOp · first 0) cursor (.ok tree next)) :
    Settles p.expression start (.ok tree next) := by
  obtain ⟨limit, hlimit⟩ := hfirst
  obtain ⟨limit', hlimit'⟩ := hrest
  refine ⟨max limit limit' + 1, fun depth hdepth => ?_⟩
  obtain ⟨depth, rfl⟩ : ∃ shallower, depth = shallower + 1 := ⟨depth - 1, by omega⟩
  simp only [expression, bind, EStateM.bind, hlimit depth (by omega)]
  exact hlimit' depth (by omega)

-- The operators before the first that binds more loosely than `least` are
-- taken, with their operands, and become the textbook tree.
theorem climbs_to_reference (hleast : 0 ≤ least) (hchain : p.Chain p.Reads cursor links stop)
    (hstop : (∀ link ∈ links, least ≤ link.level) → p.Below least stop) (left : Node) :
    ∃ next, p.Chain p.Reads cursor (links.takeWhile (least ≤ ·.level)) next ∧
      p.Chain p.Reads next (links.dropWhile (least ≤ ·.level)) stop ∧
      Settles (p.binaryOp · left least) cursor
        (.ok (reference left (links.takeWhile (least ≤ ·.level))) next) ∧
      (least = 0 → ∀ start, p.Reads start left cursor → Settles p.expression start
        (.ok (reference left (links.takeWhile (least ≤ ·.level))) next)) := by
  obtain ⟨next, htaken, hrest, hsettles⟩ := settles_binaryOp hleast hchain hstop left
  refine ⟨next, htaken, hrest, hsettles, ?_⟩
  rintro rfl start hfirst
  exact settles_expression hfirst hsettles

end Climbing

section Sum

open Grammar.Sample

private def zero : Node := .number (.number (.ofRank false 0))

-- A sum of a number and a product.
private def sum : Parser :=
  ⟨#[numeral, sign "+", numeral, sign "*", numeral], .defaults⟩

private theorem reads_numeral (cursor : Nat)
    (h : sum.primary 1 cursor = .ok zero (cursor + 1)) : sum.Reads cursor zero (cursor + 1) :=
  settles_ok (fun depth => (sum.depthStep depth).primary) h

theorem climbs_to_reference_sum : ∃ next,
    Settles sum.expression 0 (.ok (.binary "+" zero (.binary "*" zero zero)) next) := by
  have hchain : sum.Chain sum.Reads 1 [⟨"+", 20, zero⟩, ⟨"*", 40, zero⟩] 5 :=
    .cons rfl rfl (reads_numeral 2 rfl) (.cons rfl rfl (reads_numeral 4 rfl) .nil)
  obtain ⟨next, -, -, -, hexpression⟩ := climbs_to_reference (Int.le_refl 0) hchain
    (fun _ => ⟨-1, rfl, by decide⟩) zero
  have hproduct : reference zero [⟨"*", 40, zero⟩] = .binary "*" zero zero := by
    simpa using reference_append zero [] ⟨"*", 40, zero⟩ [] (by simp) (by simp)
  have hsum : reference zero [⟨"+", 20, zero⟩, ⟨"*", 40, zero⟩] =
      .binary "+" zero (reference zero [⟨"*", 40, zero⟩]) := by
    simpa using reference_append zero [] ⟨"+", 20, zero⟩ [⟨"*", 40, zero⟩] (by simp) (by simp)
  rw [hproduct] at hsum
  exact ⟨next, hsum ▸ hexpression rfl 0 (reads_numeral 0 rfl)⟩

end Sum

end ExprLang.Parser
