import ExprLang.Proofs.Parser.Outcome
import ExprLang.Proofs.Tree.Reference

-- What precedence climbing does with a chain of operators and operands, for
-- any operands: it takes the operators up to the first that binds too loosely,
-- and what it has taken becomes the textbook tree.

namespace ExprLang.Parser

variable {p : Parser} {Operand : Nat → Node → Nat → Prop} {Fails : Nat → SyntaxFault → Nat → Prop}

-- Links one behind the other, from a cursor to another. What an operand is and
-- how far it reaches is told by a relation.
inductive Chain (p : Parser) (Operand : Nat → Node → Nat → Prop) : Nat → List Link → Nat → Prop
  | nil {cursor : Nat} : Chain p Operand cursor [] cursor
  | cons {cursor next stop : Nat} {level : Int} {operand : Node} {links : List Link}
      (hkind : (p.tokenAt cursor).kind = .binaryOperator)
      (hlevel : p.precedence.level? (p.tokenAt cursor).value = some level)
      (hoperand : Operand (cursor + 1) operand next) (hrest : Chain p Operand next links stop) :
      Chain p Operand cursor (⟨(p.tokenAt cursor).value.plain, level, operand⟩ :: links) stop

-- No operator that binds at least as tightly stands there, and none that is
-- not listed.
def Below (p : Parser) (least : Int) (cursor : Nat) : Prop :=
  ∃ level, p.levelAt cursor = some level ∧ level < least

-- The chain cannot go on there, for the operator is not listed or has no operand.
def Breaks (p : Parser) (Fails : Nat → SyntaxFault → Nat → Prop) (least : Int) (cursor : Nat)
    (fault : SyntaxFault) (stop : Nat) : Prop :=
  (p.levelAt cursor = none ∧ stop = cursor ∧
    fault = ⟨.undefinedOperator (p.tokenAt cursor).value, p.tokenAt cursor⟩) ∨
  ∃ level, (p.tokenAt cursor).kind = .binaryOperator ∧
    p.precedence.level? (p.tokenAt cursor).value = some level ∧ least ≤ level ∧
    Fails (cursor + 1) fault stop

def Climbed (p : Parser) (Operand : Nat → Node → Nat → Prop) (left : Node) (least : Int)
    (cursor : Nat) (tree : Node) (stop : Nat) : Prop :=
  ∃ links, p.Chain Operand cursor links stop ∧ (∀ link ∈ links, least ≤ link.level) ∧
    p.Below least stop ∧ tree = reference left links

def ClimbFails (p : Parser) (Operand : Nat → Node → Nat → Prop)
    (Fails : Nat → SyntaxFault → Nat → Prop) (least : Int) (cursor : Nat)
    (fault : SyntaxFault) (stop : Nat) : Prop :=
  fault.cause = .nestingTooDeep ∨
    ∃ links next, p.Chain Operand cursor links next ∧ (∀ link ∈ links, least ≤ link.level) ∧
      p.Breaks Fails least next fault stop

theorem levelAt_of_kind {cursor : Nat} (hkind : (p.tokenAt cursor).kind = .binaryOperator) :
    p.levelAt cursor = p.precedence.level? (p.tokenAt cursor).value := by
  simp [levelAt, hkind]

theorem Chain.append {cursor middle stop : Nat} {links rest : List Link}
    (h : p.Chain Operand cursor links middle) (hrest : p.Chain Operand middle rest stop) :
    p.Chain Operand cursor (links ++ rest) stop := by
  induction h with
  | nil => exact hrest
  | cons hkind hlevel hoperand _ ih => exact .cons hkind hlevel hoperand (ih hrest)

theorem Chain.le {cursor stop : Nat} {links : List Link} (h : p.Chain Operand cursor links stop)
    (hprogress : ∀ cursor tree next, Operand cursor tree next → cursor < next) :
    cursor ≤ stop := by
  induction h with
  | nil => exact Nat.le_refl _
  | cons _ _ hoperand _ ih =>
    have := hprogress _ _ _ hoperand
    omega

-- The first operator of a chain is the one that stands there.
theorem Chain.head_level {cursor stop : Nat} {links : List Link}
    (h : p.Chain Operand cursor links stop) : ∀ link ∈ links.head?,
      p.levelAt cursor = some link.level := by
  cases h with
  | nil => simp
  | cons hkind hlevel _ _ => simp [levelAt_of_kind hkind, hlevel]

theorem Chain.head_le {cursor stop : Nat} {links : List Link} {level : Int}
    (h : p.Chain Operand cursor links stop) (hbelow : p.Below (level + 1) cursor) :
    ∀ link ∈ links.head?, link.level ≤ level := by
  intro link hlink
  obtain ⟨other, hother, hlt⟩ := hbelow
  have hsame := Option.some.inj ((h.head_level link hlink).symm.trans hother)
  omega

theorem Breaks.mono {least least' : Int} {cursor stop : Nat} {fault : SyntaxFault}
    (h : p.Breaks Fails least' cursor fault stop) (hle : least ≤ least') :
    p.Breaks Fails least cursor fault stop := by
  rcases h with h | ⟨level, hkind, hlevel, hleast, hfails⟩
  · exact .inl h
  · exact .inr ⟨level, hkind, hlevel, Int.le_trans hle hleast, hfails⟩

-- A chain that fails does so as well behind links that do not.
theorem ClimbFails.append {least least' : Int} {cursor middle stop : Nat} {links : List Link}
    {fault : SyntaxFault} (hchain : p.Chain Operand cursor links middle)
    (hlinks : ∀ link ∈ links, least ≤ link.level) (hle : least ≤ least')
    (h : p.ClimbFails Operand Fails least' middle fault stop) :
    p.ClimbFails Operand Fails least cursor fault stop := by
  rcases h with h | ⟨more, next, hmore, hall, hbreaks⟩
  · exact .inl h
  · refine .inr ⟨links ++ more, next, hchain.append hmore, ?_, hbreaks.mono hle⟩
    exact List.forall_mem_append.mpr
      ⟨hlinks, fun link hlink => Int.le_trans hle (hall link hlink)⟩

-- What has been folded into the left was taken as well.
theorem Climbed.fold {least : Int} {left tree : Node} {link : Link} {inner : List Link}
    {cursor stop last : Nat}
    (h : p.Climbed Operand (.binary link.op left (reference link.operand inner)) least stop tree
      last)
    (hchain : p.Chain Operand cursor (link :: inner) stop)
    (hlinks : ∀ other ∈ link :: inner, least ≤ other.level)
    (htight : ∀ other ∈ inner, link.level + 1 ≤ other.level)
    (hbelow : p.Below (link.level + 1) stop) : p.Climbed Operand left least cursor tree last := by
  obtain ⟨rest, hrest, hall, hlast, rfl⟩ := h
  refine ⟨(link :: inner) ++ rest, hchain.append hrest, ?_, hlast, ?_⟩
  · exact List.forall_mem_append.mpr ⟨hlinks, hall⟩
  · have hinner := fun other hother => Int.lt_of_add_one_le (htight other hother)
    exact (reference_fold left link inner rest hinner (hrest.head_le hbelow)).symm

section Loop

variable {operand : Run Node} {tighter : Node → Int → Run Node}
  (hoperand : ∀ cursor, Ends operand cursor (Operand cursor) (Fails cursor))
  (htighter : ∀ right level cursor, 0 ≤ level →
    Ends (tighter right level) cursor (p.Climbed Operand right level cursor)
      (p.ClimbFails Operand Fails level cursor))

include htighter in
-- Behind an operator the right operand takes what binds more tightly than it,
-- whether or not there is anything to take.
theorem ends_extendRight {level : Int} (hlevel : 0 ≤ level) (right : Node) (cursor : Nat) :
    Ends (p.extendRight tighter level right) cursor (p.Climbed Operand right (level + 1) cursor)
      (p.ClimbFails Operand Fails (level + 1) cursor) := by
  simp only [extendRight, ends_bind, ends_currentPrecedence, ends_ite, ends_pure]
  cases hnext : p.levelAt cursor with
  | none => exact .inr ⟨[], cursor, .nil, by simp, .inl ⟨hnext, rfl, rfl⟩⟩
  | some next =>
    dsimp only
    by_cases htight : level < next
    · rw [if_pos htight]
      exact htighter right (level + 1) cursor (by omega)
    · rw [if_neg htight]
      exact ⟨[], .nil, by simp, ⟨next, hnext, by omega⟩, by simp⟩

include hoperand htighter in
theorem ends_climb (hprogress : ∀ cursor tree next, Operand cursor tree next → cursor < next)
    {least : Int} (hleast : 0 ≤ least) (bound : Nat) (left : Node) (cursor : Nat)
    (hbound : p.tokens.size - cursor < bound) :
    Ends (p.climb operand tighter least bound left) cursor (p.Climbed Operand left least cursor)
      (p.ClimbFails Operand Fails least cursor) := by
  induction bound generalizing left cursor with
  | zero => omega
  | succ bound ih =>
    simp only [climb, ends_bind, ends_currentPrecedence, ends_ite, ends_pure, ends_take]
    cases hlevel : p.levelAt cursor with
    | none => exact .inr ⟨[], cursor, .nil, by simp, .inl ⟨hlevel, rfl, rfl⟩⟩
    | some level =>
      dsimp only
      by_cases hlt : level < least
      · rw [if_pos hlt]
        exact ⟨[], .nil, by simp, ⟨level, hlevel, hlt⟩, by simp⟩
      have hle : least ≤ level := Int.not_lt.mp hlt
      have hpos : 0 ≤ level := Int.le_trans hleast hle
      obtain ⟨hkind, hlisted⟩ := (levelAt_eq_some_iff hpos).mp hlevel
      have hsize := lt_size_of_kind hkind (by decide)
      rw [if_neg hlt, if_pos hkind]
      refine (hoperand (cursor + 1)).imp ?_ ?_
      · intro right next hright
        refine (ends_extendRight htighter hpos right next).imp ?_ ?_
        · rintro _ stop ⟨inner, hinner, htight, hbelow, rfl⟩
          -- the operator, its operand and all that this takes are folded into the left
          have hchain := Chain.cons hkind hlisted hright hinner
          have hlinks : ∀ link ∈ ⟨(p.tokenAt cursor).value.plain, level, right⟩ :: inner,
              least ≤ link.level := by
            refine List.forall_mem_cons.mpr ⟨hle, fun link hlink => ?_⟩
            have := htight link hlink
            omega
          have hstop : cursor < stop := by
            have := hprogress _ _ _ hright
            have := hinner.le hprogress
            omega
          refine (ih _ stop (by omega)).imp ?_ ?_
          · exact fun tree last hrest => hrest.fold hchain hlinks htight hbelow
          · intro fault last hfails
            exact hfails.append hchain hlinks (Int.le_refl _)
        · intro fault stop hfails
          refine hfails.append (.cons hkind hlisted hright .nil) ?_ (by omega)
          simpa using hle
      · intro fault stop hfails
        exact .inr ⟨[], cursor, .nil, by simp, .inr ⟨level, hkind, hlisted, hle, hfails⟩⟩

end Loop

-- Where each operand ends as the relations tell, so does each chain.
theorem ends_binaryOp (depth : Nat)
    (hoperand : ∀ shallower < depth, ∀ cursor,
      Ends (p.primary shallower) cursor (Operand cursor) (Fails cursor))
    (hprogress : ∀ cursor tree next, Operand cursor tree next → cursor < next)
    {least : Int} (hleast : 0 ≤ least) (left : Node) (cursor : Nat) :
    Ends (p.binaryOp depth left least) cursor (p.Climbed Operand left least cursor)
      (p.ClimbFails Operand Fails least cursor) := by
  induction depth generalizing left least cursor with
  | zero =>
    simp only [binaryOp, ends_tooDeep]
    exact .inl rfl
  | succ depth ih =>
    simp only [binaryOp, ends_bind, ends_rounds]
    exact ends_climb (hoperand depth (Nat.lt_succ_self _))
      (fun right level next hlevel =>
        ih (fun shallower hlt => hoperand shallower (by omega)) hlevel right next)
      hprogress hleast _ left cursor (Nat.lt_succ_self _)

end ExprLang.Parser
