import ExprLang.Proofs.Parser.Depth

-- How deep is deep enough. Two productions that are open at the same token are
-- at most three steps of nesting apart, so the tokens bound the nesting, and a
-- parser without a limit is one whose limit they do not reach.

namespace ExprLang

namespace Parser

section Fits

variable {α β : Type} {p : Parser} {cursor : Nat}

-- It does not stop for its depth, and gives back no token.
def Fits (m : Run α) (cursor : Nat) : Prop :=
  Ends m cursor (fun _ next => cursor ≤ next) fun fault _ => fault.cause ≠ .nestingTooDeep

theorem Fits.bind {m : Run α} {k : α → Run β} (h : Fits m cursor)
    (hk : ∀ a next, cursor ≤ next → Fits (k a) next) : Fits (m >>= k) cursor := by
  refine ends_bind.mpr (Ends.imp h ?_ fun _ _ hcause => hcause)
  intro a next hle
  exact (hk a next hle).imp (fun _ _ h => Nat.le_trans hle h) fun _ _ hcause => hcause

theorem Fits.ite {c : Prop} [Decidable c] {m m' : Run α} (h : c → Fits m cursor)
    (h' : ¬ c → Fits m' cursor) : Fits (if c then m else m') cursor := by
  split
  · exact h ‹_›
  · exact h' ‹_›

theorem fits_pure (a : α) : Fits (pure a) cursor := Nat.le_refl _

theorem fits_stalled : Fits (p.stalled : Run α) cursor := by
  simp [Fits, Ends, stalled, stallFault]

theorem fits_fail {cause : Cause} (token : Token) (h : cause ≠ .nestingTooDeep) :
    Fits (fail cause token : Run α) cursor := ends_fail.mpr h

theorem fits_check (kind : TokenKind) : Fits (p.check kind) cursor := Nat.le_refl _

theorem fits_rounds : Fits p.rounds cursor := Nat.le_refl _

theorem fits_advance : Fits p.advance cursor := Nat.le_succ _

theorem fits_currentPrecedence : Fits p.currentPrecedence cursor := by
  refine ends_currentPrecedence.mpr ?_
  split
  · exact Nat.le_refl _
  · simp

-- A token that is taken has been there, or else parsing stops.
theorem Fits.take_bind {kind : TokenKind} {cause : Cause} {k : Token → Run β}
    (hcause : cause ≠ .nestingTooDeep)
    (hk : (p.tokenAt cursor).kind = kind → Fits (k (p.tokenAt cursor)) (cursor + 1)) :
    Fits (p.take kind cause >>= k) cursor := by
  refine ends_bind.mpr (ends_take.mpr ?_)
  split
  · exact Ends.imp (hk ‹_›) (fun _ _ h => Nat.le_of_succ_le h) fun _ _ hcause => hcause
  · exact hcause

end Fits

section Loops

variable {p : Parser} {cursor : Nat}

theorem fits_parameters (bound : Nat) : Fits (p.parameters bound) cursor := by
  induction bound generalizing cursor with
  | zero => exact fits_stalled
  | succ bound ih =>
    simp only [parameters]
    refine (fits_check _).bind fun begins _ _ => .ite (fun _ => ?_) fun _ => fits_pure _
    refine fits_advance.bind fun name _ _ => (fits_check _).bind fun closes _ _ => ?_
    refine .ite (fun _ => fits_pure _) fun _ => .take_bind (by simp) fun _ => ?_
    exact ih.bind fun _ _ _ => fits_pure _

theorem fits_prototype : Fits p.prototype cursor := by
  simp only [prototype]
  refine .take_bind (by simp) fun _ => .take_bind (by simp) fun _ => ?_
  refine fits_rounds.bind fun bound _ _ => (fits_parameters bound).bind fun _ _ _ => ?_
  exact fits_advance.bind fun _ _ _ => fits_pure _

theorem fits_arguments {expression : Run Node} (bound : Nat)
    (h : ∀ next, cursor ≤ next → Fits expression next) :
    Fits (p.arguments expression bound) cursor := by
  induction bound generalizing cursor with
  | zero => exact fits_stalled
  | succ bound ih =>
    simp only [arguments]
    refine (h cursor (Nat.le_refl _)).bind fun argument next hnext => ?_
    refine (fits_check _).bind fun closes middle hmiddle => ?_
    refine .ite (fun _ => fits_pure _) fun _ => .take_bind (by simp) fun _ => ?_
    exact (ih fun last hlast => h last (by omega)).bind fun _ _ _ => fits_pure _

theorem fits_callArguments {expression : Run Node}
    (h : ∀ next, cursor ≤ next → Fits expression next) :
    Fits (p.callArguments expression) cursor := by
  unfold callArguments
  refine (fits_check _).bind fun closes next hnext => .ite (fun _ => ?_) fun _ => ?_
  · exact fits_advance.bind fun _ _ _ => fits_pure _
  · refine fits_rounds.bind fun bound start hstart => ?_
    refine (fits_arguments bound fun last hlast => h last (by omega)).bind fun _ _ _ => ?_
    exact fits_advance.bind fun _ _ _ => fits_pure _

-- Whatever a chain takes has fewer tokens before it than the chain.
theorem fits_climb {operand : Run Node} {tighter : Node → Int → Run Node} (least : Int)
    (bound : Nat) (left : Node)
    (h : ∀ next, p.tokens.size - next < p.tokens.size - cursor → Fits operand next)
    (htighter : ∀ next, p.tokens.size - next < p.tokens.size - cursor →
      ∀ right level, Fits (tighter right level) next) :
    Fits (p.climb operand tighter least bound left) cursor := by
  induction bound generalizing cursor left with
  | zero => exact fits_stalled
  | succ bound ih =>
    simp only [climb, extendRight]
    refine fits_currentPrecedence.bind fun level next hnext => ?_
    refine .ite (fun _ => fits_pure _) fun _ => .take_bind (by simp) fun hkind => ?_
    have hsize := lt_size_of_kind hkind (by decide)
    refine (h (next + 1) (by omega)).bind fun right middle hmiddle => ?_
    have hright : Fits (do
        if level < (← p.currentPrecedence) then tighter right (level + 1) else return right)
        middle := by
      refine fits_currentPrecedence.bind fun following last hlast => .ite (fun _ => ?_) fun _ => ?_
      · exact htighter last (by omega) right (level + 1)
      · exact fits_pure right
    refine hright.bind fun right last hlast => ih _ (fun other hother => ?_) fun other hother => ?_
    · exact h other (by omega)
    · exact htighter other (by omega)

end Loops

section Ample

variable {p : Parser} {depth : Nat}

-- Each production does not stop for its depth where so few tokens are left.
structure Ample (p : Parser) (depth : Nat) : Prop where
  expression : ∀ cursor, 3 * (p.tokens.size - cursor) + 2 ≤ depth → Fits (p.expression depth) cursor
  primary : ∀ cursor, 3 * (p.tokens.size - cursor) + 1 ≤ depth → Fits (p.primary depth) cursor
  parens : ∀ cursor < p.tokens.size, 3 * (p.tokens.size - cursor) ≤ depth →
    Fits (p.parens depth) cursor
  identifier : ∀ cursor < p.tokens.size, 3 * (p.tokens.size - cursor) ≤ depth →
    Fits (p.identifier depth) cursor
  binaryOp : ∀ cursor, 3 * (p.tokens.size - cursor) + 1 ≤ depth → ∀ left least,
    Fits (p.binaryOp depth left least) cursor

theorem ample (p : Parser) (depth : Nat) : p.Ample depth := by
  induction depth with
  | zero => exact ⟨by omega, by omega, by omega, by omega, by omega⟩
  | succ depth ih =>
    constructor
    · intro cursor hdepth
      simp only [expression]
      refine (ih.primary cursor (by omega)).bind fun first next hnext => ?_
      exact ih.binaryOp next (by omega) first 0
    · intro cursor hdepth
      simp only [primary]
      refine ends_bind.mpr (ends_peek.mpr ?_)
      split
      case h_1 hkind =>
        exact ih.identifier cursor (lt_size_of_kind hkind (by decide)) (by omega)
      case h_2 hkind =>
        exact Fits.take_bind (by simp) fun _ => fits_pure _
      case h_3 hkind => exact ih.parens cursor (lt_size_of_kind hkind (by decide)) (by omega)
      case h_4 => exact fits_fail _ (by simp)
    · intro cursor hcursor hdepth
      simp only [parens]
      refine .take_bind (by simp) fun _ => ?_
      refine (ih.expression (cursor + 1) (by omega)).bind fun inner next hnext => ?_
      exact .take_bind (by simp) fun _ => fits_pure _
    · intro cursor hcursor hdepth
      simp only [identifier]
      refine .take_bind (by simp) fun _ => (fits_check _).bind fun opens next hnext => ?_
      refine .ite (fun _ => ?_) fun _ => fits_pure _
      refine fits_advance.bind fun _ middle hmiddle => ?_
      refine (fits_callArguments fun last hlast => ih.expression last (by omega)).bind ?_
      exact fun _ _ _ => fits_pure _
    · intro cursor hdepth left least
      simp only [binaryOp]
      refine fits_rounds.bind fun bound next hnext => fits_climb least bound left ?_ ?_
      · exact fun last hlast => ih.primary last (by omega)
      · exact fun last hlast => ih.binaryOp last (by omega)

-- No tokens of this parser nest as deep.
def ampleDepth (p : Parser) : Nat := 3 * p.tokens.size + 2

theorem fits_unit {cursor : Nat} (hdepth : p.ampleDepth ≤ depth) : Fits (p.unit depth) cursor := by
  unfold ampleDepth at hdepth
  have hexpression : ∀ next, Fits (p.expression depth) next :=
    fun next => (p.ample depth).expression next (by omega)
  simp only [unit, definition, bareExpression]
  refine (fits_check _).bind fun _ _ _ => .ite (fun _ => ?_) fun _ => ?_
  · refine fits_advance.bind fun _ _ _ => fits_prototype.bind fun _ next _ => ?_
    exact (hexpression next).bind fun _ _ _ => fits_pure _
  · exact (hexpression _).bind fun _ _ _ => fits_pure _

end Ample

section Unlimited

variable {p : Parser}

theorem Fits.not_tooDeep {α : Type} {m : Run α} {cursor : Nat} (h : Fits m cursor) :
    ¬ TooDeep m cursor := by
  intro hdeep
  cases hm : m cursor with
  | ok a next => exact hdeep.ok hm
  | error fault next => exact h.error hm (hdeep.error hm)

theorem within_unit (p : Parser) (depth : Nat) : Within (p.unit depth) (p.unit (depth + 1)) := by
  have hexpression := (p.depthStep depth).expression
  simp only [unit, definition, bareExpression]
  refine .bind (.refl _) fun begins => .ite ?_ (hexpression.bind fun _ => .refl _)
  exact .bind (.refl _) fun _ => .bind (.refl _) fun _ => hexpression.bind fun _ => .refl _

def limited (p : Parser) (depth : Nat) : Progress := p.units depth p.tokens.size 0

-- What there is with no limit on the depth.
def unlimited (p : Parser) : Progress := p.limited p.ampleDepth

theorem unit_of_ample {depth cursor : Nat} (hdepth : p.ampleDepth ≤ depth) :
    p.unit depth cursor = p.unit p.ampleDepth cursor := by
  have hfits : Fits (p.unit p.ampleDepth) cursor := fits_unit (Nat.le_refl _)
  exact ((within_of_le (within_unit p) hdepth cursor).resolve_right hfits.not_tooDeep).symm

theorem units_of_ample {depth : Nat} (hdepth : p.ampleDepth ≤ depth) (bound cursor : Nat) :
    p.units depth bound cursor = p.units p.ampleDepth bound cursor := by
  induction bound generalizing cursor with
  | zero => rfl
  | succ bound ih => simp only [units, unit_of_ample hdepth, ih]

-- All depths beyond the ample one come to the same.
theorem limited_of_ample {depth : Nat} (hdepth : p.ampleDepth ≤ depth) :
    p.limited depth = p.unlimited := units_of_ample hdepth _ _

theorem units_or_tooDeep (depth bound cursor : Nat) :
    p.units depth bound cursor = p.units p.ampleDepth bound cursor ∨
      ∃ fault, (p.units depth bound cursor).fault? = some fault ∧
        fault.cause = .nestingTooDeep := by
  by_cases hdepth : p.ampleDepth ≤ depth
  · exact .inl (units_of_ample hdepth bound cursor)
  have hle : depth ≤ p.ampleDepth := by omega
  induction bound generalizing cursor with
  | zero => exact .inl rfl
  | succ bound ih =>
    by_cases hend : p.tokens.size ≤ cursor
    · rw [units_of_size_le hend, units_of_size_le hend]
      exact .inl rfl
    have hlt := Nat.lt_of_not_le hend
    rcases within_of_le (within_unit p) hle cursor with heq | hdeep
    · cases hunit : p.unit p.ampleDepth cursor with
      | error fault stop =>
        rw [units_of_error hlt hunit, units_of_error hlt (heq.trans hunit)]
        exact .inl rfl
      | ok definition next =>
        rw [units_of_ok hlt hunit, units_of_ok hlt (heq.trans hunit)]
        exact (ih next).imp_left (congrArg _)
    · cases hunit : p.unit depth cursor with
      | error fault stop =>
        rw [units_of_error hlt hunit]
        exact .inr ⟨fault, rfl, hdeep.error hunit⟩
      | ok definition next => exact (hdeep.ok hunit).elim

-- A limit shows only in programs that are too deep for it.
theorem limited_or_tooDeep (p : Parser) (depth : Nat) : p.limited depth = p.unlimited ∨
    ∃ fault, (p.limited depth).fault? = some fault ∧ fault.cause = .nestingTooDeep :=
  units_or_tooDeep depth _ _

theorem units_not_tooDeep {depth : Nat} (hdepth : p.ampleDepth ≤ depth) (bound cursor : Nat)
    {fault : SyntaxFault} (h : (p.units depth bound cursor).fault? = some fault) :
    fault.cause ≠ .nestingTooDeep := by
  induction bound generalizing cursor with
  | zero =>
    simp only [units] at h
    split at h
    · cases h
    · obtain rfl := Option.some.inj h
      simp [stallFault]
  | succ bound ih =>
    by_cases hend : p.tokens.size ≤ cursor
    · rw [units_of_size_le hend] at h
      cases h
    have hlt := Nat.lt_of_not_le hend
    cases hunit : p.unit depth cursor with
    | error other stop =>
      rw [units_of_error hlt hunit] at h
      obtain rfl := Option.some.inj h
      exact (fits_unit hdepth).error hunit
    | ok definition next =>
      rw [units_of_ok hlt hunit] at h
      exact ih next h

theorem unlimited_not_tooDeep {fault : SyntaxFault} (h : p.unlimited.fault? = some fault) :
    fault.cause ≠ .nestingTooDeep := units_not_tooDeep (Nat.le_refl _) _ _ h

end Unlimited

end Parser

def parseWithin (depth : Nat) (tokens : List Token) (table : PrecedenceTable) :
    Except SyntaxFault (List Definition) :=
  (Parser.limited ⟨tokens.toArray, table⟩ depth).result

def parseUnlimited (tokens : List Token) (table : PrecedenceTable) :
    Except SyntaxFault (List Definition) :=
  (Parser.unlimited ⟨tokens.toArray, table⟩).result

theorem parseWithin_depthLimit (tokens : List Token) (table : PrecedenceTable) :
    parseWithin Parser.depthLimit tokens table = parseTokens tokens table := rfl

end ExprLang
