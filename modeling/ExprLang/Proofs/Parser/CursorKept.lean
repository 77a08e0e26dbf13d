import ExprLang.Proofs.Parser.Ample
import ExprLang.Proofs.Parser.Reading

-- Where each production leaves the cursor, wherever it begins. It moves on with
-- what it gives and never back, a fault is that of the token at the cursor or of
-- the one taken last, and no loop uses up its rounds.

namespace ExprLang.Parser

variable {p : Parser} {cursor middle limit limit' stop next : Nat} {fault : SyntaxFault}
  {cause : Cause}

-- Something has been taken, and nothing that is behind the last token.
def Moves (p : Parser) (cursor next : Nat) : Prop := cursor < next ∧ next ≤ p.tokens.size

-- How a production fails: never for the rounds of a loop, but for a token that it
-- has looked at or taken last.
structure Halts (p : Parser) (cursor limit : Nat) (fault : SyntaxFault) (stop : Nat) : Prop where
  taken_le : cursor + fault.cause.taken ≤ stop
  le_limit : stop ≤ limit
  token_eq : fault.token = p.tokenAt (stop - fault.cause.taken)
  not_stalled : fault.cause ≠ (p.stallFault stop).cause

theorem Halts.mono (h : p.Halts middle limit fault stop) (hcursor : cursor ≤ middle)
    (hlimit : limit ≤ limit') : p.Halts cursor limit' fault stop := by
  have := h.taken_le
  have := h.le_limit
  exact ⟨by omega, by omega, h.token_eq, h.not_stalled⟩

theorem halts_looked (htaken : cause.taken = 0) (hcursor : cursor ≤ middle)
    (hlimit : middle ≤ limit) : p.Halts cursor limit ⟨cause, p.tokenAt middle⟩ middle := by
  refine ⟨by simpa [htaken], hlimit, by simp [htaken], fun hcause => ?_⟩
  rw [show cause = _ from hcause] at htaken
  cases htaken

theorem halts_taken (htaken : cause.taken = 1) (hcause : cause ≠ (p.stallFault middle).cause)
    (hcursor : cursor ≤ middle) (hlimit : middle + 1 ≤ limit) :
    p.Halts cursor limit ⟨cause, p.tokenAt middle⟩ (middle + 1) :=
  ⟨by simpa [htaken], hlimit, by simp [htaken], hcause⟩

section Loops

theorem keeps_number (cursor : Nat) :
    Ends p.number cursor (fun _ => p.Moves cursor)
      (p.Halts cursor (max cursor p.tokens.size + 1)) := by
  simp only [number, ends_bind, ends_take, ends_pure]
  by_cases hkind : (p.tokenAt cursor).kind = .number
  · have hlt := lt_size_of_kind hkind (by decide)
    rw [if_pos hkind]
    exact ⟨by omega, hlt⟩
  · rw [if_neg hkind]
    exact halts_taken rfl (by simp [stallFault]) (Nat.le_refl _) (by omega)

-- The names may be followed by the end of the input.
theorem keeps_parameters (bound cursor : Nat) (hbound : p.tokens.size - cursor < bound) :
    Ends (p.parameters bound) cursor
      (fun _ next => cursor ≤ next ∧ next ≤ max cursor p.tokens.size)
      (p.Halts cursor (max cursor p.tokens.size + 1)) := by
  induction bound generalizing cursor with
  | zero => omega
  | succ bound ih =>
    simp only [parameters, ends_bind, ends_check, ends_ite, ends_pure, ends_advance, ends_take,
      decide_eq_true_eq]
    by_cases hname : (p.tokenAt cursor).kind = .identifier
    · have hlt := lt_size_of_kind hname (by decide)
      rw [if_pos hname]
      by_cases hclose : (p.tokenAt (cursor + 1)).kind = .parensClose
      · rw [if_pos hclose]
        omega
      rw [if_neg hclose]
      by_cases hcomma : (p.tokenAt (cursor + 1)).kind = .comma
      · have hlt' := lt_size_of_kind hcomma (by decide)
        rw [if_pos hcomma]
        refine (ih (cursor + 1 + 1) (by omega)).imp (fun names next hnext => by omega) ?_
        exact fun fault stop h => h.mono (by omega) (by omega)
      · rw [if_neg hcomma]
        exact halts_taken rfl (by simp [stallFault]) (by omega) (by omega)
    · rw [if_neg hname]
      omega

-- The token that closes the list may be the end of the input, and the only one
-- that is taken behind the last token.
theorem keeps_prototype (cursor : Nat) :
    Ends p.prototype cursor (fun _ next => cursor < next ∧ next ≤ p.tokens.size + 1)
      (p.Halts cursor (max cursor p.tokens.size + 1)) := by
  simp only [prototype, ends_bind, ends_advance, ends_take, ends_pure, ends_rounds]
  by_cases hname : (p.tokenAt cursor).kind = .identifier
  · have hlt := lt_size_of_kind hname (by decide)
    rw [if_pos hname]
    by_cases hopen : (p.tokenAt (cursor + 1)).kind = .parensOpen
    · have hlt' := lt_size_of_kind hopen (by decide)
      rw [if_pos hopen]
      refine (keeps_parameters _ (cursor + 1 + 1) (Nat.lt_succ_self _)).imp ?_ ?_
      · intro names next hnext
        omega
      · exact fun fault stop h => h.mono (by omega) (by omega)
    · rw [if_neg hopen]
      exact halts_taken rfl (by simp [stallFault]) (by omega) (by omega)
  · rw [if_neg hname]
    exact halts_taken rfl (by simp [stallFault]) (Nat.le_refl _) (by omega)

variable {expression operand : Run Node} {tighter : Node → Int → Run Node}

-- The arguments end before the parenthesis that closes the call.
theorem keeps_arguments (hexpression : ∀ cursor, Ends expression cursor (fun _ => p.Moves cursor)
      (p.Halts cursor (max cursor (p.tokens.size + 1))))
    (bound cursor : Nat) (hbound : p.tokens.size - cursor < bound) :
    Ends (p.arguments expression bound) cursor
      (fun _ next => cursor < next ∧ next < p.tokens.size)
      (p.Halts cursor (max cursor (p.tokens.size + 1))) := by
  induction bound generalizing cursor with
  | zero => omega
  | succ bound ih =>
    simp only [arguments, ends_bind, ends_check, ends_ite, ends_pure, ends_take, decide_eq_true_eq]
    refine (hexpression cursor).imp ?_ fun _ _ h => h
    rintro argument next ⟨hlt, hle⟩
    by_cases hclose : (p.tokenAt next).kind = .parensClose
    · have hnext := lt_size_of_kind hclose (by decide)
      rw [if_pos hclose]
      exact ⟨hlt, hnext⟩
    rw [if_neg hclose]
    by_cases hcomma : (p.tokenAt next).kind = .comma
    · have hnext := lt_size_of_kind hcomma (by decide)
      rw [if_pos hcomma]
      refine (ih (next + 1) (by omega)).imp (fun trees stop hstop => by omega) ?_
      exact fun fault stop h => h.mono (by omega) (by omega)
    · rw [if_neg hcomma]
      exact halts_taken rfl (by simp [stallFault]) (by omega) (by omega)

theorem keeps_callArguments
    (hexpression : ∀ cursor, Ends expression cursor (fun _ => p.Moves cursor)
      (p.Halts cursor (max cursor (p.tokens.size + 1))))
    (cursor : Nat) :
    Ends (p.callArguments expression) cursor (fun _ => p.Moves cursor)
      (p.Halts cursor (max cursor (p.tokens.size + 1))) := by
  simp only [callArguments, ends_bind, ends_check, ends_ite, ends_pure, ends_advance, ends_rounds,
    decide_eq_true_eq]
  by_cases hclose : (p.tokenAt cursor).kind = .parensClose
  · have hlt := lt_size_of_kind hclose (by decide)
    rw [if_pos hclose]
    exact ⟨Nat.lt_succ_self _, hlt⟩
  · rw [if_neg hclose]
    refine (keeps_arguments hexpression _ cursor (Nat.lt_succ_self _)).imp ?_ fun _ _ h => h
    rintro trees next ⟨hlt, hnext⟩
    exact ⟨Nat.lt_succ_of_lt hlt, hnext⟩

-- A chain may take nothing at all, wherever it is.
def MovesOrStays (p : Parser) (cursor next : Nat) : Prop := next = cursor ∨ p.Moves cursor next

theorem keeps_extendRight (htighter : ∀ right least cursor,
      Ends (tighter right least) cursor (fun _ => p.MovesOrStays cursor)
        (p.Halts cursor (max cursor p.tokens.size + 1)))
    (level : Int) (right : Node) (cursor : Nat) :
    Ends (p.extendRight tighter level right) cursor (fun _ => p.MovesOrStays cursor)
      (p.Halts cursor (max cursor p.tokens.size + 1)) := by
  simp only [extendRight, ends_bind, ends_currentPrecedence, ends_ite, ends_pure]
  cases p.levelAt cursor with
  | none => exact halts_looked rfl (Nat.le_refl _) (by omega)
  | some following =>
    dsimp only
    by_cases htight : level < following
    · rw [if_pos htight]
      exact htighter right (level + 1) cursor
    · rw [if_neg htight]
      exact .inl rfl

-- From a negative level on also what is no operator is taken for one, which ends
-- the chain with a fault.
theorem keeps_climb (hoperand : ∀ cursor, Ends operand cursor (fun _ => p.Moves cursor)
      (p.Halts cursor (max cursor (p.tokens.size + 1))))
    (htighter : ∀ right least cursor,
      Ends (tighter right least) cursor (fun _ => p.MovesOrStays cursor)
        (p.Halts cursor (max cursor p.tokens.size + 1)))
    (least : Int) (bound : Nat) (left : Node) (cursor : Nat)
    (hbound : p.tokens.size - cursor < bound) :
    Ends (p.climb operand tighter least bound left) cursor (fun _ => p.MovesOrStays cursor)
      (p.Halts cursor (max cursor p.tokens.size + 1)) := by
  induction bound generalizing left cursor with
  | zero => omega
  | succ bound ih =>
    simp only [climb, ends_bind, ends_currentPrecedence, ends_ite, ends_pure, ends_take]
    cases p.levelAt cursor with
    | none => exact halts_looked rfl (Nat.le_refl _) (by omega)
    | some level =>
      dsimp only
      by_cases hstop : level < least
      · rw [if_pos hstop]
        exact .inl rfl
      rw [if_neg hstop]
      by_cases hkind : (p.tokenAt cursor).kind = .binaryOperator
      · have hlt := lt_size_of_kind hkind (by decide)
        rw [if_pos hkind]
        refine (hoperand (cursor + 1)).imp ?_ fun _ _ h => h.mono (by omega) (by omega)
        rintro right next ⟨hnext, hle⟩
        refine (keeps_extendRight htighter level right next).imp ?_ fun _ _ h =>
          h.mono (by omega) (by omega)
        intro right last hlast
        have hrange : cursor + 1 < last ∧ last ≤ p.tokens.size := by
          rcases hlast with rfl | ⟨hlast, hle'⟩
          · exact ⟨hnext, hle⟩
          · exact ⟨by omega, hle'⟩
        refine (ih _ last (by omega)).imp ?_ fun _ _ h => h.mono (by omega) (by omega)
        rintro tree stop (rfl | ⟨hmore, hle'⟩)
        · exact .inr ⟨by omega, hrange.2⟩
        · exact .inr ⟨by omega, hle'⟩
      · rw [if_neg hkind]
        exact halts_taken rfl (by simp [stallFault]) (Nat.le_refl _) (by omega)

end Loops

-- All productions of one depth keep the cursor as they should. Operands and
-- expressions take nothing where no token is left.
structure KeepsAt (p : Parser) (depth : Nat) : Prop where
  expression : ∀ cursor, Ends (p.expression depth) cursor (fun _ => p.Moves cursor)
    (p.Halts cursor (max cursor (p.tokens.size + 1)))
  primary : ∀ cursor, Ends (p.primary depth) cursor (fun _ => p.Moves cursor)
    (p.Halts cursor (max cursor (p.tokens.size + 1)))
  parens : ∀ cursor, Ends (p.parens depth) cursor (fun _ => p.Moves cursor)
    (p.Halts cursor (max cursor p.tokens.size + 1))
  identifier : ∀ cursor, Ends (p.identifier depth) cursor (fun _ => p.Moves cursor)
    (p.Halts cursor (max cursor p.tokens.size + 1))
  binaryOp : ∀ left least cursor,
    Ends (p.binaryOp depth left least) cursor (fun _ => p.MovesOrStays cursor)
      (p.Halts cursor (max cursor p.tokens.size + 1))

section Productions

variable {depth : Nat}

theorem keeps_tooDeep {α : Type} {good : α → Nat → Prop} (hlimit : cursor ≤ limit) :
    Ends (p.tooDeep : Run α) cursor good (p.Halts cursor limit) :=
  ends_tooDeep.mpr (halts_looked rfl (Nat.le_refl _) hlimit)

theorem keepsAt (p : Parser) (depth : Nat) : p.KeepsAt depth := by
  induction depth with
  | zero =>
    constructor
    all_goals intros
    all_goals exact keeps_tooDeep (by omega)
  | succ depth ih =>
    constructor
    · intro cursor
      simp only [expression, ends_bind]
      refine (ih.primary cursor).imp ?_ fun _ _ h => h
      rintro first next ⟨hlt, hle⟩
      refine (ih.binaryOp first 0 next).imp ?_ fun _ _ h => h.mono (by omega) (by omega)
      rintro tree stop (rfl | ⟨hmore, hle'⟩)
      · exact ⟨hlt, hle⟩
      · exact ⟨by omega, hle'⟩
    · intro cursor
      simp only [primary, ends_bind, ends_peek]
      split
      case h_1 hkind =>
        have hlt := lt_size_of_kind hkind (by decide)
        exact (ih.identifier cursor).imp (fun _ _ h => h) fun _ _ h => h.mono (by omega) (by omega)
      case h_2 hkind =>
        have hlt := lt_size_of_kind hkind (by decide)
        exact (keeps_number cursor).imp (fun _ _ h => h) fun _ _ h => h.mono (by omega) (by omega)
      case h_3 hkind =>
        have hlt := lt_size_of_kind hkind (by decide)
        exact (ih.parens cursor).imp (fun _ _ h => h) fun _ _ h => h.mono (by omega) (by omega)
      case h_4 => exact halts_looked rfl (Nat.le_refl _) (by omega)
    · intro cursor
      simp only [parens, ends_bind, ends_take, ends_pure]
      by_cases hopen : (p.tokenAt cursor).kind = .parensOpen
      · have hlt := lt_size_of_kind hopen (by decide)
        rw [if_pos hopen]
        refine (ih.expression (cursor + 1)).imp ?_ fun _ _ h => h.mono (by omega) (by omega)
        rintro inner next ⟨hnext, hle⟩
        by_cases hclose : (p.tokenAt next).kind = .parensClose
        · have hlt' := lt_size_of_kind hclose (by decide)
          rw [if_pos hclose]
          exact ⟨by omega, hlt'⟩
        · rw [if_neg hclose]
          exact halts_taken rfl (by simp [stallFault]) (by omega) (by omega)
      · rw [if_neg hopen]
        exact halts_taken rfl (by simp [stallFault]) (Nat.le_refl _) (by omega)
    · intro cursor
      simp only [identifier, ends_bind, ends_take, ends_check, ends_ite, ends_pure, ends_advance,
        decide_eq_true_eq]
      by_cases hname : (p.tokenAt cursor).kind = .identifier
      · have hlt := lt_size_of_kind hname (by decide)
        rw [if_pos hname]
        by_cases hopen : (p.tokenAt (cursor + 1)).kind = .parensOpen
        · have hlt' := lt_size_of_kind hopen (by decide)
          rw [if_pos hopen]
          refine (keeps_callArguments ih.expression (cursor + 1 + 1)).imp ?_ fun _ _ h =>
            h.mono (by omega) (by omega)
          rintro trees next ⟨hnext, hle⟩
          exact ⟨by omega, hle⟩
        · rw [if_neg hopen]
          exact ⟨Nat.lt_succ_self _, hlt⟩
      · rw [if_neg hname]
        exact halts_taken rfl (by simp [stallFault]) (Nat.le_refl _) (by omega)
    · intro left least cursor
      simp only [binaryOp, ends_bind, ends_rounds]
      exact keeps_climb ih.primary ih.binaryOp least _ left cursor (Nat.lt_succ_self _)

-- The keyword is taken whatever it is, and what follows has to be there.
theorem keeps_definition (cursor : Nat) :
    Ends (p.definition depth) cursor (fun _ => p.Moves cursor)
      (p.Halts cursor (max (cursor + 1) p.tokens.size + 1)) := by
  simp only [definition, ends_bind, ends_advance, ends_pure]
  refine (keeps_prototype (cursor + 1)).imp ?_ fun _ _ h => h.mono (by omega) (by omega)
  rintro prototype middle ⟨hmiddle, hle⟩
  refine ((p.keepsAt depth).expression middle).imp ?_ fun _ _ h => h.mono (by omega) (by omega)
  rintro body stop ⟨hstop, hle'⟩
  exact ⟨by omega, hle'⟩

theorem keeps_unit (depth : Nat) (hcursor : cursor < p.tokens.size) :
    Ends (p.unit depth) cursor (fun _ => p.Moves cursor)
      (p.Halts cursor (p.tokens.size + 1)) := by
  simp only [unit, bareExpression, ends_bind, ends_check, ends_ite, ends_pure, decide_eq_true_eq]
  by_cases hkind : (p.tokenAt cursor).kind = .define
  · rw [if_pos hkind]
    exact (keeps_definition cursor).imp (fun _ _ h => h) fun _ _ h => h.mono (by omega) (by omega)
  · rw [if_neg hkind]
    exact ((p.keepsAt depth).expression cursor).imp (fun _ _ h => h) fun _ _ h =>
      h.mono (by omega) (by omega)

theorem keeps_units (depth bound : Nat) (hcursor : cursor ≤ p.tokens.size)
    (hbound : p.tokens.size - cursor ≤ bound) :
    match (p.units depth bound cursor).fault? with
    | none => (p.units depth bound cursor).cursor = p.tokens.size
    | some fault => p.Halts cursor (p.tokens.size + 1) fault (p.units depth bound cursor).cursor := by
  induction bound generalizing cursor with
  | zero =>
    have hend : p.tokens.size ≤ cursor := by omega
    rw [units_of_size_le hend]
    exact Nat.le_antisymm hcursor hend
  | succ bound ih =>
    by_cases hend : p.tokens.size ≤ cursor
    · rw [units_of_size_le hend]
      exact Nat.le_antisymm hcursor hend
    have hlt := Nat.lt_of_not_le hend
    have hkeeps := keeps_unit depth hlt
    cases hunit : p.unit depth cursor with
    | error fault stop =>
      rw [units_of_error hlt hunit]
      exact hkeeps.error hunit
    | ok definition next =>
      obtain ⟨hnext, hle⟩ := hkeeps.ok hunit
      have hrest := ih hle (by omega)
      rw [units_of_ok hlt hunit]
      simp only [Progress.prepend]
      split at hrest
      · exact hrest
      · exact hrest.mono (by omega) (Nat.le_refl _)

end Productions

section Depth

-- The run of this depth does not stop for it, and deeper ones come to the same.
def EndsBy {α : Type} (f : Nat → Run α) (depth cursor : Nat) : Prop :=
  ¬ TooDeep (f depth) cursor ∧ ∀ deeper, depth ≤ deeper → f deeper cursor = f depth cursor

theorem Fits.endsBy {α : Type} {f : Nat → Run α} {depth : Nat} (h : Fits (f depth) cursor)
    (hstep : ∀ depth, Within (f depth) (f (depth + 1))) : EndsBy f depth cursor := by
  refine ⟨h.not_tooDeep, fun deeper hle => ?_⟩
  exact ((within_of_le hstep hle cursor).resolve_right h.not_tooDeep).symm

variable {depth : Nat} (hdepth : 3 * (p.tokens.size - cursor) + 2 ≤ depth)

include hdepth

theorem fits_parens : Fits (p.parens depth) cursor := by
  by_cases hcursor : cursor < p.tokens.size
  · exact (p.ample depth).parens cursor hcursor (by omega)
  · obtain ⟨depth, rfl⟩ : ∃ shallower, depth = shallower + 1 := ⟨depth - 1, by omega⟩
    simp only [parens]
    exact .take_bind (by simp) fun hkind => absurd (lt_size_of_kind hkind (by decide)) hcursor

theorem fits_identifier : Fits (p.identifier depth) cursor := by
  by_cases hcursor : cursor < p.tokens.size
  · exact (p.ample depth).identifier cursor hcursor (by omega)
  · obtain ⟨depth, rfl⟩ : ∃ shallower, depth = shallower + 1 := ⟨depth - 1, by omega⟩
    simp only [identifier]
    exact .take_bind (by simp) fun hkind => absurd (lt_size_of_kind hkind (by decide)) hcursor

theorem fits_definition : Fits (p.definition depth) cursor := by
  simp only [definition]
  refine fits_advance.bind fun _ start hstart => fits_prototype.bind fun _ next hnext => ?_
  exact ((p.ample depth).expression next (by omega)).bind fun _ _ _ => fits_pure _

omit hdepth in
theorem within_definition (p : Parser) (depth : Nat) :
    Within (p.definition depth) (p.definition (depth + 1)) := by
  simp only [definition]
  refine .bind (.refl _) fun _ => .bind (.refl _) fun _ => ?_
  exact (p.depthStep depth).expression.bind fun _ => .refl _

end Depth

-- A fault blames the token at the cursor or the one before it, as its code tells,
-- and no loop has reported that it used up its rounds.
structure Blames (p : Parser) (cursor : Nat) (fault : SyntaxFault) (stop : Nat) : Prop where
  le : cursor ≤ stop
  looked : fault.cause.code ∈ ["P002", "P004"] → fault.token = p.tokenAt stop
  taken : fault.cause.code ∈ ["P001", "P003", "P005", "P006"] →
    cursor < stop ∧ fault.token = p.tokenAt (stop - 1)
  not_stalled : fault.cause ≠ (p.stallFault stop).cause

theorem taken_eq_zero_of_code (h : cause.code ∈ ["P002", "P004"]) : cause.taken = 0 := by
  cases cause <;> simp_all [Cause.code, Cause.taken]

theorem taken_eq_one_of_code (h : cause.code ∈ ["P001", "P003", "P005", "P006"]) :
    cause.taken = 1 := by
  cases cause <;> simp_all [Cause.code, Cause.taken]

theorem Halts.blames (h : p.Halts cursor limit fault stop) : p.Blames cursor fault stop := by
  obtain ⟨hle, -, htoken, hstalled⟩ := h
  refine ⟨by omega, fun hcode => ?_, fun hcode => ?_, hstalled⟩
  · rwa [taken_eq_zero_of_code hcode, Nat.sub_zero] at htoken
  · rw [taken_eq_one_of_code hcode] at hle htoken
    exact ⟨hle, htoken⟩

theorem Ends.blames {α : Type} {m : Run α} {good : α → Nat → Prop}
    (h : Ends m cursor good (p.Halts cursor limit)) : Ends m cursor good (p.Blames cursor) :=
  h.imp (fun _ _ h => h) fun _ _ h => h.blames

-- What each production does with the cursor, at any depth.
structure CursorKept (p : Parser) (depth cursor : Nat) (left : Node) (least : Int) : Prop where
  number : Ends p.number cursor (fun _ => p.Moves cursor) (p.Blames cursor)
  primary : Ends (p.primary depth) cursor (fun _ => p.Moves cursor) (p.Blames cursor)
  parens : Ends (p.parens depth) cursor (fun _ => p.Moves cursor) (p.Blames cursor)
  identifier : Ends (p.identifier depth) cursor (fun _ => p.Moves cursor) (p.Blames cursor)
  expression : Ends (p.expression depth) cursor (fun _ => p.Moves cursor) (p.Blames cursor)
  definition : Ends (p.definition depth) cursor (fun _ => p.Moves cursor) (p.Blames cursor)
  prototype : Ends p.prototype cursor
    (fun _ next => cursor < next ∧ next ≤ p.tokens.size + 1) (p.Blames cursor)
  binaryOp : Ends (p.binaryOp depth left least) cursor (fun _ => p.MovesOrStays cursor)
    (p.Blames cursor)

-- No production nests more than three times as deep as there are tokens left.
structure DepthBounded (p : Parser) (cursor : Nat) (left : Node) (least : Int) : Prop where
  primary : EndsBy p.primary (3 * (p.tokens.size - cursor) + 2) cursor
  parens : EndsBy p.parens (3 * (p.tokens.size - cursor) + 2) cursor
  identifier : EndsBy p.identifier (3 * (p.tokens.size - cursor) + 2) cursor
  expression : EndsBy p.expression (3 * (p.tokens.size - cursor) + 2) cursor
  definition : EndsBy p.definition (3 * (p.tokens.size - cursor) + 2) cursor
  binaryOp : EndsBy (fun depth => p.binaryOp depth left least)
    (3 * (p.tokens.size - cursor) + 2) cursor

theorem cursorKept (p : Parser) (depth cursor : Nat) (left : Node) (least : Int) :
    p.CursorKept depth cursor left least where
  number := (keeps_number cursor).blames
  primary := ((p.keepsAt depth).primary cursor).blames
  parens := ((p.keepsAt depth).parens cursor).blames
  identifier := ((p.keepsAt depth).identifier cursor).blames
  expression := ((p.keepsAt depth).expression cursor).blames
  definition := (keeps_definition cursor).blames
  prototype := (keeps_prototype cursor).blames
  binaryOp := ((p.keepsAt depth).binaryOp left least cursor).blames

theorem depthBounded (p : Parser) (cursor : Nat) (left : Node) (least : Int) :
    p.DepthBounded cursor left least where
  primary := Fits.endsBy ((p.ample _).primary cursor (by omega)) fun d => (p.depthStep d).primary
  parens := Fits.endsBy (fits_parens (Nat.le_refl _)) fun d => (p.depthStep d).parens
  identifier := Fits.endsBy (fits_identifier (Nat.le_refl _)) fun d => (p.depthStep d).identifier
  expression :=
    Fits.endsBy ((p.ample _).expression cursor (Nat.le_refl _)) fun d => (p.depthStep d).expression
  definition := Fits.endsBy (fits_definition (Nat.le_refl _)) (within_definition p)
  binaryOp := Fits.endsBy ((p.ample _).binaryOp cursor (by omega) left least) fun d =>
    (p.depthStep d).binaryOp left least

-- Whatever the tokens and the table are, each production ends from any cursor, with
-- any left operand and from any level on. It moves on but never past the last token,
-- apart from the token that closes a prototype, and parsing ends behind the last
-- token or at most one further on with a fault.
theorem productions_keep_cursor (p : Parser) (depth cursor : Nat) (left : Node) (least : Int) :
    p.CursorKept depth cursor left least ∧ p.DepthBounded cursor left least ∧
      (match (p.limited depth).fault? with
        | none => (p.limited depth).cursor = p.tokens.size
        | some fault => (p.limited depth).cursor ≤ p.tokens.size + 1 ∧
            p.Blames 0 fault (p.limited depth).cursor) ∧
      Ends p.program cursor (fun _ stop => stop = p.tokens.size) fun fault stop =>
        stop ≤ p.tokens.size + 1 ∧ p.Blames 0 fault stop := by
  have hparse : ∀ depth, match (p.limited depth).fault? with
      | none => (p.limited depth).cursor = p.tokens.size
      | some fault => (p.limited depth).cursor ≤ p.tokens.size + 1 ∧
          p.Blames 0 fault (p.limited depth).cursor := by
    intro depth
    have hunits := keeps_units depth p.tokens.size (Nat.zero_le _) (Nat.le_refl _)
    unfold limited
    split
    case h_1 hnone => rwa [hnone] at hunits
    case h_2 fault hfault =>
      rw [hfault] at hunits
      exact ⟨hunits.le_limit, hunits.blames⟩
  refine ⟨p.cursorKept depth cursor left least, p.depthBounded cursor left least, hparse depth, ?_⟩
  have hprogress : p.progress = p.limited depthLimit := rfl
  have hlimit := hparse depthLimit
  simp only [Ends, program, Progress.result, hprogress]
  cases hfault : (p.limited depthLimit).fault? with
  | none =>
    rw [hfault] at hlimit
    exact hlimit
  | some fault =>
    rw [hfault] at hlimit
    exact hlimit

end ExprLang.Parser
