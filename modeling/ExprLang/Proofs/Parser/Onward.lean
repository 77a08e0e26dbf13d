import ExprLang.Proofs.Parser.Program

-- A parser that has more tokens behind, none of which goes on with what comes
-- before, takes the tokens up to there as if they were all.

namespace ExprLang.Parser

-- The second parser has the tokens of the first and then one that goes on with
-- neither a chain of operators nor a name.
structure Extends (p p' : Parser) : Prop where
  size : p.tokens.size ≤ p'.tokens.size
  precedence : p'.precedence = p.precedence
  token : ∀ cursor < p.tokens.size, p'.tokenAt cursor = p.tokenAt cursor
  noOperator : (p'.tokenAt p.tokens.size).kind ≠ .binaryOperator
  uncalled : ∀ cursor, cursor + 1 = p.tokens.size → (p.tokenAt cursor).kind = .identifier →
    (p'.tokenAt p.tokens.size).kind ≠ .parensOpen

-- What the first run gives, the second gives as well, if it ends before the limit.
def Agrees {α : Type} (limit : Nat) (m m' : Run α) (cursor : Nat) : Prop :=
  Ends m cursor (fun a next => cursor ≤ next ∧ (next < limit → m' cursor = .ok a next))
    fun _ _ => True

variable {α β : Type} {p p' : Parser} {limit cursor : Nat} {m m' : Run α}

section Runs

theorem Agrees.bind {k k' : α → Run β} (h : Agrees limit m m' cursor)
    (hk : ∀ a next, cursor ≤ next → Agrees limit (k a) (k' a) next) :
    Agrees limit (m >>= k) (m' >>= k') cursor := by
  refine ends_bind.mpr (Ends.imp h ?_ fun _ _ _ => trivial)
  rintro a next ⟨hnext, hm'⟩
  refine (hk a next hnext).imp ?_ fun _ _ _ => trivial
  rintro b last ⟨hlast, hk'⟩
  refine ⟨Nat.le_trans hnext hlast, fun hlimit => ?_⟩
  rw [bind_of_ok (hm' (Nat.lt_of_le_of_lt hlast hlimit))]
  exact hk' hlimit

theorem Agrees.mono {lower : Nat} (h : Agrees limit m m' cursor) (hle : lower ≤ limit) :
    Agrees lower m m' cursor := by
  refine Ends.imp h ?_ fun _ _ _ => trivial
  exact fun a next ⟨hnext, hm'⟩ => ⟨hnext, fun hlower => hm' (Nat.lt_of_lt_of_le hlower hle)⟩

theorem agrees_pure (a : α) : Agrees limit (pure a) (pure a) cursor :=
  ⟨Nat.le_refl _, fun _ => rfl⟩

theorem Agrees.ite {c : Prop} [Decidable c] {n n' : Run α} (h : Agrees limit m m' cursor)
    (h' : Agrees limit n n' cursor) :
    Agrees limit (if c then m else n) (if c then m' else n') cursor := by
  split
  · exact h
  · exact h'

theorem agrees_fail {cause : Cause} {token : Token} : Agrees limit (fail cause token) m' cursor :=
  trivial

theorem agrees_tooDeep : Agrees limit p.tooDeep m' cursor := trivial

theorem agrees_stalled : Agrees limit p.stalled m' cursor := trivial

theorem Agrees.rounds_bind {k k' : Nat → Run β}
    (h : Agrees limit (k (p.tokens.size - cursor + 1)) (k' (p'.tokens.size - cursor + 1)) cursor) :
    Agrees limit (p.rounds >>= k) (p'.rounds >>= k') cursor := h

theorem agrees_check {kind : TokenKind}
    (h : cursor < limit → ((p'.tokenAt cursor).kind = kind ↔ (p.tokenAt cursor).kind = kind)) :
    Agrees limit (p.check kind) (p'.check kind) cursor := by
  refine ends_check.mpr ⟨Nat.le_refl _, fun hlimit => ?_⟩
  show EStateM.Result.ok (decide ((p'.tokenAt cursor).kind = kind)) cursor = _
  rw [decide_eq_decide.mpr (h hlimit)]

variable (hp : Extends p p')

include hp

theorem agrees_check_before (kind : TokenKind) :
    Agrees p.tokens.size (p.check kind) (p'.check kind) cursor :=
  agrees_check fun hlt => by rw [hp.token cursor hlt]

theorem agrees_peek (hcursor : cursor < p.tokens.size) :
    Agrees limit p.peek p'.peek cursor := by
  refine ends_peek.mpr ⟨Nat.le_refl _, fun _ => ?_⟩
  rw [← hp.token cursor hcursor]
  rfl

theorem agrees_advance : Agrees (p.tokens.size + 1) p.advance p'.advance cursor := by
  refine ends_advance.mpr ⟨Nat.le_succ _, fun hlimit => ?_⟩
  rw [← hp.token cursor (Nat.lt_of_succ_lt_succ hlimit)]
  rfl

-- A token that is taken is one of the first parser.
theorem Agrees.take_bind {kind : TokenKind} {cause : Cause} {k k' : Token → Run β}
    (hne : kind ≠ .endOfInput)
    (hk : (p.tokenAt cursor).kind = kind →
      Agrees limit (k (p.tokenAt cursor)) (k' (p.tokenAt cursor)) (cursor + 1)) :
    Agrees limit (p.take kind cause >>= k) (p'.take kind cause >>= k') cursor := by
  refine ends_bind.mpr (ends_take.mpr ?_)
  by_cases hkind : (p.tokenAt cursor).kind = kind
  · rw [if_pos hkind]
    have htoken := hp.token cursor (lt_size_of_kind hkind hne)
    have htake : p'.take kind cause cursor = .ok (p.tokenAt cursor) (cursor + 1) :=
      Ends.eq_ok (ends_take.mpr (by simp [htoken, hkind]))
    refine (hk hkind).imp ?_ fun _ _ _ => trivial
    rintro b last ⟨hlast, hk'⟩
    refine ⟨Nat.le_of_succ_le hlast, fun hlimit => ?_⟩
    rw [bind_of_ok htake]
    exact hk' hlimit
  · rw [if_neg hkind]
    trivial

-- A name is called by both or by neither.
theorem Extends.parensOpen_iff (hcursor : cursor + 1 ≤ p.tokens.size)
    (hname : (p.tokenAt cursor).kind = .identifier) :
    (p'.tokenAt (cursor + 1)).kind = .parensOpen ↔ (p.tokenAt (cursor + 1)).kind = .parensOpen := by
  rcases Nat.lt_or_eq_of_le hcursor with hlt | heq
  · rw [hp.token _ hlt]
  · have huncalled := hp.uncalled cursor heq hname
    simp [heq, huncalled, kind_of_size_le]

-- Behind its tokens the first parser finds no operator, and nor does the second there.
theorem Extends.levelAt_eq (hcursor : cursor ≤ p.tokens.size) :
    p'.levelAt cursor = p.levelAt cursor := by
  rcases Nat.lt_or_eq_of_le hcursor with hlt | rfl
  · rw [levelAt, levelAt, hp.token cursor hlt, hp.precedence]
  · have hend : (p.tokenAt p.tokens.size).kind = .endOfInput := kind_of_size_le (Nat.le_refl _)
    rw [levelAt, levelAt, if_neg hp.noOperator, if_neg (by simp [hend])]

theorem agrees_currentPrecedence :
    Agrees (p.tokens.size + 1) p.currentPrecedence p'.currentPrecedence cursor := by
  refine ends_currentPrecedence.mpr ?_
  cases hlevel : p.levelAt cursor with
  | none => trivial
  | some level =>
    refine ⟨Nat.le_refl _, fun hlimit => Ends.eq_ok (ends_currentPrecedence.mpr ?_)⟩
    rw [hp.levelAt_eq (Nat.le_of_lt_succ hlimit), hlevel]
    exact ⟨rfl, rfl⟩

end Runs

-- The token behind a run is taken unseen, whatever it is.
theorem Agrees.bind_advance {f : α → β} (h : Agrees limit m m' cursor) :
    Agrees (limit + 1) (m >>= fun a => p.advance >>= fun _ => pure (f a))
      (m' >>= fun a => p'.advance >>= fun _ => pure (f a)) cursor := by
  refine ends_bind.mpr (Ends.imp h ?_ fun _ _ _ => trivial)
  rintro a next ⟨hnext, hm'⟩
  refine ⟨Nat.le_succ_of_le hnext, fun hlimit => ?_⟩
  rw [bind_of_ok (hm' (Nat.lt_of_succ_lt_succ hlimit))]
  rfl

section Loops

variable (hp : Extends p p')

include hp

theorem agrees_parameters {bound bound' : Nat} (hbound : bound ≤ bound') :
    Agrees p.tokens.size (p.parameters bound) (p'.parameters bound') cursor := by
  induction bound generalizing bound' cursor with
  | zero => exact agrees_stalled
  | succ bound ih =>
    obtain ⟨bound', rfl⟩ := Nat.exists_eq_add_one_of_ne_zero (Nat.ne_zero_of_lt hbound)
    simp only [parameters]
    refine (agrees_check_before hp _).bind fun begins _ _ => .ite ?_ (agrees_pure _)
    refine ((agrees_advance hp).mono (Nat.le_succ _)).bind fun name _ _ => ?_
    refine (agrees_check_before hp _).bind fun closes _ _ => .ite (agrees_pure _) ?_
    refine .take_bind hp (by decide) fun _ => ?_
    exact (ih (Nat.le_of_succ_le_succ hbound)).bind fun _ _ _ => agrees_pure _

theorem agrees_prototype :
    Agrees (p.tokens.size + 1) p.prototype p'.prototype cursor := by
  simp only [prototype]
  refine .take_bind hp (by decide) fun _ => .take_bind hp (by decide) fun _ => .rounds_bind ?_
  have hsize := hp.size
  exact (agrees_parameters hp (by omega)).bind_advance

theorem agrees_number : Agrees (p.tokens.size + 1) p.number p'.number cursor := by
  simp only [number]
  exact .take_bind hp (by decide) fun _ => agrees_pure _

theorem agrees_arguments {expression expression' : Run Node} {bound bound' : Nat}
    (hbound : bound ≤ bound')
    (h : ∀ cursor, Agrees (p.tokens.size + 1) expression expression' cursor) :
    Agrees p.tokens.size (p.arguments expression bound) (p'.arguments expression' bound')
      cursor := by
  induction bound generalizing bound' cursor with
  | zero => exact agrees_stalled
  | succ bound ih =>
    obtain ⟨bound', rfl⟩ := Nat.exists_eq_add_one_of_ne_zero (Nat.ne_zero_of_lt hbound)
    simp only [arguments]
    refine ((h cursor).mono (Nat.le_succ _)).bind fun argument _ _ => ?_
    refine (agrees_check_before hp _).bind fun closes _ _ => .ite (agrees_pure _) ?_
    refine .take_bind hp (by decide) fun _ => ?_
    exact (ih (Nat.le_of_succ_le_succ hbound)).bind fun _ _ _ => agrees_pure _

omit hp in
-- Both branches end with the token that closes the call, so it may be taken behind them.
theorem callArguments_eq (expression : Run Node) :
    p.callArguments expression =
      (p.check .parensClose >>= fun closes =>
          if closes then pure [] else p.rounds >>= p.arguments expression) >>= fun trees =>
        p.advance >>= fun _ => pure trees := by
  rw [callArguments, bind_assoc]
  refine congrArg _ (funext fun closes => ?_)
  cases closes
  · exact (bind_assoc _ _ _).symm
  · rfl

theorem agrees_callArguments {expression expression' : Run Node}
    (h : ∀ cursor, Agrees (p.tokens.size + 1) expression expression' cursor) :
    Agrees (p.tokens.size + 1) (p.callArguments expression) (p'.callArguments expression')
      cursor := by
  rw [callArguments_eq, callArguments_eq]
  refine .bind_advance (f := id) ((agrees_check_before hp _).bind fun closes _ _ => ?_)
  refine .ite (agrees_pure _) (.rounds_bind ?_)
  have hsize := hp.size
  exact agrees_arguments hp (by omega) h

theorem agrees_climb {operand operand' : Run Node} {tighter tighter' : Node → Int → Run Node}
    (h : ∀ cursor, Agrees (p.tokens.size + 1) operand operand' cursor)
    (htighter : ∀ right level cursor,
      Agrees (p.tokens.size + 1) (tighter right level) (tighter' right level) cursor)
    (least : Int) {bound bound' : Nat} (hbound : bound ≤ bound') (left : Node) :
    Agrees (p.tokens.size + 1) (p.climb operand tighter least bound left)
      (p'.climb operand' tighter' least bound' left) cursor := by
  induction bound generalizing bound' cursor left with
  | zero => exact agrees_stalled
  | succ bound ih =>
    obtain ⟨bound', rfl⟩ := Nat.exists_eq_add_one_of_ne_zero (Nat.ne_zero_of_lt hbound)
    simp only [climb, extendRight]
    refine (agrees_currentPrecedence hp).bind fun level _ _ => .ite (agrees_pure _) ?_
    refine .take_bind hp (by decide) fun _ => (h _).bind fun right _ _ => .bind ?_ fun _ _ _ => ?_
    · refine (agrees_currentPrecedence hp).bind fun next _ _ => ?_
      exact .ite (htighter _ _ _) (agrees_pure _)
    · exact ih (Nat.le_of_succ_le_succ hbound) _

end Loops

-- All productions of one depth agree, wherever they begin.
structure AgreesAt (p p' : Parser) (depth : Nat) : Prop where
  expression : ∀ cursor,
    Agrees (p.tokens.size + 1) (p.expression depth) (p'.expression depth) cursor
  primary : ∀ cursor, Agrees (p.tokens.size + 1) (p.primary depth) (p'.primary depth) cursor
  parens : ∀ cursor, Agrees (p.tokens.size + 1) (p.parens depth) (p'.parens depth) cursor
  identifier : ∀ cursor,
    Agrees (p.tokens.size + 1) (p.identifier depth) (p'.identifier depth) cursor
  binaryOp : ∀ left least cursor,
    Agrees (p.tokens.size + 1) (p.binaryOp depth left least) (p'.binaryOp depth left least) cursor

theorem agreesAt (hp : Extends p p') (depth : Nat) : AgreesAt p p' depth := by
  have hsize := hp.size
  induction depth with
  | zero =>
    constructor
    all_goals intros
    all_goals exact agrees_tooDeep
  | succ depth ih =>
    constructor
    · intro cursor
      simp only [expression]
      exact (ih.primary cursor).bind fun first next _ => ih.binaryOp first 0 next
    · intro cursor
      simp only [primary]
      by_cases hcursor : cursor < p.tokens.size
      · refine (agrees_peek hp hcursor).bind fun token next _ => ?_
        obtain ⟨kind, lexeme, value, location?⟩ := token
        cases kind
        case identifier => exact ih.identifier next
        case number => exact agrees_number hp
        case parensOpen => exact ih.parens next
        all_goals exact agrees_fail
      · refine ends_bind.mpr (ends_peek.mpr ?_)
        rw [p.tokenAt_of_size_le (Nat.le_of_not_lt hcursor)]
        trivial
    · intro cursor
      simp only [parens]
      refine .take_bind hp (by decide) fun _ => (ih.expression _).bind fun inner _ _ => ?_
      exact .take_bind hp (by decide) fun _ => agrees_pure _
    · intro cursor
      simp only [identifier]
      refine .take_bind hp (by decide) fun hname => ?_
      refine .bind (agrees_check fun hlimit => ?_) fun opens _ _ => .ite ?_ (agrees_pure _)
      · exact hp.parensOpen_iff (Nat.le_of_lt_succ hlimit) hname
      · refine (agrees_advance hp).bind fun _ _ _ => ?_
        exact (agrees_callArguments hp ih.expression).bind fun _ _ _ => agrees_pure _
    · intro left least cursor
      simp only [binaryOp]
      exact .rounds_bind (agrees_climb hp ih.primary ih.binaryOp least (by omega) left)

section Units

-- Bounds that are large enough are all the same.
theorem units_congr (depth : Nat) {bound bound' : Nat} (hcursor : cursor ≤ p.tokens.size)
    (hbound : p.tokens.size - cursor ≤ bound) (hbound' : p.tokens.size - cursor ≤ bound') :
    p.units depth bound cursor = p.units depth bound' cursor := by
  induction bound generalizing bound' cursor with
  | zero =>
    have hend : p.tokens.size ≤ cursor := by omega
    rw [units_of_size_le hend, units_of_size_le hend]
  | succ bound ih =>
    by_cases hend : p.tokens.size ≤ cursor
    · rw [units_of_size_le hend, units_of_size_le hend]
    have hlt := Nat.lt_of_not_le hend
    obtain ⟨bound', rfl⟩ : ∃ lower, bound' = lower + 1 := ⟨bound' - 1, by omega⟩
    cases hrun : p.unit depth cursor with
    | error fault next => rw [units_of_error hlt hrun, units_of_error hlt hrun]
    | ok definition next =>
      have hphrase := (ends_unit depth hlt).ok hrun
      have hnext := hphrase.lt
      have hrest : p.units depth bound next = p.units depth bound' next :=
        ih (hphrase.le_size hcursor) (by omega) (by omega)
      rw [units_of_ok hlt hrun, units_of_ok hlt hrun, hrest]

variable (hp : Extends p p')

include hp

theorem agrees_unit (depth : Nat) (hcursor : cursor < p.tokens.size) :
    Agrees (p.tokens.size + 1) (p.unit depth) (p'.unit depth) cursor := by
  have hexpression := (agreesAt hp depth).expression
  simp only [unit, definition, bareExpression]
  refine .bind (agrees_check fun _ => by rw [hp.token cursor hcursor]) fun defines _ _ => ?_
  refine .ite ?_ ((hexpression _).bind fun body _ _ => agrees_pure _)
  refine (agrees_advance hp).bind fun _ _ _ => (agrees_prototype hp).bind fun prototype _ _ => ?_
  exact (hexpression _).bind fun body _ _ => agrees_pure _

-- The units of the first parser come first, if there is no fault among them.
theorem Extends.units_eq (depth bound bound' rest : Nat) (hcursor : cursor ≤ p.tokens.size)
    (hbound : p.tokens.size - cursor ≤ bound) (hbound' : p'.tokens.size - cursor ≤ bound')
    (hrest : p'.tokens.size - p.tokens.size ≤ rest)
    (hfault : (p.units depth bound cursor).fault? = none) :
    p'.units depth bound' cursor =
      (p'.units depth rest p.tokens.size).prepend (p.units depth bound cursor).definitions := by
  have hsize := hp.size
  induction bound generalizing bound' cursor with
  | zero =>
    obtain rfl : cursor = p.tokens.size := by omega
    rw [units_of_size_le (Nat.le_refl _), units_congr depth hsize hbound' hrest]
    rfl
  | succ bound ih =>
    by_cases hend : p.tokens.size ≤ cursor
    · obtain rfl := Nat.le_antisymm hcursor hend
      rw [units_of_size_le (Nat.le_refl _), units_congr depth hsize hbound' hrest]
      rfl
    have hlt := Nat.lt_of_not_le hend
    obtain ⟨bound', rfl⟩ : ∃ lower, bound' = lower + 1 := ⟨bound' - 1, by omega⟩
    cases hrun : p.unit depth cursor with
    | error fault next => simp [units_of_error hlt hrun] at hfault
    | ok definition next =>
      have hphrase := (ends_unit depth hlt).ok hrun
      have hnext := hphrase.lt
      have hle := hphrase.le_size hcursor
      have hrun' := ((agrees_unit hp depth hlt).ok hrun).2 (Nat.lt_succ_of_le hle)
      rw [units_of_ok hlt hrun] at hfault ⊢
      rw [units_of_ok (Nat.lt_of_lt_of_le hlt hsize) hrun',
        ih bound' hle (by omega) (by omega) hfault, Progress.prepend_prepend]
      rfl

end Units

end ExprLang.Parser
