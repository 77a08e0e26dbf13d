import ExprLang.Proofs.Parser.Outcome
import ExprLang.Proofs.Tree.Numbers
import Mathlib.Logic.Basic

-- Parsers that have tokens of the same kinds and values before them, though not
-- at the same cursor, and tables that order the operators alike, do the same at
-- every depth. Their numbers need only look the same, in whichever way they are
-- looked at.

namespace ExprLang

namespace PrecedenceTable

-- How tightly the same operator binds in either table.
def Paired (table table' : PrecedenceTable) (level level' : Int) : Prop :=
  ∃ op, table.lookup op = some level ∧ table'.lookup op = some level'

-- The tables list the same operators and put them in the same order, with the
-- same ones below zero.
structure SameOrder (table table' : PrecedenceTable) : Prop where
  listed : ∀ op, table.lookup op = none ↔ table'.lookup op = none
  lt_iff : ∀ {level level' other other' : Int}, table.Paired table' level level' →
    table.Paired table' other other' → (level < other ↔ level' < other')
  neg_iff : ∀ {level level' : Int}, table.Paired table' level level' → (level < 0 ↔ level' < 0)

-- The levels of the same token, which may be no operator.
def Alike (table table' : PrecedenceTable) (level level' : Int) : Prop :=
  (level = noPrecedence ∧ level' = noPrecedence) ∨ table.Paired table' level level'

-- Levels that are not negative and that the same operators reach.
structure Matches (table table' : PrecedenceTable) (least least' : Int) : Prop where
  nonneg : 0 ≤ least
  nonneg' : 0 ≤ least'
  lt_iff : ∀ {level level' : Int}, table.Paired table' level level' →
    (level < least ↔ level' < least')

variable {table table' : PrecedenceTable} {level level' other other' least least' : Int}
  {seen : Double → Double} {symbol symbol' : Value}

theorem Paired.eq (h : table.Paired table level level') : level' = level := by
  obtain ⟨op, hlevel, hlevel'⟩ := h
  exact Option.some.inj (hlevel'.symm.trans hlevel)

theorem SameOrder.refl (table : PrecedenceTable) : table.SameOrder table where
  listed _ := Iff.rfl
  lt_iff h hother := by rw [h.eq, hother.eq]
  neg_iff h := by rw [h.eq]

-- A symbol is looked up as the text that it is, or else in vain.
theorem SameOrder.level? (h : table.SameOrder table')
    (hsymbol : symbol.mapNumber seen = symbol'.mapNumber seen) :
    (table.level? symbol = none ∧ table'.level? symbol' = none) ∨
      ∃ level level', table.level? symbol = some level ∧ table'.level? symbol' = some level' ∧
        table.Paired table' level level' := by
  have htext : symbol.text? = symbol'.text? := by
    rw [← symbol.text?_mapNumber, hsymbol, symbol'.text?_mapNumber]
  unfold PrecedenceTable.level?
  rw [← htext]
  cases symbol with
  | absent | number => exact .inl ⟨rfl, rfl⟩
  | text op =>
    cases hlevel : table.lookup op with
    | none => exact .inl ⟨hlevel, (h.listed op).mp hlevel⟩
    | some level =>
      cases hlevel' : table'.lookup op with
      | none => cases ((h.listed op).mpr hlevel').symm.trans hlevel
      | some level' => exact .inr ⟨level, level', hlevel, hlevel', op, hlevel, hlevel'⟩

theorem plain_eq_of_level? (h : table.level? symbol = some level)
    (hsymbol : symbol.mapNumber seen = symbol'.mapNumber seen) : symbol'.plain = symbol.plain := by
  cases symbol with
  | absent | number => cases h
  | text op => rw [← Value.eq_of_mapNumber_text hsymbol]

theorem SameOrder.matches_zero (h : table.SameOrder table') : table.Matches table' 0 0 :=
  ⟨Int.le_refl 0, Int.le_refl 0, h.neg_iff⟩

theorem Matches.lt_iff_of_alike (h : table.Matches table' least least')
    (hlevel : table.Alike table' level level') : level < least ↔ level' < least' := by
  rcases hlevel with ⟨rfl, rfl⟩ | hpaired
  · have := h.nonneg
    have := h.nonneg'
    simp only [noPrecedence]
    omega
  · exact h.lt_iff hpaired

-- What reaches a level that is not negative is an operator.
theorem Matches.paired (h : table.Matches table' least least')
    (hlevel : table.Alike table' level level') (hle : ¬ level < least) :
    table.Paired table' level level' := by
  refine hlevel.resolve_left fun ⟨hnone, _⟩ => hle ?_
  have := h.nonneg
  simp only [hnone, noPrecedence]
  omega

-- The same operators bind more tightly than the same one, and so they reach what
-- is one level above it. These levels need not be those of any operator.
theorem Matches.succ (horder : table.SameOrder table') (h : table.Matches table' least least')
    (hpaired : table.Paired table' level level') (hle : ¬ level < least) :
    table.Matches table' (level + 1) (level' + 1) := by
  have hle' : ¬ level' < least' := fun hlt => hle ((h.lt_iff hpaired).mpr hlt)
  have := h.nonneg
  have := h.nonneg'
  refine ⟨by omega, by omega, fun hother => ?_⟩
  have hlt := horder.lt_iff hpaired hother
  omega

-- Nothing that is no operator binds more tightly than one that reaches zero.
theorem Matches.tighter_iff (horder : table.SameOrder table') (h : table.Matches table' least least')
    (hpaired : table.Paired table' level level') (hle : ¬ level < least)
    (hother : table.Alike table' other other') : level < other ↔ level' < other' := by
  have hmore := (h.succ horder hpaired hle).lt_iff_of_alike hother
  omega

end PrecedenceTable

namespace Cause

def mapNumber (f : Double → Double) : Cause → Cause
  | undefinedOperator symbol => undefinedOperator (symbol.mapNumber f)
  | cause => cause

variable {f : Double → Double} {cause cause' : Cause}

theorem mapNumber_id (cause : Cause) : cause.mapNumber id = cause := by
  cases cause <;> simp [mapNumber, Value.mapNumber_id]

theorem detail_mapNumber (cause : Cause) :
    (cause.mapNumber f).detail = cause.detail.mapNumber f := by
  cases cause <;> rfl

theorem kind_mapNumber (cause : Cause) : (cause.mapNumber f).kind = cause.kind := by
  cases cause <;> rfl

theorem code_mapNumber (cause : Cause) : (cause.mapNumber f).code = cause.code := by
  cases cause <;> rfl

end Cause

namespace Parser

-- What the first parser has at a cursor, the second has so many tokens further on,
-- if numbers are looked at through `seen`.
structure Ahead (seen : Double → Double) (p p' : Parser) (offset : Nat) : Prop where
  size : p'.tokens.size = p.tokens.size + offset
  order : p.precedence.SameOrder p'.precedence
  kind : ∀ cursor, (p'.tokenAt (cursor + offset)).kind = (p.tokenAt cursor).kind
  value : ∀ cursor, (p'.tokenAt (cursor + offset)).value.mapNumber seen =
    (p.tokenAt cursor).value.mapNumber seen

-- Both tokens stand at the same place, as each parser counts.
def SamePlace (p p' : Parser) (offset : Nat) (token token' : Token) : Prop :=
  ∃ place, token = p.tokenAt place ∧ token' = p'.tokenAt (place + offset)

def SameFault (seen : Double → Double) (p p' : Parser) (offset : Nat)
    (fault fault' : SyntaxFault) : Prop :=
  fault'.cause.mapNumber seen = fault.cause.mapNumber seen ∧
    SamePlace p p' offset fault.token fault'.token

-- Both come to results that are alike or to the same fault, having taken the same
-- number of tokens.
def LockstepFrom {α : Type} (seen : Double → Double) (p p' : Parser) (offset : Nat)
    (alike : α → α → Prop) (m m' : Run α) (cursor : Nat) : Prop :=
  Ends m cursor
    (fun a next => ∃ a', m' (cursor + offset) = .ok a' (next + offset) ∧ alike a a')
    fun fault next => ∃ fault', m' (cursor + offset) = .error fault' (next + offset) ∧
      SameFault seen p p' offset fault fault'

def Lockstep {α : Type} (seen : Double → Double) (p p' : Parser) (offset : Nat)
    (alike : α → α → Prop) (m m' : Run α) : Prop :=
  ∀ cursor, LockstepFrom seen p p' offset alike m m' cursor

-- Trees and their parts are alike if they are the same with their numbers seen so.
abbrev SeenAlike {α : Type} (look : α → α) : α → α → Prop := InvImage Eq look

variable {α β : Type} {seen : Double → Double} {p p' : Parser} {offset cursor : Nat}
  {alike : α → α → Prop} {alike' : β → β → Prop} {m m' : Run α}

section Runs

theorem LockstepFrom.bind {k k' : α → Run β} (h : LockstepFrom seen p p' offset alike m m' cursor)
    (hk : ∀ a next a', m cursor = .ok a next → alike a a' →
      LockstepFrom seen p p' offset alike' (k a) (k' a') next) :
    LockstepFrom seen p p' offset alike' (m >>= k) (m' >>= k') cursor := by
  refine ends_bind.mpr (.of_cases (fun a next hm => ?_) fun fault next hm => ?_)
  · obtain ⟨a', hm', halike⟩ := h.ok hm
    rw [bind_of_ok hm']
    exact hk a next a' hm halike
  · obtain ⟨fault', hm', hfault⟩ := h.error hm
    exact ⟨fault', bind_of_error hm', hfault⟩

theorem Lockstep.bind {k k' : α → Run β} (h : Lockstep seen p p' offset alike m m')
    (hk : ∀ a a', alike a a' → Lockstep seen p p' offset alike' (k a) (k' a')) :
    Lockstep seen p p' offset alike' (m >>= k) (m' >>= k') :=
  fun cursor => (h cursor).bind fun a next a' _ halike => hk a a' halike next

-- What is the same for both may be used as the same.
theorem Lockstep.bind_eq {k k' : α → Run β} (h : Lockstep seen p p' offset Eq m m')
    (hk : ∀ a, Lockstep seen p p' offset alike' (k a) (k' a)) :
    Lockstep seen p p' offset alike' (m >>= k) (m' >>= k') :=
  h.bind fun a _ heq => heq ▸ hk a

theorem lockstep_pure {a a' : α} (h : alike a a') :
    Lockstep seen p p' offset alike (pure a) (pure a') := fun _ => ⟨a', rfl, h⟩

theorem Lockstep.ite_iff {c c' : Prop} [Decidable c] [Decidable c'] {n n' : Run α} (hc : c ↔ c')
    (h : c → Lockstep seen p p' offset alike m m')
    (h' : ¬ c → Lockstep seen p p' offset alike n n') :
    Lockstep seen p p' offset alike (if c then m else n) (if c' then m' else n') := by
  by_cases hcase : c
  · rw [if_pos hcase, if_pos (hc.mp hcase)]
    exact h hcase
  · rw [if_neg hcase, if_neg fun hcase' => hcase (hc.mpr hcase')]
    exact h' hcase

theorem Lockstep.ite {c : Prop} [Decidable c] {n n' : Run α}
    (h : Lockstep seen p p' offset alike m m') (h' : Lockstep seen p p' offset alike n n') :
    Lockstep seen p p' offset alike (if c then m else n) (if c then m' else n') :=
  .ite_iff Iff.rfl (fun _ => h) fun _ => h'

theorem lockstep_fail {cause cause' : Cause} {token token' : Token}
    (hcause : cause'.mapNumber seen = cause.mapNumber seen)
    (h : SamePlace p p' offset token token') :
    Lockstep seen p p' offset alike (fail cause token) (fail cause' token') :=
  fun _ => ⟨⟨cause', token'⟩, rfl, hcause, h⟩

theorem lockstep_peek : Lockstep seen p p' offset (SamePlace p p' offset) p.peek p'.peek :=
  fun cursor => ⟨_, rfl, cursor, rfl, rfl⟩

theorem lockstep_advance : Lockstep seen p p' offset (SamePlace p p' offset) p.advance p'.advance :=
  fun cursor => ⟨_, by rw [Nat.add_right_comm]; rfl, cursor, rfl, rfl⟩

theorem lockstep_tooDeep : Lockstep seen p p' offset alike p.tooDeep p'.tooDeep :=
  lockstep_peek.bind fun _ _ h => lockstep_fail rfl h

theorem lockstep_stalled : Lockstep seen p p' offset alike p.stalled p'.stalled :=
  fun cursor => ⟨_, rfl, rfl, cursor, rfl, rfl⟩

variable (hp : Ahead seen p p' offset)

include hp

theorem SamePlace.kind_eq {token token' : Token} (h : SamePlace p p' offset token token') :
    token'.kind = token.kind := by
  obtain ⟨place, rfl, rfl⟩ := h
  exact hp.kind place

theorem SamePlace.value_eq {token token' : Token} (h : SamePlace p p' offset token token') :
    token'.value.mapNumber seen = token.value.mapNumber seen := by
  obtain ⟨place, rfl, rfl⟩ := h
  exact hp.value place

theorem lockstep_check (kind : TokenKind) :
    Lockstep seen p p' offset Eq (p.check kind) (p'.check kind) := by
  refine lockstep_peek.bind fun token token' htoken => lockstep_pure ?_
  rw [htoken.kind_eq hp]

theorem lockstep_take (kind : TokenKind) (cause : Cause) :
    Lockstep seen p p' offset (SamePlace p p' offset) (p.take kind cause)
      (p'.take kind cause) := by
  refine lockstep_advance.bind fun token token' htoken => ?_
  rw [htoken.kind_eq hp]
  exact .ite (lockstep_pure htoken) (lockstep_fail rfl htoken)

theorem lockstep_rounds : Lockstep seen p p' offset Eq p.rounds p'.rounds := by
  intro cursor
  refine ends_rounds.mpr ⟨_, rfl, ?_⟩
  rw [hp.size, Nat.add_sub_add_right]

theorem lockstep_currentPrecedence :
    Lockstep seen p p' offset (p.precedence.Alike p'.precedence) p.currentPrecedence
      p'.currentPrecedence := by
  refine lockstep_peek.bind fun token token' htoken => ?_
  have hvalue := htoken.value_eq hp
  rw [htoken.kind_eq hp]
  refine .ite ?_ (lockstep_pure (.inl ⟨rfl, rfl⟩))
  rcases hp.order.level? hvalue.symm with
    ⟨hlevel, hlevel'⟩ | ⟨level, level', hlevel, hlevel', hpaired⟩
  · rw [hlevel, hlevel']
    exact lockstep_fail (congrArg Cause.undefinedOperator hvalue) htoken
  · rw [hlevel, hlevel']
    exact lockstep_pure (.inr hpaired)

end Runs

section Loops

variable (hp : Ahead seen p p' offset)

include hp

theorem lockstep_parameters (bound : Nat) :
    Lockstep seen p p' offset (SeenAlike (List.map (Value.mapNumber seen))) (p.parameters bound)
      (p'.parameters bound) := by
  induction bound with
  | zero => exact lockstep_stalled
  | succ bound ih =>
    simp only [parameters]
    refine (lockstep_check hp _).bind_eq fun begins => .ite ?_ (lockstep_pure rfl)
    refine lockstep_advance.bind fun name name' hname => ?_
    have hvalue := (hname.value_eq hp).symm
    refine (lockstep_check hp _).bind_eq fun closes => .ite (lockstep_pure ?_) ?_
    · exact congrArg (fun v => [v]) hvalue
    · refine (lockstep_take hp _ _).bind fun _ _ _ => ih.bind fun names names' hnames => ?_
      exact lockstep_pure (congrArg₂ List.cons hvalue hnames)

theorem lockstep_prototype :
    Lockstep seen p p' offset (SeenAlike (Prototype.mapNumbers seen)) p.prototype
      p'.prototype := by
  simp only [prototype]
  refine (lockstep_take hp _ _).bind fun name name' hname => ?_
  refine (lockstep_take hp _ _).bind fun _ _ _ => (lockstep_rounds hp).bind_eq fun bound => ?_
  refine (lockstep_parameters hp bound).bind fun names names' hnames => ?_
  refine lockstep_advance.bind fun _ _ _ => lockstep_pure ?_
  exact congrArg₂ Prototype.mk (hname.value_eq hp).symm hnames

theorem lockstep_number :
    Lockstep seen p p' offset (SeenAlike (Node.mapNumbers seen)) p.number p'.number := by
  simp only [number]
  refine (lockstep_take hp _ _).bind fun token token' htoken => lockstep_pure ?_
  exact congrArg Node.number (htoken.value_eq hp).symm

theorem lockstep_arguments {expression expression' : Run Node}
    (h : Lockstep seen p p' offset (SeenAlike (Node.mapNumbers seen)) expression expression')
    (bound : Nat) :
    Lockstep seen p p' offset (SeenAlike (Node.mapNumbersAll seen)) (p.arguments expression bound)
      (p'.arguments expression' bound) := by
  induction bound with
  | zero => exact lockstep_stalled
  | succ bound ih =>
    simp only [arguments]
    refine h.bind fun argument argument' hargument => ?_
    refine (lockstep_check hp _).bind_eq fun closes => .ite (lockstep_pure ?_) ?_
    · exact congrArg (fun n => [n]) hargument
    · refine (lockstep_take hp _ _).bind fun _ _ _ => ih.bind fun rest rest' hrest => ?_
      exact lockstep_pure (congrArg₂ List.cons hargument hrest)

theorem lockstep_callArguments {expression expression' : Run Node}
    (h : Lockstep seen p p' offset (SeenAlike (Node.mapNumbers seen)) expression expression') :
    Lockstep seen p p' offset (SeenAlike (Node.mapNumbersAll seen)) (p.callArguments expression)
      (p'.callArguments expression') := by
  simp only [callArguments]
  refine (lockstep_check hp _).bind_eq fun closes => .ite ?_ ?_
  · exact lockstep_advance.bind fun _ _ _ => lockstep_pure rfl
  · refine (lockstep_rounds hp).bind_eq fun bound => ?_
    refine (lockstep_arguments hp h bound).bind fun trees trees' htrees => ?_
    exact lockstep_advance.bind fun _ _ _ => lockstep_pure htrees

section Climb

open PrecedenceTable

variable {operand operand' : Run Node} {tighter tighter' : Node → Int → Run Node}
  (htighter : ∀ right right' {least least' : Int}, SeenAlike (Node.mapNumbers seen) right right' →
    p.precedence.Matches p'.precedence least least' →
    Lockstep seen p p' offset (SeenAlike (Node.mapNumbers seen)) (tighter right least)
      (tighter' right' least'))

include htighter

theorem lockstep_extendRight {least least' level level' : Int}
    (hleast : p.precedence.Matches p'.precedence least least')
    (hlevel : p.precedence.Paired p'.precedence level level') (hle : ¬ level < least)
    {right right' : Node} (hright : SeenAlike (Node.mapNumbers seen) right right') :
    Lockstep seen p p' offset (SeenAlike (Node.mapNumbers seen))
      (p.extendRight tighter level right) (p'.extendRight tighter' level' right') := by
  simp only [extendRight]
  refine (lockstep_currentPrecedence hp).bind fun next next' hnext => ?_
  refine .ite_iff (hleast.tighter_iff hp.order hlevel hle hnext) (fun _ => ?_) fun _ => ?_
  · exact htighter right right' hright (hleast.succ hp.order hlevel hle)
  · exact lockstep_pure hright

-- An operator that goes on with the chain of the first parser does so with that of
-- the second, and asks for levels of the next ones that match again. It has been
-- looked up, so it is a text and the same in both trees.
theorem lockstep_climb
    (h : Lockstep seen p p' offset (SeenAlike (Node.mapNumbers seen)) operand operand')
    {least least' : Int} (hleast : p.precedence.Matches p'.precedence least least') (bound : Nat)
    {left left' : Node} (hleft : SeenAlike (Node.mapNumbers seen) left left') :
    Lockstep seen p p' offset (SeenAlike (Node.mapNumbers seen))
      (p.climb operand tighter least bound left)
      (p'.climb operand' tighter' least' bound left') := by
  induction bound generalizing left left' with
  | zero => exact lockstep_stalled
  | succ bound ih =>
    simp only [climb]
    intro cursor
    refine (lockstep_currentPrecedence hp cursor).bind fun level next level' hrun hlevel => ?_
    obtain ⟨hlisted, rfl⟩ := levelAt_of_currentPrecedence hrun
    have hiff := hleast.lt_iff_of_alike hlevel
    by_cases hle : level < least
    · rw [if_pos hle, if_pos (hiff.mp hle)]
      exact lockstep_pure hleft next
    rw [if_neg hle, if_neg fun hle' => hle (hiff.mpr hle')]
    have hpaired := hleast.paired hlevel hle
    refine (lockstep_take hp _ _ next).bind fun op after op' htake hop => ?_
    obtain ⟨-, rfl, rfl⟩ := take_eq_ok_iff.mp htake
    have hpos : 0 ≤ level := Int.le_trans hleast.nonneg (Int.not_lt.mp hle)
    obtain ⟨-, hsymbol⟩ := (levelAt_eq_some_iff hpos).mp hlisted
    have hplain := plain_eq_of_level? hsymbol (hop.value_eq hp).symm
    refine h.bind (fun tree tree' htree => ?_) (next + 1)
    refine (lockstep_extendRight hp htighter hleast hpaired hle htree).bind
      fun right right' hright => ih ?_
    rw [hplain]
    exact congrArg₂ (Node.binary _) hleft hright

end Climb

end Loops

-- All productions of one depth keep step.
structure LockstepAt (seen : Double → Double) (p p' : Parser) (offset depth : Nat) : Prop where
  expression : Lockstep seen p p' offset (SeenAlike (Node.mapNumbers seen)) (p.expression depth)
    (p'.expression depth)
  primary : Lockstep seen p p' offset (SeenAlike (Node.mapNumbers seen)) (p.primary depth)
    (p'.primary depth)
  parens : Lockstep seen p p' offset (SeenAlike (Node.mapNumbers seen)) (p.parens depth)
    (p'.parens depth)
  identifier : Lockstep seen p p' offset (SeenAlike (Node.mapNumbers seen)) (p.identifier depth)
    (p'.identifier depth)
  binaryOp : ∀ left left' {least least' : Int}, SeenAlike (Node.mapNumbers seen) left left' →
    p.precedence.Matches p'.precedence least least' →
    Lockstep seen p p' offset (SeenAlike (Node.mapNumbers seen)) (p.binaryOp depth left least)
      (p'.binaryOp depth left' least')

theorem lockstepAt (hp : Ahead seen p p' offset) (depth : Nat) :
    LockstepAt seen p p' offset depth := by
  induction depth with
  | zero =>
    constructor
    all_goals intros
    all_goals exact lockstep_tooDeep
  | succ depth ih =>
    constructor
    · simp only [expression]
      exact ih.primary.bind fun first first' hfirst =>
        ih.binaryOp first first' hfirst hp.order.matches_zero
    · simp only [primary]
      refine lockstep_peek.bind fun token token' htoken => ?_
      have hkind := htoken.kind_eq hp
      obtain ⟨kind, lexeme, value, location?⟩ := token
      obtain ⟨kind', lexeme', value', location'?⟩ := token'
      obtain rfl : kind' = kind := hkind
      cases kind'
      case identifier => exact ih.identifier
      case number => exact lockstep_number hp
      case parensOpen => exact ih.parens
      all_goals exact lockstep_fail rfl htoken
    · simp only [parens]
      refine (lockstep_take hp _ _).bind fun _ _ _ => ?_
      refine ih.expression.bind fun inner inner' hinner => ?_
      exact (lockstep_take hp _ _).bind fun _ _ _ => lockstep_pure hinner
    · simp only [identifier]
      refine (lockstep_take hp _ _).bind fun name name' hname => ?_
      have hvalue := (hname.value_eq hp).symm
      refine (lockstep_check hp _).bind_eq fun opens => .ite ?_ (lockstep_pure ?_)
      · refine lockstep_advance.bind fun _ _ _ => ?_
        refine (lockstep_callArguments hp ih.expression).bind fun trees trees' htrees => ?_
        exact lockstep_pure (congrArg₂ Node.call hvalue htrees)
      · exact congrArg Node.var hvalue
    · intro left left' least least' hleft hleast
      simp only [binaryOp]
      refine (lockstep_rounds hp).bind_eq fun bound => ?_
      exact lockstep_climb hp ih.binaryOp ih.primary hleast bound hleft

section Units

variable (hp : Ahead seen p p' offset)

include hp

theorem lockstep_unit (depth : Nat) :
    Lockstep seen p p' offset (SeenAlike (Definition.mapNumbers seen)) (p.unit depth)
      (p'.unit depth) := by
  have hexpression := (lockstepAt hp depth).expression
  simp only [unit, definition, bareExpression]
  refine (lockstep_check hp _).bind_eq fun defines => .ite ?_ ?_
  · refine lockstep_advance.bind fun _ _ _ => ?_
    refine (lockstep_prototype hp).bind fun prototype prototype' hprototype => ?_
    refine hexpression.bind fun body body' hbody => lockstep_pure ?_
    exact congrArg₂ Definition.mk hprototype hbody
  · refine hexpression.bind fun body body' hbody => lockstep_pure ?_
    exact congrArg (Definition.mk (Prototype.anonymous.mapNumbers seen)) hbody

-- Units come to the same definitions and then to the same fault, or to none.
theorem lockstep_units (depth bound cursor : Nat) :
    (p'.units depth bound (cursor + offset)).definitions.map (Definition.mapNumbers seen) =
        (p.units depth bound cursor).definitions.map (Definition.mapNumbers seen) ∧
      (p'.units depth bound (cursor + offset)).cursor =
        (p.units depth bound cursor).cursor + offset ∧
      Option.Rel (SameFault seen p p' offset) (p.units depth bound cursor).fault?
        (p'.units depth bound (cursor + offset)).fault? := by
  induction bound generalizing cursor with
  | zero =>
    simp only [units, hp.size, Nat.add_le_add_iff_right, true_and]
    split
    · exact .none
    · exact .some ⟨rfl, cursor, rfl, rfl⟩
  | succ bound ih =>
    by_cases hdone : p.tokens.size ≤ cursor
    · have hdone' : p'.tokens.size ≤ cursor + offset := hp.size ▸ Nat.add_le_add_right hdone offset
      rw [units_of_size_le hdone, units_of_size_le hdone']
      exact ⟨rfl, rfl, .none⟩
    have hlt := Nat.lt_of_not_le hdone
    have hlt' : cursor + offset < p'.tokens.size := hp.size ▸ Nat.add_lt_add_right hlt offset
    have hunit := lockstep_unit hp depth cursor
    cases hrun : p.unit depth cursor with
    | error fault next =>
      obtain ⟨fault', hrun', hfault⟩ := hunit.error hrun
      rw [units_of_error hlt hrun, units_of_error hlt' hrun']
      exact ⟨rfl, rfl, .some hfault⟩
    | ok definition next =>
      obtain ⟨definition', hrun', hdefinition⟩ := hunit.ok hrun
      obtain ⟨hdefinitions, hrest⟩ := ih next
      rw [units_of_ok hlt hrun, units_of_ok hlt' hrun']
      exact ⟨congrArg₂ List.cons hdefinition.symm hdefinitions, hrest⟩

end Units

-- The results are the same if the tokens are, in all that there is to them.
theorem Ahead.result_units_eq (hp : Ahead id p p' offset)
    (htoken : ∀ cursor, p'.tokenAt (cursor + offset) = p.tokenAt cursor)
    (depth bound cursor : Nat) :
    (p'.units depth bound (cursor + offset)).result = (p.units depth bound cursor).result := by
  obtain ⟨hdefinitions, -, hfault⟩ := lockstep_units hp depth bound cursor
  rw [show Definition.mapNumbers id = id from funext Definition.mapNumbers_id, List.map_id,
    List.map_id] at hdefinitions
  have heq : (p'.units depth bound (cursor + offset)).fault? =
      (p.units depth bound cursor).fault? := by
    generalize (p'.units depth bound (cursor + offset)).fault? = fault'? at hfault ⊢
    generalize (p.units depth bound cursor).fault? = fault? at hfault ⊢
    cases hfault with
    | none => rfl
    | @some fault fault' hsame =>
      obtain ⟨cause, token⟩ := fault
      obtain ⟨cause', token'⟩ := fault'
      obtain ⟨hcause, place, hplace, hplace'⟩ := hsame
      obtain rfl : cause' = cause := by simpa only [Cause.mapNumber_id] using hcause
      rw [show token' = token from hplace'.trans ((htoken place).trans hplace.symm)]
  rw [Progress.result, Progress.result, heq, hdefinitions]

end Parser

end ExprLang
