import ExprLang.Proofs.Parser.Reading

-- What each production does, at every depth: it ends behind what it has derived,
-- or with a fault of the first token that cannot follow, or for its depth.

namespace ExprLang.Parser

open Grammar

variable {p : Parser}

def OperandAt (p : Parser) (cursor : Nat) (tree : Node) (stop : Nat) : Prop :=
  ∃ operand : Operand, operand.Listed p.precedence ∧ p.Spans cursor operand.tokens stop ∧
    tree = operand.tree p.precedence ∧ p.NotCalled operand.isName stop

-- What may be wrong with an operand is wrong with it whatever is open around it.
def OperandFails (p : Parser) (cursor : Nat) (fault : SyntaxFault) (stop : Nat) : Prop :=
  ∀ frames, p.FailsFrom (.operand frames) cursor fault stop

def ExpressionAt (p : Parser) (cursor : Nat) (tree : Node) (stop : Nat) : Prop :=
  ∃ expression : Expression, expression.Listed p.precedence ∧
    p.Spans cursor expression.tokens stop ∧ tree = expression.tree p.precedence ∧
    p.NotCalled expression.endsInName stop ∧ p.Below 0 stop

theorem OperandAt.lt {cursor stop : Nat} {tree : Node} (h : p.OperandAt cursor tree stop) :
    cursor < stop := by
  obtain ⟨operand, -, hspans, -⟩ := h
  obtain ⟨head, rest, htokens, -⟩ := operand.exists_tokens
  have := hspans.eq_add
  simp only [htokens, List.length_cons] at this
  omega

theorem ExpressionAt.lt {cursor stop : Nat} {tree : Node} (h : p.ExpressionAt cursor tree stop) :
    cursor < stop ∧ cursor < p.tokens.size := by
  obtain ⟨expression, -, hspans, -⟩ := h
  obtain ⟨head, rest, htokens, -⟩ := expression.exists_tokens
  have hstop := hspans.eq_add
  simp only [htokens, List.length_cons] at hstop
  rw [htokens] at hspans
  obtain ⟨hlt, -⟩ := Array.getElem?_eq_some_iff.mp hspans.1
  omega

section Chains

-- A chain of operands is derived, link by link.
theorem Chain.exists_links {cursor stop : Nat} {links : List Link}
    (h : p.Chain p.OperandAt cursor links stop) (hlinks : ∀ link ∈ links, 0 ≤ link.level)
    (before : Bool) (hbefore : p.NotCalled before cursor) :
    ∃ derived : Links, derived.Listed p.precedence ∧ p.Spans cursor derived.tokens stop ∧
      links = derived.chain p.precedence ∧ p.NotCalled (derived.endsInName before) stop := by
  induction h generalizing before with
  | nil => exact ⟨.nil, trivial, rfl, rfl, hbefore⟩
  | @cons cursor next stop level tree links hkind hlevel hoperand _ ih =>
    obtain ⟨operand, hlisted, hspans, rfl, hcalled⟩ := hoperand
    obtain ⟨derived, hderived, hrest, rfl, hstop⟩ :=
      ih (fun link hlink => hlinks link (by simp [hlink])) operand.isName hcalled
    have hle := hlinks _ List.mem_cons_self
    refine ⟨.cons (p.terminalAt cursor hkind) operand derived, ⟨⟨level, hlevel, hle⟩, hlisted,
      hderived⟩, ?_, ?_, hstop⟩
    · exact ⟨getElem?_of_kind hkind (by decide), spans_append.mpr ⟨next, hspans, hrest⟩⟩
    · simp [Links.chain, terminalAt, hlevel]

-- Behind the links of a chain the same brackets are open as before them.
theorem Chain.exists_walk {cursor stop : Nat} {links : List Link} {named : Bool}
    (h : p.Chain p.OperandAt cursor links stop) (hlinks : ∀ link ∈ links, 0 ≤ link.level)
    (hcalled : p.NotCalled named cursor) (frames : List Frame) :
    ∃ tokens named', p.Spans cursor tokens stop ∧
      (Position.complete named frames).walk p.precedence tokens =
        .ok (.complete named' frames) ∧ p.NotCalled named' stop := by
  obtain ⟨derived, hlisted, hspans, -, hstop⟩ := h.exists_links hlinks named hcalled
  exact ⟨derived.tokens, _, hspans,
    Position.walk_of_append (derived.walk hlisted named frames), hstop⟩

theorem failsFrom_of_breaks {named : Bool} {cursor stop : Nat} {fault : SyntaxFault}
    (frames : List Frame) (h : p.Breaks p.OperandFails 0 cursor fault stop) :
    p.FailsFrom (.complete named frames) cursor fault stop := by
  rcases h with ⟨hlevel, rfl, rfl⟩ | ⟨level, hkind, hlevel, hle, hfails⟩
  · have hkind : (p.tokenAt stop).kind = .binaryOperator := by
      by_contra hkind
      simp [levelAt, hkind] at hlevel
    rw [levelAt_of_kind hkind] at hlevel
    refine failsFrom_here ?_
    rw [getElem?_of_kind hkind (by decide)]
    refine Position.fault?_some.mpr ?_
    simp [Position.step, hkind, hlevel]
  · exact (hfails frames).step (getElem?_of_kind hkind (by decide))
      (step_operator named frames hkind hlevel hle)

-- A chain that fails does so behind what has been derived.
theorem failsFrom_of_climbFails {named : Bool} {cursor stop : Nat} {fault : SyntaxFault}
    (frames : List Frame) (hcalled : p.NotCalled named cursor)
    (h : p.ClimbFails p.OperandAt p.OperandFails 0 cursor fault stop) :
    p.FailsFrom (.complete named frames) cursor fault stop := by
  rcases h with hdeep | ⟨links, next, hchain, hlinks, hbreaks⟩
  · exact .inl hdeep
  · obtain ⟨tokens, named', hspans, hwalk, -⟩ := hchain.exists_walk hlinks hcalled frames
    exact (failsFrom_of_breaks frames hbreaks).walk hspans hwalk

end Chains

section Productions

variable {depth : Nat}
  (hexpression : ∀ shallower < depth, ∀ cursor,
    Ends (p.expression shallower) cursor (p.ExpressionAt cursor) (p.OperandFails cursor))

theorem operandFails_tooDeep (cursor : Nat) (token : Token) :
    p.OperandFails cursor ⟨.nestingTooDeep, token⟩ cursor := fun _ => .inl rfl

-- An operand and the chain behind it.
theorem ends_expression_of_primary (hoperand : ∀ shallower ≤ depth, ∀ cursor,
      Ends (p.primary shallower) cursor (p.OperandAt cursor) (p.OperandFails cursor))
    (cursor : Nat) :
    Ends (p.expression (depth + 1)) cursor (p.ExpressionAt cursor) (p.OperandFails cursor) := by
  simp only [expression, ends_bind]
  refine (hoperand depth (Nat.le_refl _) cursor).imp ?_ fun _ _ hfails => hfails
  rintro _ next ⟨first, hfirst, hspans, rfl, hcalled⟩
  have hclimb := ends_binaryOp depth (fun shallower hlt => hoperand shallower (Nat.le_of_lt hlt))
    (fun _ _ _ h => h.lt) (Int.le_refl 0) (first.tree p.precedence) next
  refine hclimb.imp ?_ ?_
  · rintro _ stop ⟨links, hchain, hlinks, hbelow, rfl⟩
    obtain ⟨derived, hlisted, hrest, rfl, hstop⟩ := hchain.exists_links hlinks _ hcalled
    exact ⟨.chain first derived, ⟨hfirst, hlisted⟩, spans_append.mpr ⟨next, hspans, hrest⟩, rfl,
      hstop, hbelow⟩
  · intro fault stop hfails frames
    have hwalk := Position.walk_of_append (first.walk hfirst frames)
    exact (failsFrom_of_climbFails frames hcalled hfails).walk hspans hwalk

-- What is wrong behind an expression that something is open around.
theorem failsFrom_behind {named : Bool} {frames : List Frame} {cursor : Nat} {cause : Cause}
    (hcalled : p.NotCalled named cursor) (hbelow : p.Below 0 cursor)
    (hbehind : Position.stepBehind frames (p.tokenAt cursor) = .error cause)
    (hend : (Position.complete named frames).atEnd = some cause) :
    p.FailsFrom (.complete named frames) cursor ⟨cause, p.tokenAt cursor⟩
      (cursor + cause.taken) :=
  failsFrom_of_step ((step_of_below hcalled hbelow).trans hbehind) hend

include hexpression in
theorem ends_parens {cursor : Nat} (hkind : (p.tokenAt cursor).kind = .parensOpen) :
    Ends (p.parens depth) cursor (p.OperandAt cursor) (p.OperandFails cursor) := by
  cases depth with
  | zero =>
    simp only [parens, ends_tooDeep]
    exact operandFails_tooDeep cursor _
  | succ depth =>
    have hopening := getElem?_of_kind hkind (by decide)
    simp only [parens, ends_bind, ends_take, if_pos hkind]
    refine (hexpression depth (Nat.lt_succ_self _) (cursor + 1)).imp ?_ ?_
    · rintro _ next ⟨inner, hlisted, hspans, rfl, hcalled, hbelow⟩
      by_cases hclose : (p.tokenAt next).kind = .parensClose
      · rw [if_pos hclose]
        refine ⟨.parens (p.terminalAt cursor hkind) inner (p.terminalAt next hclose), hlisted,
          ⟨hopening, spans_append.mpr ⟨next, hspans, ?_, rfl⟩⟩, rfl, notCalled_of_other⟩
        exact getElem?_of_kind hclose (by decide)
      · rw [if_neg hclose]
        intro frames
        have hwalk := Position.walk_of_append (inner.walk hlisted (.parens :: frames))
        refine FailsFrom.step hopening (step_parens frames hkind) (FailsFrom.walk hspans hwalk ?_)
        exact failsFrom_behind hcalled hbelow (by simp [Position.stepBehind, hclose]) rfl
    · intro fault stop hfails frames
      exact (hfails (.parens :: frames)).step hopening (step_parens frames hkind)

-- The arguments of a call that has some, without the parenthesis that closes it.
theorem ends_arguments (harguments : ∀ cursor,
      Ends (p.expression depth) cursor (p.ExpressionAt cursor) (p.OperandFails cursor))
    (bound cursor : Nat) (hbound : p.tokens.size - cursor < bound) :
    Ends (p.arguments (p.expression depth) bound) cursor
      (fun trees stop => ∃ arguments : Arguments, arguments.Listed p.precedence ∧
        p.Spans cursor arguments.tokens (stop + 1) ∧ trees = arguments.trees p.precedence)
      fun fault stop => ∀ frames, p.FailsFrom (.operand (.call :: frames)) cursor fault stop := by
  induction bound generalizing cursor with
  | zero => omega
  | succ bound ih =>
    simp only [arguments, ends_bind, ends_check, ends_ite, ends_pure, decide_eq_true_eq, ends_take]
    refine (harguments cursor).imp ?_ fun fault stop hfails frames => hfails (.call :: frames)
    intro tree next hat
    have hlt := hat.lt
    obtain ⟨argument, hlisted, hspans, rfl, hcalled, hbelow⟩ := hat
    have hwalk : ∀ frames, (Position.operand (.call :: frames)).walk p.precedence
        argument.tokens = .ok (.complete argument.endsInName (.call :: frames)) :=
      fun frames => Position.walk_of_append (argument.walk hlisted (.call :: frames))
    by_cases hclose : (p.tokenAt next).kind = .parensClose
    · rw [if_pos hclose]
      exact ⟨.last argument (p.terminalAt next hclose), hlisted, spans_append.mpr
        ⟨next, hspans, getElem?_of_kind hclose (by decide), rfl⟩, rfl⟩
    rw [if_neg hclose]
    by_cases hcomma : (p.tokenAt next).kind = .comma
    · have htoken := getElem?_of_kind hcomma (by decide)
      rw [if_pos hcomma]
      refine (ih (next + 1) (by omega)).imp ?_ ?_
      · rintro _ stop ⟨rest, hrest, hmore, rfl⟩
        exact ⟨.more argument (p.terminalAt next hcomma) rest, ⟨hlisted, hrest⟩,
          spans_append.mpr ⟨next, hspans, htoken, hmore⟩, rfl⟩
      · intro fault stop hfails frames
        exact ((hfails frames).step htoken (step_comma _ frames hcomma)).walk hspans (hwalk frames)
    · rw [if_neg hcomma]
      intro frames
      refine FailsFrom.walk hspans (hwalk frames) ?_
      exact failsFrom_behind hcalled hbelow (by simp [Position.stepBehind, hclose, hcomma]) rfl

include hexpression in
theorem ends_identifier {cursor : Nat} (hkind : (p.tokenAt cursor).kind = .identifier) :
    Ends (p.identifier depth) cursor (p.OperandAt cursor) (p.OperandFails cursor) := by
  cases depth with
  | zero =>
    simp only [identifier, ends_tooDeep]
    exact operandFails_tooDeep cursor _
  | succ depth =>
    have hname := getElem?_of_kind hkind (by decide)
    simp only [identifier, callArguments, ends_bind, ends_take, if_pos hkind, ends_check, ends_ite,
      ends_pure, ends_advance, ends_rounds, decide_eq_true_eq]
    by_cases hopen : (p.tokenAt (cursor + 1)).kind = .parensOpen
    · have hopening := getElem?_of_kind hopen (by decide)
      rw [if_pos hopen]
      by_cases hclose : (p.tokenAt (cursor + 1 + 1)).kind = .parensClose
      · rw [if_pos hclose]
        refine ⟨.emptyCall (p.terminalAt cursor hkind) (p.terminalAt _ hopen)
          (p.terminalAt _ hclose), trivial, ⟨hname, hopening, ?_, rfl⟩, rfl, notCalled_of_other⟩
        exact getElem?_of_kind hclose (by decide)
      · rw [if_neg hclose]
        have harguments := ends_arguments (hexpression depth (Nat.lt_succ_self _)) _
          (cursor + 1 + 1) (Nat.lt_succ_self _)
        refine harguments.imp ?_ ?_
        · rintro _ stop ⟨arguments, hlisted, hspans, rfl⟩
          exact ⟨.call (p.terminalAt cursor hkind) (p.terminalAt _ hopen) arguments, hlisted,
            ⟨hname, hopening, hspans⟩, rfl, notCalled_of_other⟩
        · intro fault stop hfails frames
          have hfirst : p.FailsFrom (.firstArgument frames) (cursor + 1 + 1) fault stop := by
            refine FailsFrom.congr ?_ ?_ (hfails frames)
            · intro token htoken
              obtain rfl := tokenAt_of_getElem? htoken
              simp [Position.step, hclose]
            · exact fun _ => rfl
          exact (hfirst.step hopening (step_call frames hopen)).step hname (step_name frames hkind)
    · rw [if_neg hopen]
      exact ⟨.name (p.terminalAt cursor hkind), trivial, ⟨hname, rfl⟩, rfl, fun _ => hopen⟩

include hexpression in
theorem ends_primary_of_expression (cursor : Nat) :
    Ends (p.primary (depth + 1)) cursor (p.OperandAt cursor) (p.OperandFails cursor) := by
  simp only [primary, ends_bind, ends_peek]
  split
  case h_1 hkind => exact ends_identifier hexpression hkind
  case h_2 hkind =>
    simp only [number, ends_bind, ends_take, if_pos hkind, ends_pure]
    exact ⟨.number (p.terminalAt cursor hkind), trivial,
      ⟨getElem?_of_kind hkind (by decide), rfl⟩, rfl, notCalled_of_other⟩
  case h_3 hkind => exact ends_parens hexpression hkind
  case h_4 hidentifier hnumber hparens =>
    intro frames
    refine failsFrom_of_step ?_ rfl
    simp only [Position.step, Position.stepOperand]

end Productions

-- At every depth an operand and an expression end as they should, for what is
-- inside an operand is shallower.
theorem ends_operand_and_expression (depth : Nat) :
    (∀ cursor, Ends (p.primary depth) cursor (p.OperandAt cursor) (p.OperandFails cursor)) ∧
      ∀ cursor,
        Ends (p.expression depth) cursor (p.ExpressionAt cursor) (p.OperandFails cursor) := by
  induction depth using Nat.strongRecOn with
  | ind depth ih =>
    cases depth with
    | zero =>
      simp only [primary, expression, ends_tooDeep]
      exact ⟨fun cursor => operandFails_tooDeep cursor _,
        fun cursor => operandFails_tooDeep cursor _⟩
    | succ depth =>
      constructor
      · exact ends_primary_of_expression fun shallower hlt =>
          (ih shallower (Nat.lt_succ_of_lt hlt)).2
      · exact ends_expression_of_primary fun shallower hle =>
          (ih shallower (Nat.lt_succ_of_le hle)).1

theorem ends_primary (depth cursor : Nat) :
    Ends (p.primary depth) cursor (p.OperandAt cursor) (p.OperandFails cursor) :=
  (ends_operand_and_expression depth).1 cursor

theorem ends_expression (depth cursor : Nat) :
    Ends (p.expression depth) cursor (p.ExpressionAt cursor) (p.OperandFails cursor) :=
  (ends_operand_and_expression depth).2 cursor

end ExprLang.Parser
