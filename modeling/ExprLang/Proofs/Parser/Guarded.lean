import ExprLang.Proofs.Parser.Ample
import ExprLang.Proofs.Parser.Program

-- Productions look again at the token that has led to them, and loops count their
-- rounds. Here each of these guards may do anything at all when it fires, and
-- still the units are the same: none of them ever fires.

namespace ExprLang.Parser

-- What is to be done at the places that are guarded.
structure Guards where
  -- with a token that a production takes first and that cannot begin it
  notNumber : Token → Run Token
  notIdentifier : Token → Run Token
  notOpening : Token → Run Token
  -- with a token that a chain takes and that is no operator
  notOperator : Token → Run Token
  -- where a chain is to take whatever binds at least as tightly as a negative level
  negativeLevel : (depth : Nat) → Node → Int → Run Node
  -- where a loop has used up its rounds
  roundless : {α : Type} → Run α
  -- where a unit has taken no token
  unmoved : (cursor : Nat) → Progress

-- What the parser does there. It climbs from a negative level as from any other.
def guards (p : Parser) : Guards where
  notNumber := fail (.unexpectedToken "a number")
  notIdentifier := fail (.unexpectedToken "an identifier")
  notOpening := fail (.expectedCharacter "(")
  notOperator := fail (.unexpectedToken "a binary operator")
  negativeLevel := p.binaryOp
  roundless := p.stalled
  unmoved cursor := ⟨[], some (p.stallFault cursor), cursor⟩

def takeOr (p : Parser) (kind : TokenKind) (guard : Token → Run Token) : Run Token := do
  let token ← p.advance
  if token.kind = kind then return token else guard token

namespace Guards

section Productions

variable (guards : Guards) (p : Parser)

def parameters : Nat → Run (List Value)
  | 0 => guards.roundless
  | bound + 1 => do
    if ← p.check .identifier then
      let name ← p.advance
      if ← p.check .parensClose then return [name.value]
      let _ ← p.take .comma .expectedArgumentList
      return name.value :: (← parameters bound)
    else return []

def prototype : Run Prototype := do
  let name ← p.take .identifier .expectedFunctionName
  let _ ← p.take .parensOpen (.expectedCharacter "(")
  let parameters ← guards.parameters p (← p.rounds)
  let _ ← p.advance
  return ⟨name.value, parameters⟩

def number : Run Node := return .number (← p.takeOr .number guards.notNumber).value

def arguments (expression : Run Node) : Nat → Run (List Node)
  | 0 => guards.roundless
  | bound + 1 => do
    let argument ← expression
    if ← p.check .parensClose then return [argument]
    let _ ← p.take .comma .expectedArgumentList
    return argument :: (← arguments expression bound)

def callArguments (expression : Run Node) : Run (List Node) := do
  if ← p.check .parensClose then
    let _ ← p.advance
    return []
  else
    let arguments ← guards.arguments p expression (← p.rounds)
    let _ ← p.advance
    return arguments

def climb (operand : Run Node) (tighter : Node → Int → Run Node) (least : Int) :
    Nat → Node → Run Node
  | 0, _ => guards.roundless
  | bound + 1, left => do
    let level ← p.currentPrecedence
    if level < least then return left
    let op ← p.takeOr .binaryOperator guards.notOperator
    let right ← p.extendRight tighter level (← operand)
    climb operand tighter least bound (.binary op.value.plain left right)

mutual

def expression : (depth : Nat) → Run Node
  | 0 => p.tooDeep
  | depth + 1 => do
    let first ← primary depth
    binaryOp depth first 0

def primary : (depth : Nat) → Run Node
  | 0 => p.tooDeep
  | depth + 1 => do
    let token ← p.peek
    match token.kind with
    | .identifier => identifier depth
    | .number => guards.number p
    | .parensOpen => parens depth
    | _ => fail .expectedExpression token

def parens : (depth : Nat) → Run Node
  | 0 => p.tooDeep
  | depth + 1 => do
    let _ ← p.takeOr .parensOpen guards.notOpening
    let inner ← expression depth
    let _ ← p.take .parensClose (.expectedCharacter ")")
    return inner

def identifier : (depth : Nat) → Run Node
  | 0 => p.tooDeep
  | depth + 1 => do
    let name ← p.takeOr .identifier guards.notIdentifier
    if ← p.check .parensOpen then
      let _ ← p.advance
      return .call name.value (← guards.callArguments p (expression depth))
    else return .var name.value

def binaryOp (depth : Nat) (left : Node) (least : Int) : Run Node :=
  if least < 0 then guards.negativeLevel depth left least
  else
    match depth with
    | 0 => p.tooDeep
    | depth + 1 => do
      guards.climb p (primary depth) (binaryOp depth) least (← p.rounds) left

end

def unit (depth : Nat) : Run Definition := do
  if ← p.check .define then
    let _ ← p.advance
    let prototype ← guards.prototype p
    return ⟨prototype, ← guards.expression p depth⟩
  else return .anonymous (← guards.expression p depth)

def units (depth : Nat) : (bound : Nat) → (cursor : Nat) → Progress
  | 0, cursor => if p.tokens.size ≤ cursor then ⟨[], none, cursor⟩ else guards.unmoved cursor
  | bound + 1, cursor =>
    if p.tokens.size ≤ cursor then ⟨[], none, cursor⟩
    else
      match guards.unit p depth cursor with
      | .error fault cursor => ⟨[], some fault, cursor⟩
      | .ok definition next =>
        if next = cursor then guards.unmoved cursor
        else (units depth bound next).prepend [definition]

def limited (depth : Nat) : Progress := guards.units p depth p.tokens.size 0

end Productions

section Own

variable (p : Parser)

theorem own_parameters (bound : Nat) : p.guards.parameters p bound = p.parameters bound := by
  induction bound with
  | zero => rfl
  | succ bound ih => simp only [parameters, Parser.parameters, ih]

theorem own_prototype : p.guards.prototype p = p.prototype := by
  simp only [prototype, Parser.prototype, own_parameters]

theorem own_arguments (expression : Run Node) (bound : Nat) :
    p.guards.arguments p expression bound = p.arguments expression bound := by
  induction bound with
  | zero => rfl
  | succ bound ih => simp only [arguments, Parser.arguments, ih]

theorem own_climb (operand : Run Node) (tighter : Node → Int → Run Node) (least : Int)
    (bound : Nat) (left : Node) :
    p.guards.climb p operand tighter least bound left =
      p.climb operand tighter least bound left := by
  induction bound generalizing left with
  | zero => rfl
  | succ bound ih =>
    simp only [climb, Parser.climb, ih]
    rfl

theorem own_unit {depth : Nat} (h : p.guards.expression p depth = p.expression depth) :
    p.guards.unit p depth = p.unit depth := by
  simp only [unit, Parser.unit, definition, bareExpression, own_prototype, h]

-- With the guards that the parser has, all is as it is in the parser.
structure Own (p : Parser) (depth : Nat) : Prop where
  prototype : p.guards.prototype p = p.prototype
  expression : p.guards.expression p depth = p.expression depth
  primary : p.guards.primary p depth = p.primary depth
  parens : p.guards.parens p depth = p.parens depth
  identifier : p.guards.identifier p depth = p.identifier depth
  binaryOp : p.guards.binaryOp p depth = p.binaryOp depth
  unit : p.guards.unit p depth = p.unit depth

theorem own (depth : Nat) : Own p depth := by
  induction depth with
  | zero =>
    refine ⟨own_prototype p, rfl, rfl, rfl, rfl, ?_, own_unit p rfl⟩
    funext left least
    rw [binaryOp]
    split <;> rfl
  | succ depth ih =>
    have hexpression : p.guards.expression p (depth + 1) = p.expression (depth + 1) := by
      simp only [expression, Parser.expression, ih.primary, ih.binaryOp]
    refine ⟨own_prototype p, hexpression, ?_, ?_, ?_, ?_, own_unit p hexpression⟩
    · simp only [primary, Parser.primary, ih.identifier, ih.parens]
      rfl
    · simp only [parens, Parser.parens, ih.expression]
      rfl
    · simp only [identifier, Parser.identifier, callArguments, Parser.callArguments, own_arguments,
        ih.expression]
      rfl
    · funext left least
      rw [binaryOp]
      split
      · rfl
      · simp only [Parser.binaryOp, own_climb, ih.primary, ih.binaryOp]

end Own

end Guards

section Runs

variable {p : Parser} {cursor next : Nat} {kind : TokenKind}

theorem le_of_extendRight {tighter : Node → Int → Run Node} {level : Int} {right tree : Node}
    (htighter : ∀ cursor tree next, tighter right (level + 1) cursor = .ok tree next →
      cursor ≤ next)
    (h : p.extendRight tighter level right cursor = .ok tree next) : cursor ≤ next := by
  have hends : Ends (p.extendRight tighter level right) cursor (fun _ next => cursor ≤ next)
      fun _ _ => True := by
    simp only [extendRight, ends_bind, ends_currentPrecedence, ends_ite, ends_pure]
    split
    · split
      · exact .of_cases (htighter cursor) fun _ _ _ => trivial
      · exact Nat.le_refl _
    · trivial
  exact hends.ok h

-- A guard does not fire if the token is there.
theorem takeOr_of_kind (cause : Cause) (guard : Token → Run Token)
    (hkind : (p.tokenAt cursor).kind = kind) :
    p.takeOr kind guard cursor = p.take kind cause cursor := by
  rw [take_eq_ok_iff.mpr ⟨hkind, rfl, rfl⟩]
  change (if (p.tokenAt cursor).kind = kind then pure (p.tokenAt cursor)
    else guard (p.tokenAt cursor) : Run Token) (cursor + 1) = _
  rw [if_pos hkind]
  rfl

end Runs

namespace Guards

variable {p : Parser} (guards : Guards)

section Loops

theorem parameters_eq (bound cursor : Nat) (hbound : p.tokens.size - cursor < bound) :
    guards.parameters p bound cursor = p.parameters bound cursor := by
  induction bound generalizing cursor with
  | zero => omega
  | succ bound ih =>
    simp only [parameters, Parser.parameters]
    refine bind_congr_of_ok rfl fun begins next hbegins => ?_
    cases hbegins
    split
    · refine bind_congr_of_ok rfl fun name next hname => ?_
      cases hname
      refine bind_congr_of_ok rfl fun closes next hcloses => ?_
      cases hcloses
      split
      · rfl
      · refine bind_congr_of_ok rfl fun comma next hcomma => ?_
        obtain ⟨hkind, -, rfl⟩ := take_eq_ok_iff.mp hcomma
        have hlt := lt_size_of_kind hkind (by decide)
        exact bind_congr_of_ok (ih _ (by omega)) fun _ _ _ => rfl
    · rfl

theorem prototype_eq (cursor : Nat) : guards.prototype p cursor = p.prototype cursor := by
  simp only [prototype, Parser.prototype]
  refine bind_congr_of_ok rfl fun name next _ => bind_congr_of_ok rfl fun opening next _ => ?_
  refine bind_congr_of_ok rfl fun bound next hbound => ?_
  cases hbound
  exact bind_congr_of_ok (guards.parameters_eq _ _ (Nat.lt_succ_self _)) fun _ _ _ => rfl

-- Each argument takes a token, and so does the comma behind it.
theorem arguments_eq {expression : Run Node}
    (hprogress : ∀ cursor tree next, expression cursor = .ok tree next → cursor < next)
    (bound cursor : Nat) (hbound : p.tokens.size - cursor < bound) :
    guards.arguments p expression bound cursor = p.arguments expression bound cursor := by
  induction bound generalizing cursor with
  | zero => omega
  | succ bound ih =>
    simp only [arguments, Parser.arguments]
    refine bind_congr_of_ok rfl fun argument next hargument => ?_
    have hlt := hprogress _ _ _ hargument
    refine bind_congr_of_ok rfl fun closes next' hcloses => ?_
    cases hcloses
    split
    · rfl
    · refine bind_congr_of_ok rfl fun comma next hcomma => ?_
      obtain ⟨hkind, -, rfl⟩ := take_eq_ok_iff.mp hcomma
      have hlt := lt_size_of_kind hkind (by decide)
      exact bind_congr_of_ok (ih _ (by omega)) fun _ _ _ => rfl

theorem callArguments_eq {expression : Run Node}
    (hprogress : ∀ cursor tree next, expression cursor = .ok tree next → cursor < next)
    (cursor : Nat) :
    guards.callArguments p expression cursor = p.callArguments expression cursor := by
  simp only [callArguments, Parser.callArguments]
  refine bind_congr_of_ok rfl fun closes next hcloses => ?_
  cases hcloses
  split
  · rfl
  · refine bind_congr_of_ok rfl fun bound next hbound => ?_
    cases hbound
    exact bind_congr_of_ok (guards.arguments_eq hprogress _ _ (Nat.lt_succ_self _))
      fun _ _ _ => rfl

-- What binds at least as tightly as a level that is not negative is an operator,
-- and what binds more tightly than this has no negative level either.
theorem climb_eq {operand : Run Node} {tighter tighter' : Node → Int → Run Node}
    (hprogress : ∀ cursor tree next, operand cursor = .ok tree next → cursor < next)
    (htighter : ∀ right level, 0 ≤ level → tighter right level = tighter' right level)
    (hbehind : ∀ right level, 0 ≤ level → ∀ cursor tree next,
      tighter' right level cursor = .ok tree next → cursor ≤ next)
    {least : Int} (hleast : 0 ≤ least) (bound : Nat) (left : Node) (cursor : Nat)
    (hbound : p.tokens.size - cursor < bound) :
    guards.climb p operand tighter least bound left cursor =
      p.climb operand tighter' least bound left cursor := by
  induction bound generalizing left cursor with
  | zero => omega
  | succ bound ih =>
    simp only [climb, Parser.climb]
    refine bind_congr_of_ok rfl fun level next hlevel => ?_
    obtain ⟨hlisted, rfl⟩ := levelAt_of_currentPrecedence hlevel
    split
    · rfl
    · next hle =>
      have hpos : 0 ≤ level := by omega
      obtain ⟨hkind, -⟩ := (levelAt_eq_some_iff hpos).mp hlisted
      refine bind_congr_of_ok (takeOr_of_kind _ _ hkind) fun op next' hop => ?_
      obtain ⟨-, -, rfl⟩ := take_eq_ok_iff.mp hop
      have hlt := lt_size_of_kind hkind (by decide)
      refine bind_congr_of_ok rfl fun operand middle hoperand => ?_
      have hmiddle := hprogress _ _ _ hoperand
      refine bind_congr_of_ok ?_ fun right last hright => ?_
      · simp only [extendRight, htighter operand (level + 1) (by omega)]
      · have hlast := le_of_extendRight (hbehind operand (level + 1) (by omega)) hright
        exact ih _ _ (by omega)

end Loops

section Progress

theorem lt_of_primary {depth cursor next : Nat} {tree : Node}
    (h : p.primary depth cursor = .ok tree next) : cursor < next :=
  ((ends_primary depth cursor).ok h).lt

theorem lt_of_expression {depth cursor next : Nat} {tree : Node}
    (h : p.expression depth cursor = .ok tree next) : cursor < next :=
  ((ends_expression depth cursor).ok h).lt.1

theorem le_of_binaryOp {depth cursor next : Nat} {left tree : Node} {least : Int}
    (hleast : 0 ≤ least) (h : p.binaryOp depth left least cursor = .ok tree next) :
    cursor ≤ next := by
  have hends := ends_binaryOp depth (fun shallower _ => p.ends_primary shallower)
    (fun _ _ _ hat => OperandAt.lt hat) hleast left cursor
  obtain ⟨links, hchain, -⟩ := hends.ok h
  exact hchain.le fun _ _ _ hat => OperandAt.lt hat

end Progress

-- What comes of a production where it may be called does not depend on the guards.
structure Unused (guards : Guards) (p : Parser) (depth : Nat) : Prop where
  expression : guards.expression p depth = p.expression depth
  primary : guards.primary p depth = p.primary depth
  parens : ∀ cursor, (p.tokenAt cursor).kind = .parensOpen →
    guards.parens p depth cursor = p.parens depth cursor
  identifier : ∀ cursor, (p.tokenAt cursor).kind = .identifier →
    guards.identifier p depth cursor = p.identifier depth cursor
  binaryOp : ∀ left least, 0 ≤ least →
    guards.binaryOp p depth left least = p.binaryOp depth left least

theorem unused (guards : Guards) (p : Parser) (depth : Nat) : guards.Unused p depth := by
  induction depth with
  | zero =>
    refine ⟨rfl, rfl, fun _ _ => rfl, fun _ _ => rfl, fun left least hleast => ?_⟩
    rw [binaryOp, if_neg (by omega)]
    rfl
  | succ depth ih =>
    constructor
    · simp only [expression, Parser.expression, ih.primary, ih.binaryOp _ 0 (Int.le_refl 0)]
    · funext cursor
      simp only [primary, Parser.primary]
      refine bind_congr_of_ok rfl fun token next htoken => ?_
      cases htoken
      cases hkind : (p.tokenAt cursor).kind with
      | identifier => exact ih.identifier cursor hkind
      | number => exact bind_congr_of_ok (takeOr_of_kind _ _ hkind) fun _ _ _ => rfl
      | parensOpen => exact ih.parens cursor hkind
      | _ => rfl
    · intro cursor hkind
      simp only [parens, Parser.parens, ih.expression]
      exact bind_congr_of_ok (takeOr_of_kind _ _ hkind) fun _ _ _ => rfl
    · intro cursor hkind
      simp only [identifier, Parser.identifier, ih.expression]
      refine bind_congr_of_ok (takeOr_of_kind _ _ hkind) fun name next _ => ?_
      refine bind_congr_of_ok rfl fun opens next hopens => ?_
      split
      · refine bind_congr_of_ok rfl fun _ next _ => ?_
        refine bind_congr_of_ok ?_ fun _ _ _ => rfl
        exact guards.callArguments_eq (fun _ _ _ => lt_of_expression) next
      · rfl
    · intro left least hleast
      funext cursor
      rw [binaryOp, if_neg (by omega)]
      simp only [Parser.binaryOp]
      refine bind_congr_of_ok rfl fun bound next hbound => ?_
      cases hbound
      rw [ih.primary]
      exact guards.climb_eq (fun _ _ _ => lt_of_primary) ih.binaryOp
        (fun _ _ hlevel _ _ _ => le_of_binaryOp hlevel) hleast _ left _ (Nat.lt_succ_self _)

theorem unit_eq (depth cursor : Nat) : guards.unit p depth cursor = p.unit depth cursor := by
  simp only [unit, Parser.unit, definition, bareExpression, (guards.unused p depth).expression]
  refine bind_congr_of_ok rfl fun defines next _ => ?_
  split
  · refine bind_congr_of_ok rfl fun _ next _ => ?_
    exact bind_congr_of_ok (guards.prototype_eq next) fun _ _ _ => rfl
  · rfl

-- Every unit moves on, so the rounds are enough for all of them.
theorem units_eq (depth bound cursor : Nat) (hbound : p.tokens.size - cursor ≤ bound) :
    guards.units p depth bound cursor = p.units depth bound cursor := by
  induction bound generalizing cursor with
  | zero => rw [units, if_pos (by omega), units_of_size_le (by omega)]
  | succ bound ih =>
    by_cases hend : p.tokens.size ≤ cursor
    · rw [units, if_pos hend, units_of_size_le hend]
    have hlt := Nat.lt_of_not_le hend
    rw [units, if_neg hend, guards.unit_eq]
    cases hunit : p.unit depth cursor with
    | error fault stop => rw [units_of_error hlt hunit]
    | ok definition next =>
      have hnext := ((ends_unit depth hlt).ok hunit).lt
      rw [units_of_ok hlt hunit]
      change (if next = cursor then _ else _) = _
      rw [if_neg (by omega), ih next (by omega)]

theorem limited_eq (p : Parser) (depth : Nat) : guards.limited p depth = p.limited depth :=
  guards.units_eq depth _ 0 (Nat.sub_le _ _)

end Guards

end ExprLang.Parser
