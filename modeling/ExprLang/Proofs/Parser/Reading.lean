import ExprLang.Proofs.Grammar.Walk
import ExprLang.Proofs.Parser.Climb

-- How the cursor of a parser and the positions of the grammar go together: the
-- tokens between two cursors, and what is wrong behind them.

namespace ExprLang

-- How far the cursor is behind a token that is wrong. One that begins no
-- operand and an operator that is not listed are only looked at.
def Cause.taken : Cause → Nat
  | .undefinedOperator _ | .expectedExpression | .nestingTooDeep => 0
  | .unexpectedToken _ | .expectedCharacter _ | .expectedArgumentList | .expectedFunctionName => 1

namespace Parser

open Grammar

variable {p : Parser} {cursor stop middle place : Nat} {fault : SyntaxFault} {cause : Cause}
  {tokens : List Token} {token : Token}

-- These are the tokens between the two cursors.
def Spans (p : Parser) : Nat → List Token → Nat → Prop
  | cursor, [], stop => cursor = stop
  | cursor, token :: rest, stop => p.tokens[cursor]? = some token ∧ p.Spans (cursor + 1) rest stop

@[simp] theorem spans_nil : p.Spans cursor [] stop ↔ cursor = stop := Iff.rfl

@[simp] theorem spans_cons : p.Spans cursor (token :: tokens) stop ↔
    p.tokens[cursor]? = some token ∧ p.Spans (cursor + 1) tokens stop := Iff.rfl

@[simp] theorem spans_append {more : List Token} : p.Spans cursor (tokens ++ more) stop ↔
    ∃ middle, p.Spans cursor tokens middle ∧ p.Spans middle more stop := by
  induction tokens generalizing cursor with
  | nil => simp
  | cons token tokens ih => simp [ih, and_assoc]

theorem Spans.eq_add (h : p.Spans cursor tokens stop) : stop = cursor + tokens.length := by
  induction tokens generalizing cursor with
  | nil => exact h.symm
  | cons token tokens ih =>
    have := ih h.2
    simp only [List.length_cons]
    omega

theorem Spans.le_size (h : p.Spans cursor tokens stop) (hcursor : cursor ≤ p.tokens.size) :
    stop ≤ p.tokens.size := by
  induction tokens generalizing cursor with
  | nil => exact h ▸ hcursor
  | cons token tokens ih =>
    obtain ⟨hlt, -⟩ := Array.getElem?_eq_some_iff.mp h.1
    exact ih h.2 hlt

-- Behind the end there are no tokens.
theorem Spans.eq_nil (h : p.Spans cursor tokens stop) (hcursor : p.tokens.size ≤ cursor) :
    tokens = [] := by
  cases tokens with
  | nil => rfl
  | cons token tokens =>
    obtain ⟨hlt, -⟩ := Array.getElem?_eq_some_iff.mp h.1
    omega

theorem Spans.drop_eq (h : p.Spans cursor tokens stop) :
    p.tokens.toList.drop cursor = tokens ++ p.tokens.toList.drop stop := by
  induction tokens generalizing cursor with
  | nil => rw [h, List.nil_append]
  | cons token tokens ih =>
    obtain ⟨hlt, htoken⟩ := Array.getElem?_eq_some_iff.mp h.1
    rw [List.drop_eq_getElem_cons (by simpa using hlt), ih h.2, Array.getElem_toList, htoken,
      List.cons_append]

theorem getElem?_of_kind {kind : TokenKind} (hkind : (p.tokenAt cursor).kind = kind)
    (hne : kind ≠ .endOfInput) : p.tokens[cursor]? = some (p.tokenAt cursor) := by
  have hlt := lt_size_of_kind hkind hne
  rw [Array.getElem?_eq_getElem hlt, p.tokenAt_of_lt hlt]

theorem tokenAt_of_getElem? (h : p.tokens[cursor]? = some token) : p.tokenAt cursor = token := by
  simp [tokenAt, h]

-- The token at a cursor, of a kind that is known.
def terminalAt (p : Parser) (cursor : Nat) {kind : TokenKind}
    (hkind : (p.tokenAt cursor).kind = kind) : Terminal kind := ⟨p.tokenAt cursor, hkind⟩

-- Reading on from a position the fault shows at a place.
def FaultsFrom (p : Parser) (position : Position) (cursor place : Nat) (cause : Cause) : Prop :=
  ∃ tokens next, p.Spans cursor tokens place ∧ position.walk p.precedence tokens = .ok next ∧
    next.fault? p.precedence p.tokens[place]? = some cause

-- The fault is one of the token where the cursor has stopped, or of the one before.
def Faulty (p : Parser) (position : Position) (cursor : Nat) (fault : SyntaxFault) (stop : Nat) :
    Prop :=
  ∃ place, p.FaultsFrom position cursor place fault.cause ∧ fault.token = p.tokenAt place ∧
    stop = place + fault.cause.taken

-- What is wrong when something is read from a position on, unless it is too deep.
def FailsFrom (p : Parser) (position : Position) (cursor : Nat) (fault : SyntaxFault) (stop : Nat) :
    Prop :=
  fault.cause = .nestingTooDeep ∨ p.Faulty position cursor fault stop

section Faulty

variable {position next : Position}

theorem FaultsFrom.walk (hspans : p.Spans cursor tokens middle)
    (hwalk : position.walk p.precedence tokens = .ok next)
    (h : p.FaultsFrom next middle place cause) : p.FaultsFrom position cursor place cause := by
  obtain ⟨more, last, hmore, hlast, hfault⟩ := h
  refine ⟨tokens ++ more, last, spans_append.mpr ⟨middle, hspans, hmore⟩, ?_, hfault⟩
  rw [Position.walk_append more hwalk, hlast]

-- Positions that do the same with the next token have the same faults.
theorem FaultsFrom.congr {position' : Position}
    (hstep : ∀ token, p.tokens[cursor]? = some token →
      position.step p.precedence token = position'.step p.precedence token)
    (hend : p.tokens[cursor]? = none → position.atEnd = position'.atEnd)
    (h : p.FaultsFrom position cursor place cause) : p.FaultsFrom position' cursor place cause := by
  obtain ⟨tokens, last, hspans, hwalk, hfault⟩ := h
  cases tokens with
  | nil =>
    obtain rfl := spans_nil.mp hspans
    obtain rfl := Except.ok.inj hwalk
    refine ⟨[], position', rfl, rfl, ?_⟩
    cases htoken : p.tokens[cursor]? with
    | none => rwa [htoken, Position.fault?, hend htoken] at hfault
    | some token => rwa [htoken, Position.fault?, hstep token htoken] at hfault
  | cons token tokens =>
    refine ⟨token :: tokens, last, hspans, ?_, hfault⟩
    simpa only [Position.walk, List.foldlM_cons, hstep token hspans.1] using hwalk

theorem FailsFrom.walk (hspans : p.Spans cursor tokens middle)
    (hwalk : position.walk p.precedence tokens = .ok next)
    (h : p.FailsFrom next middle fault stop) : p.FailsFrom position cursor fault stop := by
  refine h.imp_right fun hfaulty => ?_
  obtain ⟨place, hfaults, hrest⟩ := hfaulty
  exact ⟨place, hfaults.walk hspans hwalk, hrest⟩

theorem FailsFrom.step (htoken : p.tokens[cursor]? = some token)
    (hstep : position.step p.precedence token = .ok next)
    (h : p.FailsFrom next (cursor + 1) fault stop) : p.FailsFrom position cursor fault stop :=
  h.walk (spans_cons.mpr ⟨htoken, spans_nil.mpr rfl⟩) (Position.walk_cons hstep)

theorem FailsFrom.congr {position' : Position}
    (hstep : ∀ token, p.tokens[cursor]? = some token →
      position.step p.precedence token = position'.step p.precedence token)
    (hend : p.tokens[cursor]? = none → position.atEnd = position'.atEnd)
    (h : p.FailsFrom position cursor fault stop) : p.FailsFrom position' cursor fault stop := by
  refine h.imp_right fun hfaulty => ?_
  obtain ⟨place, hfaults, hrest⟩ := hfaulty
  exact ⟨place, hfaults.congr hstep hend, hrest⟩

theorem failsFrom_here (h : position.fault? p.precedence p.tokens[cursor]? = some cause) :
    p.FailsFrom position cursor ⟨cause, p.tokenAt cursor⟩ (cursor + cause.taken) :=
  .inr ⟨cursor, ⟨[], position, rfl, rfl, h⟩, rfl, rfl⟩

-- What is wrong with the token that stands there, or with the end.
theorem failsFrom_of_step
    (hstep : position.step p.precedence (p.tokenAt cursor) = .error cause)
    (hend : position.atEnd = some cause) :
    p.FailsFrom position cursor ⟨cause, p.tokenAt cursor⟩ (cursor + cause.taken) := by
  refine failsFrom_here ?_
  cases htoken : p.tokens[cursor]? with
  | none => exact hend
  | some token =>
    rw [tokenAt_of_getElem? htoken] at hstep
    exact Position.fault?_some.mpr hstep

end Faulty

-- No parenthesis there makes a call of a bare name before it.
def NotCalled (p : Parser) (named : Bool) (cursor : Nat) : Prop :=
  named = true → (p.tokenAt cursor).kind ≠ .parensOpen

theorem notCalled_of_other : p.NotCalled false cursor := by
  intro h
  cases h

-- Behind a chain that has ended, only what is open around it counts.
theorem step_of_below {named : Bool} {frames : List Frame} (hcalled : p.NotCalled named cursor)
    (hbelow : p.Below 0 cursor) :
    (Position.complete named frames).step p.precedence (p.tokenAt cursor) =
      Position.stepBehind frames (p.tokenAt cursor) := by
  obtain ⟨level, hlevel, hlt⟩ := hbelow
  simp only [Position.step]
  rw [if_neg fun h => hcalled h.1 h.2]
  by_cases hkind : (p.tokenAt cursor).kind = .binaryOperator
  · rw [levelAt_of_kind hkind] at hlevel
    simp only [hkind, if_true, hlevel]
    rw [if_neg (by omega)]
  · rw [if_neg hkind]

end Parser

end ExprLang
