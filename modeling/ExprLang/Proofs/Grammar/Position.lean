import ExprLang.Parser.Basic

-- Where in the grammar a reader stands that has read some tokens of a program,
-- and what it makes of the next one. The position is a matter of these tokens
-- alone, and a fault one of them and the next.

namespace ExprLang.Grammar

-- What is open around an operand.
inductive Frame where
  | parens
  | call
deriving DecidableEq

inductive Position where
  -- where nothing has been read
  | start
  -- behind the keyword of a definition
  | keyword
  -- behind the name of a function
  | functionName
  -- where a parameter may begin
  | parameter
  -- behind the name of a parameter
  | parameterName
  -- where an operand must begin
  | operand (frames : List Frame)
  -- behind the parenthesis that opens a call
  | firstArgument (frames : List Frame)
  -- behind an operand, which is a bare name or not
  | complete (named : Bool) (frames : List Frame)
deriving DecidableEq

namespace Position

def stepOperand (frames : List Frame) (token : Token) : Except Cause Position :=
  match token.kind with
  | .identifier => .ok (.complete true frames)
  | .number => .ok (.complete false frames)
  | .parensOpen => .ok (.operand (.parens :: frames))
  | _ => .error .expectedExpression

def stepStart (token : Token) : Except Cause Position :=
  if token.kind = .define then .ok .keyword else stepOperand [] token

-- Behind an operand that no operator follows.
def stepBehind : List Frame → Token → Except Cause Position
  | [], token => stepStart token
  | .parens :: frames, token =>
    if token.kind = .parensClose then .ok (.complete false frames)
    else .error (.expectedCharacter ")")
  | .call :: frames, token =>
    if token.kind = .parensClose then .ok (.complete false frames)
    else if token.kind = .comma then .ok (.operand (.call :: frames))
    else .error .expectedArgumentList

section Walk

variable (table : PrecedenceTable)

def step : Position → Token → Except Cause Position
  | .start, token => stepStart token
  | .keyword, token =>
    if token.kind = .identifier then .ok .functionName else .error .expectedFunctionName
  | .functionName, token =>
    if token.kind = .parensOpen then .ok .parameter else .error (.expectedCharacter "(")
  | .parameter, token =>
    if token.kind = .identifier then .ok .parameterName else .ok (.operand [])
  | .parameterName, token =>
    if token.kind = .parensClose then .ok (.operand [])
    else if token.kind = .comma then .ok .parameter
    else .error .expectedArgumentList
  | .operand frames, token => stepOperand frames token
  | .firstArgument frames, token =>
    if token.kind = .parensClose then .ok (.complete false frames)
    else stepOperand (.call :: frames) token
  | .complete named frames, token =>
    if named = true ∧ token.kind = .parensOpen then .ok (.firstArgument frames)
    else if token.kind = .binaryOperator then
      match table.level? token.value with
      | none => .error (.undefinedOperator token.value)
      | some level => if 0 ≤ level then .ok (.operand frames) else stepBehind frames token
    else stepBehind frames token

def walk (position : Position) (tokens : List Token) : Except Cause Position :=
  tokens.foldlM (step table) position

end Walk

-- What is wrong with the end of the input, if it may not come here.
def atEnd : Position → Option Cause
  | .start | .complete _ [] => none
  | .keyword => some .expectedFunctionName
  | .functionName => some (.expectedCharacter "(")
  | .parameterName | .complete _ (.call :: _) => some .expectedArgumentList
  | .parameter | .operand _ | .firstArgument _ => some .expectedExpression
  | .complete _ (.parens :: _) => some (.expectedCharacter ")")

-- What is wrong with the next token, or with there being none.
def fault? (table : PrecedenceTable) (position : Position) : Option Token → Option Cause
  | none => position.atEnd
  | some token =>
    match position.step table token with
    | .error cause => some cause
    | .ok _ => none

variable {table : PrecedenceTable} {position next : Position} {token : Token}
  {tokens : List Token} {cause : Cause}

@[simp] theorem walk_nil : position.walk table [] = .ok position := rfl

theorem walk_cons (h : position.step table token = .ok next) :
    position.walk table (token :: tokens) = next.walk table tokens := by
  simp only [walk, List.foldlM_cons, h]
  rfl

theorem walk_append (more : List Token) (h : position.walk table tokens = .ok next) :
    position.walk table (tokens ++ more) = next.walk table more := by
  unfold walk at h ⊢
  rw [List.foldlM_append, h]
  rfl

-- What is read whatever follows is read where nothing does.
theorem walk_of_append
    (h : ∀ more, position.walk table (tokens ++ more) = next.walk table more) :
    position.walk table tokens = .ok next := by
  have hnil := h []
  rwa [List.append_nil] at hnil

-- A walk goes through every prefix.
theorem exists_walk_of_append {more : List Token}
    (h : position.walk table (tokens ++ more) = .ok next) :
    ∃ middle, position.walk table tokens = .ok middle ∧ middle.walk table more = .ok next := by
  unfold walk at h ⊢
  rw [List.foldlM_append] at h
  cases hmiddle : tokens.foldlM (step table) position with
  | error cause =>
    rw [hmiddle] at h
    cases h
  | ok middle =>
    rw [hmiddle] at h
    exact ⟨middle, rfl, h⟩

theorem fault?_some : position.fault? table (some token) = some cause ↔
    position.step table token = .error cause := by
  cases hstep : position.step table token <;> simp [fault?, hstep]

theorem walk_fault (h : position.step table token = .error cause) :
    position.walk table (token :: tokens) = .error cause := by
  simp only [walk, List.foldlM_cons, h]
  rfl

end Position

section Faults

open Position

variable {table : PrecedenceTable} {tokens : List Token} {place : Nat} {cause : Cause}

def Accepts (table : PrecedenceTable) (tokens : List Token) : Prop :=
  ∃ position, Position.start.walk table tokens = .ok position ∧ position.atEnd = none

-- At this place in the tokens, which may be behind the last one, something is
-- wrong, and nothing is before it.
def FaultAt (table : PrecedenceTable) (tokens : List Token) (place : Nat) (cause : Cause) : Prop :=
  place ≤ tokens.length ∧ ∃ position,
    Position.start.walk table (tokens.take place) = .ok position ∧
      position.fault? table tokens[place]? = some cause

-- Reading fails at a fault.
theorem FaultAt.walk_take (h : FaultAt table tokens place cause) (hplace : place < tokens.length) :
    Position.start.walk table (tokens.take (place + 1)) = .error cause := by
  obtain ⟨_, position, hwalk, hfault⟩ := h
  rw [List.getElem?_eq_getElem hplace, fault?_some] at hfault
  rw [List.take_succ_eq_append_getElem hplace, walk_append _ hwalk, walk_fault hfault]

-- Past a fault there is nothing to read.
theorem FaultAt.le_of_walk {length : Nat} {position : Position}
    (h : FaultAt table tokens place cause)
    (hwalk : Position.start.walk table (tokens.take length) = .ok position) :
    length ≤ place ∨ tokens.length ≤ place := by
  by_cases hlt : place < length
  · refine .inr (Nat.le_of_not_lt fun hplace => ?_)
    have hsplit : tokens.take length =
        tokens.take (place + 1) ++ (tokens.take length).drop (place + 1) := by
      have h := List.take_append_drop (place + 1) (tokens.take length)
      rwa [List.take_take, Nat.min_eq_left (by omega), eq_comm] at h
    rw [hsplit] at hwalk
    obtain ⟨middle, hmiddle, -⟩ := exists_walk_of_append hwalk
    rw [h.walk_take hplace] at hmiddle
    cases hmiddle
  · exact .inl (by omega)

theorem FaultAt.not_accepts (h : FaultAt table tokens place cause) : ¬ Accepts table tokens := by
  rintro ⟨position, hwalk, hend⟩
  rw [← List.take_length (l := tokens)] at hwalk
  have hle := h.le_of_walk hwalk
  obtain ⟨hplace, other, hother, hfault⟩ := h
  obtain rfl : place = tokens.length := by omega
  obtain rfl := Except.ok.inj (hwalk.symm.trans hother)
  rw [List.getElem?_eq_none (Nat.le_refl _)] at hfault
  cases hfault.symm.trans hend

-- No tokens have two faults.
theorem FaultAt.unique {place' : Nat} {cause' : Cause} (h : FaultAt table tokens place cause)
    (h' : FaultAt table tokens place' cause') : place = place' ∧ cause = cause' := by
  obtain ⟨hplace, position, hwalk, hfault⟩ := h
  obtain ⟨hplace', position', hwalk', hfault'⟩ := h'
  have hle := FaultAt.le_of_walk ⟨hplace, position, hwalk, hfault⟩ hwalk'
  have hle' := FaultAt.le_of_walk ⟨hplace', position', hwalk', hfault'⟩ hwalk
  obtain rfl : place = place' := by omega
  obtain rfl := Except.ok.inj (hwalk.symm.trans hwalk')
  exact ⟨rfl, Option.some.inj (hfault.symm.trans hfault')⟩

-- What comes behind a faulty token does not matter.
theorem FaultAt.congr {other : List Token} (h : FaultAt table tokens place cause)
    (hplace : place < tokens.length) (hagree : other.take (place + 1) = tokens.take (place + 1)) :
    FaultAt table other place cause ∧ other[place]? = tokens[place]? := by
  obtain ⟨_, position, hwalk, hfault⟩ := h
  have hlength := congrArg List.length hagree
  simp only [List.length_take] at hlength
  have htoken : other[place]? = tokens[place]? := by
    have h := congrArg (·[place]?) hagree
    simpa only [List.getElem?_take, Nat.lt_succ_self, if_true] using h
  have htake : other.take place = tokens.take place := by
    have h := congrArg (List.take place) hagree
    simpa only [List.take_take, Nat.min_eq_left (Nat.le_succ place)] using h
  exact ⟨⟨by omega, position, htake ▸ hwalk, htoken ▸ hfault⟩, htoken⟩

end Faults

-- Tokens that may stand in any source.
namespace Sample

def opening : Token := ⟨.parensOpen, "(", .absent, none⟩

def closing : Token := ⟨.parensClose, ")", .absent, none⟩

def numeral : Token := ⟨.number, "0", .number (.ofRank false 0), none⟩

def word : Token := ⟨.identifier, "f", .text "f", none⟩

def sign (symbol : String) : Token := ⟨.binaryOperator, symbol, .text symbol, none⟩

end Sample

-- Tokens that complete a program from where a reader stands.
section Completion

namespace Position

open Sample

private def closings (frames : List Frame) : List Token := frames.map fun _ => closing

def completion : Position → List Token
  | .start => []
  | .keyword => [word, opening, closing, numeral]
  | .functionName => [opening, closing, numeral]
  | .parameter | .parameterName => [closing, numeral]
  | .operand frames => numeral :: closings frames
  | .firstArgument frames => closing :: closings frames
  | .complete _ frames => closings frames

private theorem walk_closings (table : PrecedenceTable) (named : Bool) (frames : List Frame) :
    ∃ last, (Position.complete named frames).walk table (closings frames) =
      .ok (.complete last []) := by
  induction frames generalizing named with
  | nil => exact ⟨named, rfl⟩
  | cons frame frames ih =>
    obtain ⟨last, hlast⟩ := ih false
    refine ⟨last, ?_⟩
    rw [closings, List.map_cons, ← hlast]
    refine walk_cons ?_
    cases frame <;> simp [step, stepBehind, closing]

theorem walk_completion (table : PrecedenceTable) (position : Position) :
    ∃ last, position.walk table position.completion = .ok last ∧ last.atEnd = none := by
  cases position with
  | start => exact ⟨.start, rfl, rfl⟩
  | keyword => exact ⟨.complete false [], rfl, rfl⟩
  | functionName => exact ⟨.complete false [], rfl, rfl⟩
  | parameter => exact ⟨.complete false [], rfl, rfl⟩
  | parameterName => exact ⟨.complete false [], rfl, rfl⟩
  | operand frames =>
    obtain ⟨last, hlast⟩ := walk_closings table false frames
    exact ⟨.complete last [], (walk_cons rfl).trans hlast, rfl⟩
  | firstArgument frames =>
    obtain ⟨last, hlast⟩ := walk_closings table false frames
    exact ⟨.complete last [], (walk_cons rfl).trans hlast, rfl⟩
  | complete named frames =>
    obtain ⟨last, hlast⟩ := walk_closings table named frames
    exact ⟨.complete last [], hlast, rfl⟩

end Position

-- Whatever has been read without a fault begins some program.
theorem accepts_completion {table : PrecedenceTable} {tokens : List Token} {position : Position}
    (h : Position.start.walk table tokens = .ok position) :
    Accepts table (tokens ++ position.completion) := by
  obtain ⟨last, hlast, hend⟩ := position.walk_completion table
  exact ⟨last, (Position.walk_append _ h).trans hlast, hend⟩

end Completion

end ExprLang.Grammar
