import ExprLang.Parser.Error
import ExprLang.Tree.Basic

-- From tokens to trees. The constructs nest by recursion, and chains of
-- operators are folded by precedence climbing. The first error ends it all.

namespace ExprLang

-- How tightly each operator binds. One that is not listed is not defined.
abbrev PrecedenceTable := List (String × Int)

def PrecedenceTable.defaults : PrecedenceTable :=
  [("+", 20), ("-", 20), ("*", 40), ("/", 40)]

-- Operators are looked up by their values, of which only texts are listed.
def PrecedenceTable.level? (table : PrecedenceTable) (symbol : Value) : Option Int :=
  symbol.text?.bind (table.lookup ·)

-- The level of whatever is no operator, below all sensible ones.
def noPrecedence : Int := -1

structure Parser where
  tokens : Array Token
  precedence : PrecedenceTable

namespace Parser

-- The state is the number of tokens taken, which also a failure leaves behind.
abbrev Run := EStateM SyntaxFault Nat

-- Behind the last token, on its line; or nowhere, if that is not known.
def endLocation (p : Parser) : Location :=
  match p.tokens.back? with
  | some ⟨_, lexeme, _, some location⟩ => location.shift lexeme.length
  | _ => ⟨"<eof>", 0, 0, 0⟩

def endToken (p : Parser) : Token := ⟨.endOfInput, "", .absent, some p.endLocation⟩

def tokenAt (p : Parser) (cursor : Nat) : Token := p.tokens[cursor]?.getD p.endToken

theorem tokenAt_of_size_le (p : Parser) {cursor : Nat} (h : p.tokens.size ≤ cursor) :
    p.tokenAt cursor = p.endToken := by
  simp [tokenAt, Array.getElem?_eq_none h]

theorem tokenAt_of_lt (p : Parser) {cursor : Nat} (h : cursor < p.tokens.size) :
    p.tokenAt cursor = p.tokens[cursor] := by
  simp [tokenAt, h]

def peek (p : Parser) : Run Token := fun cursor => .ok (p.tokenAt cursor) cursor

-- Takes a token. The end of the input can be taken again and again.
def advance (p : Parser) : Run Token := fun cursor => .ok (p.tokenAt cursor) (cursor + 1)

def check (p : Parser) (kind : TokenKind) : Run Bool := return (← p.peek).kind = kind

def fail {α : Type} (cause : Cause) (token : Token) : Run α := throw ⟨cause, token⟩

-- Takes a token of this kind and no other.
def take (p : Parser) (kind : TokenKind) (cause : Cause) : Run Token := do
  let token ← p.advance
  if token.kind = kind then return token else fail cause token

-- A bound for the rounds of a loop: each takes a token, and one more may find
-- that there is none left.
def rounds (p : Parser) : Run Nat := return p.tokens.size - (← get) + 1

-- What a loop reports that has used up its rounds, as one would that goes on
-- without taking tokens.
def stallFault (p : Parser) (cursor : Nat) : SyntaxFault :=
  ⟨.unexpectedToken "a definition or expression", p.tokenAt cursor⟩

def stalled {α : Type} (p : Parser) : Run α := fun cursor => .error (p.stallFault cursor) cursor

def tooDeep {α : Type} (p : Parser) : Run α := do fail .nestingTooDeep (← p.peek)

def currentPrecedence (p : Parser) : Run Int := do
  let token ← p.peek
  if token.kind = .binaryOperator then
    match p.precedence.level? token.value with
    | some level => return level
    | none => fail (.undefinedOperator token.value) token
  else return noPrecedence

-- Parameter names, up to but not including the token that closes the list.
def parameters (p : Parser) : Nat → Run (List Value)
  | 0 => p.stalled
  | bound + 1 => do
    if ← p.check .identifier then
      let name ← p.advance
      if ← p.check .parensClose then return [name.value]
      let _ ← p.take .comma .expectedArgumentList
      return name.value :: (← p.parameters bound)
    else return []

-- Whatever token follows the parameters is taken to close the list.
def prototype (p : Parser) : Run Prototype := do
  let name ← p.take .identifier .expectedFunctionName
  let _ ← p.take .parensOpen (.expectedCharacter "(")
  let parameters ← p.parameters (← p.rounds)
  let _ ← p.advance
  return ⟨name.value, parameters⟩

def number (p : Parser) : Run Node :=
  return .number (← p.take .number (.unexpectedToken "a number")).value

-- One argument at least, up to but not including the closing parenthesis.
def arguments (p : Parser) (expression : Run Node) : Nat → Run (List Node)
  | 0 => p.stalled
  | bound + 1 => do
    let argument ← expression
    if ← p.check .parensClose then return [argument]
    let _ ← p.take .comma .expectedArgumentList
    return argument :: (← p.arguments expression bound)

-- The arguments of a call and the parenthesis that closes them.
def callArguments (p : Parser) (expression : Run Node) : Run (List Node) := do
  if ← p.check .parensClose then
    let _ ← p.advance
    return []
  else
    let arguments ← p.arguments expression (← p.rounds)
    let _ ← p.advance
    return arguments

-- Gives a right operand the operators behind it that bind more tightly than the
-- one before it.
def extendRight (p : Parser) (tighter : Node → Int → Run Node) (level : Int) (right : Node) :
    Run Node := do
  if level < (← p.currentPrecedence) then tighter right (level + 1) else return right

-- Folds the operators that bind at least as tightly as `least` into `left`.
def climb (p : Parser) (operand : Run Node) (tighter : Node → Int → Run Node) (least : Int) :
    Nat → Node → Run Node
  | 0, _ => p.stalled
  | bound + 1, left => do
    let level ← p.currentPrecedence
    if level < least then return left
    let op ← p.take .binaryOperator (.unexpectedToken "a binary operator")
    let right ← p.extendRight tighter level (← operand)
    p.climb operand tighter least bound (.binary op.value.plain left right)

mutual

-- `depth` bounds how many productions may be open at once.
def expression (p : Parser) : (depth : Nat) → Run Node
  | 0 => p.tooDeep
  | depth + 1 => do
    let first ← p.primary depth
    p.binaryOp depth first 0

def primary (p : Parser) : (depth : Nat) → Run Node
  | 0 => p.tooDeep
  | depth + 1 => do
    let token ← p.peek
    match token.kind with
    | .identifier => p.identifier depth
    | .number => p.number
    | .parensOpen => p.parens depth
    | _ => fail .expectedExpression token

def parens (p : Parser) : (depth : Nat) → Run Node
  | 0 => p.tooDeep
  | depth + 1 => do
    let _ ← p.take .parensOpen (.expectedCharacter "(")
    let inner ← p.expression depth
    let _ ← p.take .parensClose (.expectedCharacter ")")
    return inner

-- A name with a parenthesis behind it is a call.
def identifier (p : Parser) : (depth : Nat) → Run Node
  | 0 => p.tooDeep
  | depth + 1 => do
    let name ← p.take .identifier (.unexpectedToken "an identifier")
    if ← p.check .parensOpen then
      let _ ← p.advance
      return .call name.value (← p.callArguments (p.expression depth))
    else return .var name.value

def binaryOp (p : Parser) (depth : Nat) (left : Node) (least : Int) : Run Node :=
  match depth with
  | 0 => p.tooDeep
  | depth + 1 => do
    p.climb (p.primary depth) (p.binaryOp depth) least (← p.rounds) left

end

-- The first token is the keyword, which is not looked at again.
def definition (p : Parser) (depth : Nat) : Run Definition := do
  let _ ← p.advance
  let prototype ← p.prototype
  return ⟨prototype, ← p.expression depth⟩

def bareExpression (p : Parser) (depth : Nat) : Run Definition :=
  return .anonymous (← p.expression depth)

def unit (p : Parser) (depth : Nat) : Run Definition := do
  if ← p.check .define then p.definition depth else p.bareExpression depth

-- The units before the end or the first error, and where the parser stands then.
structure Progress where
  definitions : List Definition
  fault? : Option SyntaxFault
  cursor : Nat
deriving DecidableEq

-- Every unit takes a token, so the tokens bound the units.
def units (p : Parser) (depth : Nat) : (bound : Nat) → (cursor : Nat) → Progress
  | 0, cursor =>
    ⟨[], if p.tokens.size ≤ cursor then none else some (p.stallFault cursor), cursor⟩
  | bound + 1, cursor =>
    if p.tokens.size ≤ cursor then ⟨[], none, cursor⟩
    else
      match p.unit depth cursor with
      | .error fault cursor => ⟨[], some fault, cursor⟩
      | .ok definition cursor =>
        let rest := p.units depth bound cursor
        { rest with definitions := definition :: rest.definitions }

-- More than this many productions open at once are too deep a nesting.
def depthLimit : Nat := 1000

def progress (p : Parser) : Progress := p.units depthLimit p.tokens.size 0

def Progress.result (progress : Progress) : Except SyntaxFault (List Definition) :=
  match progress.fault? with
  | none => .ok progress.definitions
  | some fault => .error fault

-- All units, from the first token on wherever the cursor stood before.
def program (p : Parser) : Run (List Definition) := fun _ =>
  let progress := p.progress
  match progress.result with
  | .ok definitions => .ok definitions progress.cursor
  | .error fault => .error fault progress.cursor

end Parser

def parseTokens (tokens : List Token) (precedence : PrecedenceTable) :
    Except SyntaxFault (List Definition) :=
  (Parser.progress ⟨tokens.toArray, precedence⟩).result

end ExprLang
