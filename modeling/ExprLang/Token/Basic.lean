import ExprLang.Location
import ExprLang.Value

-- Tokens and their kinds.

namespace ExprLang

inductive TokenKind where
  | define
  | identifier
  | number
  | parensOpen
  | parensClose
  | comma
  | binaryOperator
  | other
  -- In no source: what follows the last token.
  | endOfInput
deriving DecidableEq, Inhabited

namespace TokenKind

def all : List TokenKind :=
  [define, identifier, number, parensOpen, parensClose, comma, binaryOperator, other, endOfInput]

def name : TokenKind → String
  | define => "DEFINE"
  | identifier => "IDENTIFIER"
  | number => "NUMBER"
  | parensOpen => "PARENS_OPEN"
  | parensClose => "PARENS_CLOSE"
  | comma => "COMMA"
  | binaryOperator => "BINARY_OPERATOR"
  | other => "OTHER"
  | endOfInput => "EOF"

def ofName? (name : String) : Option TokenKind :=
  all.find? (·.name = name)

theorem mem_all (kind : TokenKind) : kind ∈ all := by cases kind <;> decide

theorem ofName?_name (kind : TokenKind) : ofName? kind.name = some kind := by
  cases kind <;> decide

end TokenKind

structure Token where
  kind : TokenKind
  lexeme : String
  value : Value
  location? : Option Location
deriving DecidableEq, Inhabited

namespace Token

-- Tokens are alike wherever they stand.
def same (s t : Token) : Bool :=
  s.kind = t.kind && s.lexeme = t.lexeme && s.value.same t.value

def isIdentifier (t : Token) : Bool := t.kind = .identifier

def isOperator (t : Token) : Bool := t.kind = .binaryOperator

def withLocation (t : Token) (location? : Option Location) : Token :=
  { t with location? }

-- The value is shown when it says more than the lexeme.
def text (t : Token) : String :=
  let value := match t.value with
    | .absent => ""
    | .text s => if s = t.lexeme then "" else " -> " ++ t.value.shown
    | .number _ => " -> " ++ t.value.shown
  t.kind.name ++ "(" ++ Text.quoted t.lexeme ++ value ++ ")"

def fullText (t : Token) : String :=
  "Token(" ++ t.kind.name ++ ", " ++ Text.quoted t.lexeme ++ ", " ++ t.value.shown ++ ")"

-- What an error message calls it.
def describe (t : Token) : String :=
  if t.kind = .endOfInput then "end of input" else t.kind.name ++ " " ++ Text.quoted t.lexeme

-- Where an error message places it.
def place (t : Token) : Location :=
  t.location?.getD ⟨"<unknown>", 0, 0, 0⟩

theorem same_refl (t : Token) : t.same t := by simp [same, Value.same_refl]

end Token

end ExprLang
