import ExprLang.Token.Basic
import ExprLang.Token.Numeral

-- Rules: which text becomes which token.

namespace ExprLang

-- What becomes of a text that matched.
inductive Action where
  | skip
  | word
  | number
  | operator
  | other
  | punctuation (kind : TokenKind)
deriving DecidableEq

structure Rule where
  pattern : String
  action : Action
deriving DecidableEq

def keywords : List (String × TokenKind) := [("def", .define)]

-- Words that are no keywords name something.
def wordToken (text : String) : Token :=
  match keywords.lookup text with
  | some kind => ⟨kind, text, .absent, none⟩
  | none => ⟨.identifier, text, .text text, none⟩

def otherToken (text : String) : Token := ⟨.other, text, .text text, none⟩

def Action.token? (text : String) : Action → Option Token
  | skip => none
  | word => some (wordToken text)
  | number => some ⟨.number, text, .number (parseNumber text), none⟩
  | operator => some ⟨.binaryOperator, text, .text text, none⟩
  | other => some (otherToken text)
  | punctuation kind => some ⟨kind, text, .absent, none⟩

-- The rules of the language. They are tried in this order.
def Rule.defaults : List Rule :=
  [⟨"[ \\t\\n]", .skip⟩,
   ⟨"[a-zA-Z][a-zA-Z0-9]*", .word⟩,
   ⟨"[0-9.]+", .number⟩,
   ⟨"\\(", .punctuation .parensOpen⟩,
   ⟨"\\)", .punctuation .parensClose⟩,
   ⟨",", .punctuation .comma⟩,
   ⟨"[+\\-*/]", .operator⟩]

end ExprLang
