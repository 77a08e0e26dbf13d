import ExprLang.Diagnostic
import ExprLang.Token.Basic

-- What can be wrong with a program, and how it is reported.

namespace ExprLang

inductive ParseErrorKind where
  | unexpectedToken
  | undefinedOperator
  | expectedCharacter
  | expectedExpression
  | expectedArgumentList
  | expectedFunctionName
deriving DecidableEq

namespace ParseErrorKind

def all : List ParseErrorKind :=
  [unexpectedToken, undefinedOperator, expectedCharacter, expectedExpression,
    expectedArgumentList, expectedFunctionName]

def name : ParseErrorKind → String
  | unexpectedToken => "UnexpectedToken"
  | undefinedOperator => "UndefinedOperator"
  | expectedCharacter => "ExpectedCharacter"
  | expectedExpression => "ExpectedExpression"
  | expectedArgumentList => "ExpectedArgumentList"
  | expectedFunctionName => "ExpectedFunctionName"

def ofName? (name : String) : Option ParseErrorKind :=
  all.find? (·.name = name)

end ParseErrorKind

-- A full report. The detail is the operator or the character in question.
structure ParseError where
  kind : ParseErrorKind
  detail : Value
  token? : Option Token
  diagnostic : Diagnostic
deriving DecidableEq

def ParseError.fullText (e : ParseError) : String :=
  let detail := match e.detail with
    | .absent => ""
    | detail => "(" ++ detail.shown ++ ")"
  "ParseError(" ++ e.kind.name ++ detail ++ ")"

-- Why parsing stops.
inductive Cause where
  | unexpectedToken (expected : String)
  | undefinedOperator (symbol : Value)
  | expectedCharacter (char : String)
  | expectedExpression
  | expectedArgumentList
  | expectedFunctionName
  | nestingTooDeep
deriving DecidableEq

-- The titles of the error codes.
def errorCodes : List (String × String) :=
  [("P001", "Unexpected token"),
   ("P002", "Undefined operator"),
   ("P003", "Expected character"),
   ("P004", "Expected expression"),
   ("P005", "Expected argument list"),
   ("P006", "Expected function name"),
   ("P007", "Nesting too deep")]

namespace Cause

def kind : Cause → ParseErrorKind
  | unexpectedToken _ | nestingTooDeep => .unexpectedToken
  | undefinedOperator _ => .undefinedOperator
  | expectedCharacter _ => .expectedCharacter
  | expectedExpression => .expectedExpression
  | expectedArgumentList => .expectedArgumentList
  | expectedFunctionName => .expectedFunctionName

def code : Cause → String
  | unexpectedToken _ => "P001"
  | undefinedOperator _ => "P002"
  | expectedCharacter _ => "P003"
  | expectedExpression => "P004"
  | expectedArgumentList => "P005"
  | expectedFunctionName => "P006"
  | nestingTooDeep => "P007"

-- The codes that have titles are those under which something is reported.
theorem mem_errorCodes_iff {text : String} :
    text ∈ errorCodes.map Prod.fst ↔ ∃ cause : Cause, cause.code = text := by
  constructor
  · intro h
    simp only [errorCodes, List.map_cons, List.map_nil, List.mem_cons, List.not_mem_nil,
      or_false] at h
    rcases h with rfl | rfl | rfl | rfl | rfl | rfl | rfl
    · exact ⟨unexpectedToken "", rfl⟩
    · exact ⟨undefinedOperator .absent, rfl⟩
    · exact ⟨expectedCharacter "", rfl⟩
    · exact ⟨expectedExpression, rfl⟩
    · exact ⟨expectedArgumentList, rfl⟩
    · exact ⟨expectedFunctionName, rfl⟩
    · exact ⟨nestingTooDeep, rfl⟩
  · rintro ⟨cause, rfl⟩
    cases cause <;> simp [errorCodes, code]

def detail : Cause → Value
  | undefinedOperator symbol => symbol
  | expectedCharacter char => .text char
  | _ => .absent

def message (cause : Cause) (found : Token) : String :=
  match cause with
  | unexpectedToken expected => "Expected " ++ expected ++ ", found " ++ found.describe
  | undefinedOperator symbol => "Undefined operator '" ++ symbol.plain ++ "'"
  | expectedCharacter char => "Expected character '" ++ char ++ "', found " ++ found.describe
  | expectedExpression => "Expected expression, found " ++ found.describe
  | expectedArgumentList => "Expected ',' or ')' in argument list, found " ++ found.describe
  | expectedFunctionName => "Expected function name after 'def', found " ++ found.describe
  | nestingTooDeep => "Expression nested too deeply at " ++ found.describe

def help? : Cause → Option String
  | unexpectedToken expected =>
    some ("The parser expected to see " ++ expected ++ " at this position.")
  | undefinedOperator _ => some "Only operators listed in the precedence table can be used."
  | expectedExpression => some "An expression starts with a number, an identifier or '('."
  | nestingTooDeep => some "Split the expression into smaller functions."
  | expectedCharacter _ | expectedArgumentList | expectedFunctionName => none

def suggestions? : Cause → Option (List String)
  | expectedCharacter char => some ["Add a '" ++ char ++ "'"]
  | expectedArgumentList =>
    some ["Separate arguments with ','", "Close the argument list with ')'"]
  | _ => none

end Cause

-- A cause and the token at which it showed.
structure SyntaxFault where
  cause : Cause
  token : Token
deriving DecidableEq

def SyntaxFault.report (fault : SyntaxFault) : ParseError where
  kind := fault.cause.kind
  detail := fault.cause.detail
  token? := some fault.token
  diagnostic :=
    { message := fault.cause.message fault.token
      location? := some fault.token.place
      severity := "error"
      code? := some fault.cause.code
      help? := fault.cause.help?
      suggestions? := fault.cause.suggestions? }

end ExprLang
