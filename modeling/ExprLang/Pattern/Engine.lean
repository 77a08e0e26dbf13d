import ExprLang.Diagnostic

-- What a lexer needs of patterns: that texts are compiled, and that what has been
-- compiled is matched at a position of a text.

namespace ExprLang

-- Why a text is not compiled. It is no pattern, for a reason that can be told, or
-- compiling it fails in some other way.
inductive CompileFault where
  | malformed (reason : String)
  | raised (exception : String)
deriving DecidableEq

-- Compiled patterns of some kind. What comes of compiling a text depends on the text
-- alone, and a match is what begins at the position where it is asked for.
class PatternEngine (α : Type) where
  compile : String → Except CompileFault α
  matchText? : α → List Char → Nat → Option (List Char)
  prefix_of_matchText? : ∀ {pattern : α} {subject : List Char} {position : Nat} {text : List Char},
    matchText? pattern subject position = some text → text <+: subject.drop position

structure PatternError where
  pattern : String
  reason : String
deriving DecidableEq

def PatternError.diagnostic (e : PatternError) : Diagnostic where
  message := "Invalid lexer pattern: " ++ Text.quoted e.pattern
  location? := some ⟨"<rules>", 0, 0, 0⟩
  severity := "error"
  code? := some "L001"
  help? := some e.reason
  suggestions? := none

-- A text that is no pattern is reported with its reason. Any other failure passes
-- through as it is.
inductive PatternFault where
  | malformed (e : PatternError)
  | raised (exception : String)
deriving DecidableEq

def CompileFault.report (text : String) : CompileFault → PatternFault
  | malformed reason => .malformed ⟨text, reason⟩
  | raised exception => .raised exception

def PatternEngine.ofText (α : Type) [PatternEngine α] (text : String) : Except PatternFault α :=
  (compile text).mapError (·.report text)

end ExprLang
