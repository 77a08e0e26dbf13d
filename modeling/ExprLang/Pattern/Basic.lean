import ExprLang.Text.Blank
import ExprLang.Text.DecimalDigit
import ExprLang.Text.WordCharacter

-- Patterns: what a rule of the lexer may match.

namespace ExprLang

structure CharSet where
  negated : Bool
  ranges : Text.Ranges
deriving DecidableEq

namespace CharSet

def contains (set : CharSet) (c : Char) : Bool :=
  set.ranges.contains c.toNat != set.negated

def single (c : Char) : CharSet := ⟨false, [(c.toNat, c.toNat)]⟩

-- What the dot stands for.
def notNewline : CharSet := ⟨true, [('\n'.toNat, '\n'.toNat)]⟩

-- The named classes hold characters of all scripts.
def digits : Text.Ranges := Text.decimalDigits

def blanks : Text.Ranges := Text.whiteSpace

def wordCharacters : Text.Ranges := Text.wordCharacters

end CharSet

inductive Pattern where
  | empty
  | oneOf (set : CharSet)
  | textStart
  | textEnd
  | sequence (first second : Pattern)
  | either (first second : Pattern)
  -- As often as possible, up to a bound if there is one.
  | repeated (least : Nat) (most? : Option Nat) (body : Pattern)
deriving DecidableEq

namespace Pattern

def literal (c : Char) : Pattern := .oneOf (.single c)

def optional (body : Pattern) : Pattern := .either body .empty

def star (body : Pattern) : Pattern := .repeated 0 none body

def plus (body : Pattern) : Pattern := .sequence body (.star body)

def sequenceOf : List Pattern → Pattern
  | [] => .empty
  | [p] => p
  | p :: rest => .sequence p (sequenceOf rest)

-- No choice at all is as good as the empty one; a group has at least one.
def choiceOf : List Pattern → Pattern
  | [] => .empty
  | [p] => p
  | p :: rest => .either p (choiceOf rest)

-- Whether the pattern asks for the start of the text anywhere.
def mentionsStart : Pattern → Bool
  | .textStart => true
  | .sequence p q | .either p q => p.mentionsStart || q.mentionsStart
  | .repeated _ _ p => p.mentionsStart
  | .empty | .oneOf _ | .textEnd => false

end Pattern

end ExprLang
