import ExprLang.Lexer.Rule
import ExprLang.Pattern.Cache
import ExprLang.Pattern.Reader

-- From a source to its tokens, by an ordered list of rules.

namespace ExprLang

-- Line and column behind a character.
def advancePlace (place : Nat × Nat) (c : Char) : Nat × Nat :=
  if c = '\n' then (place.1 + 1, 1) else (place.1, place.2 + 1)

-- `tokens` are those of the last whole run.
structure Lexer where
  source : List Char
  file : String
  rules : List Rule
  position : Nat
  line : Nat
  column : Nat
  tokens : List Token
deriving DecidableEq

namespace Lexer

inductive Fault where
  | badPattern (fault : PatternFault)
  -- There is no character left to make a token of.
  | pastEnd
deriving DecidableEq

variable {α : Type} [PatternEngine α]

def start (source : String) (file : String) (rules : List Rule) : Lexer :=
  ⟨source.toList, file, rules, 0, 1, 1, []⟩

-- The patterns of all rules are compiled before the first character is looked at.
-- The cache keeps what came before a pattern that is not compiled.
def new (source file : String) (rules : List Rule) (cache : PatternCache α) :
    PatternCache α × Except PatternFault Lexer :=
  match cache.compileAll (rules.map (·.pattern)) with
  | (cache, none) => (cache, .ok (start source file rules))
  | (cache, some fault) => (cache, .error fault)

def location (lexer : Lexer) : Location :=
  ⟨lexer.file, lexer.line, lexer.column, lexer.position⟩

-- The first rule with a match that is not empty, and the text it matches.
def firstMatch? (source : List Char) (position : Nat) (cache : PatternCache α) :
    List Rule → Except PatternFault (Option (Rule × List Char) × PatternCache α)
  | [] => .ok (none, cache)
  | rule :: rest => do
    match ← cache.matchText? rule.pattern source position with
    | (some (c :: text), cache) => return (some (rule, c :: text), cache)
    | (_, cache) => firstMatch? source position cache rest

-- The token here, or none if the text is skipped, and the length of its text.
-- A character that no rule takes is a token by itself.
def next (lexer : Lexer) (cache : PatternCache α) :
    Except Fault ((Option Token × Nat) × PatternCache α) :=
  match firstMatch? lexer.source lexer.position cache lexer.rules with
  | .error fault => .error (.badPattern fault)
  | .ok (some (rule, text), cache) =>
    .ok ((rule.action.token? (String.ofList text), text.length), cache)
  | .ok (none, cache) =>
    match lexer.source.drop lexer.position with
    | c :: _ => .ok ((some (otherToken (String.singleton c)), 1), cache)
    | [] => .error .pastEnd

-- The position may go past the end; line and column stay with the characters
-- that there are.
def advance (lexer : Lexer) (count : Nat) : Lexer :=
  let place := ((lexer.source.drop lexer.position).take count).foldl advancePlace
    (lexer.line, lexer.column)
  { lexer with position := lexer.position + count, line := place.1, column := place.2 }

-- Going on in two steps or in one leads to the same place.
theorem advance_advance (lexer : Lexer) (m n : Nat) :
    (lexer.advance m).advance n = lexer.advance (m + n) := by
  simp only [advance, Nat.add_assoc, List.take_add, List.foldl_append, List.drop_drop]

def restart (lexer : Lexer) : Lexer :=
  { lexer with position := 0, line := 1, column := 1, tokens := [] }

-- The tokens from here on. Every token and every skipped text takes a
-- character at least, so the length of the source bounds the steps.
def tokensFrom :
    Nat → Lexer → PatternCache α → Except Fault ((List Token × Lexer) × PatternCache α)
  | 0, lexer, cache => .ok (([], lexer), cache)
  | bound + 1, lexer, cache =>
    if lexer.position < lexer.source.length then do
      let ((token?, length), cache) ← lexer.next cache
      let ((tokens, last), cache) ← tokensFrom bound (lexer.advance length) cache
      return (((token?.map (·.withLocation (some lexer.location))).toList ++ tokens, last), cache)
    else .ok (([], lexer), cache)

-- All tokens of the source, whatever was done before.
def tokenize (lexer : Lexer) (cache : PatternCache α) : Except Fault (Lexer × PatternCache α) := do
  let ((tokens, last), cache) ← tokensFrom lexer.source.length lexer.restart cache
  return ({ last with tokens }, cache)

end Lexer

-- The tokens of a source by the rules of the language.
def tokenizeWith {α : Type} [PatternEngine α] (source file : String) (cache : PatternCache α) :
    PatternCache α × Except Lexer.Fault (List Token) :=
  match Lexer.new source file Rule.defaults cache with
  | (cache, .error fault) => (cache, .error (.badPattern fault))
  | (cache, .ok lexer) =>
    match lexer.tokenize cache with
    | .error fault => (cache, .error fault)
    | .ok (lexer, cache) => (cache, .ok lexer.tokens)

def tokenize (source file : String) : Except Lexer.Fault (List Token) :=
  (tokenizeWith source file (.empty : PatternCache Pattern)).2

-- A source with these tokens: their lexemes, a space between two of them.
def untokenize (tokens : List Token) : String :=
  " ".intercalate ((tokens.filter fun t => t.kind ≠ .endOfInput).map (·.lexeme))

end ExprLang
