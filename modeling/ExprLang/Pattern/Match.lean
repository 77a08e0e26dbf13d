import ExprLang.Pattern.Basic

-- Matching at a position, by trying the choices in their order.

namespace ExprLang

-- What is left of a text while a match goes through it. `atStart` holds where
-- no character of the whole text lies before.
structure Cursor where
  atStart : Bool
  taken : Nat
  rest : List Char
deriving DecidableEq

namespace Cursor

-- A position past the end is the end.
def ofPosition (text : List Char) (position : Nat) : Cursor :=
  ⟨position = 0 || text.isEmpty, 0, text.drop position⟩

end Cursor

namespace Pattern

-- A matcher hands every way to match, in order of preference, to what follows
-- and keeps the first that goes through to the end.
abbrev Continuation := Cursor → Option Nat

-- As many rounds as possible, then fewer. A round that takes nothing is the
-- last one, so the characters left bound the rounds.
def rounds (body : Continuation → Continuation) (next : Continuation) : Nat → Continuation
  | 0, cursor => next cursor
  | bound + 1, cursor =>
    body (fun after =>
      if after.taken = cursor.taken then next after else rounds body next bound after) cursor
      <|> next cursor

-- Rounds that there have to be. They may take nothing.
def times (body : Continuation → Continuation) (next : Continuation) : Nat → Continuation
  | 0, cursor => next cursor
  | count + 1, cursor => body (times body next count) cursor

def run : Pattern → Continuation → Continuation
  | .empty, next, cursor => next cursor
  | .oneOf set, next, cursor =>
    match cursor.rest with
    | [] => none
    | c :: rest => if set.contains c then next ⟨false, cursor.taken + 1, rest⟩ else none
  | .textStart, next, cursor => if cursor.atStart then next cursor else none
  | .textEnd, next, cursor =>
    if cursor.rest = [] ∨ cursor.rest = ['\n'] then next cursor else none
  | .sequence p q, next, cursor => p.run (q.run next) cursor
  | .either p q, next, cursor => p.run next cursor <|> q.run next cursor
  | .repeated least most? p, next, cursor =>
    times p.run (fun after =>
      let bound := match most? with
        | none => after.rest.length
        | some most => most - least
      rounds p.run next bound after) least cursor

-- A star asks for no rounds, and sets them no bound.
theorem run_star (body : Pattern) (next : Continuation) (cursor : Cursor) :
    body.star.run next cursor = rounds body.run next cursor.rest.length cursor := rfl

-- How many characters match here.
def matchLength? (p : Pattern) (cursor : Cursor) : Option Nat :=
  p.run (fun after => some (after.taken - cursor.taken)) cursor

def matchText? (p : Pattern) (cursor : Cursor) : Option (List Char) :=
  (p.matchLength? cursor).map cursor.rest.take

end Pattern

end ExprLang
