import ExprLang.Double.Shortest

-- How doubles are written and read.

namespace ExprLang.Double

-- The digits of a number, first to last. Zero has none.
def decimalDigits (n : Nat) : List Char :=
  if n = 0 then [] else decimalDigits (n / 10) ++ [Nat.digitChar (n % 10)]

def dropTrailingZeros (digits : List Char) : List Char :=
  (digits.reverse.dropWhile (· = '0')).reverse

-- Sign and at least two digits.
def exponentText (exponent : Int) : List Char :=
  let digits := decimalDigits exponent.natAbs
  (if exponent < 0 then '-' else '+') :: List.replicate (2 - digits.length) '0' ++ digits

-- Positional from 0.0001 up to below 10 ^ 16, with a digit on either side of
-- the point; outside that range one digit, the others after a point, and the
-- exponent.
def layout (digits : List Char) (point : Int) : List Char :=
  if point < -3 ∨ 16 < point then
    match digits with
    | [] => []
    | [d] => d :: 'e' :: exponentText (point - 1)
    | d :: rest => d :: '.' :: rest ++ 'e' :: exponentText (point - 1)
  else if point ≤ 0 then '0' :: '.' :: List.replicate (-point).toNat '0' ++ digits
  else
    let whole := point.toNat
    if digits.length ≤ whole then
      digits ++ List.replicate (whole - digits.length) '0' ++ ['.', '0']
    else digits.take whole ++ '.' :: digits.drop whole

def magnitudeText (x : Double) : List Char :=
  if x.isInfinite then ['i', 'n', 'f']
  else if x.rank = 0 then ['0', '.', '0']
  else
    let decimal := x.shortest
    let digits := decimalDigits decimal.digits
    layout (dropTrailingZeros digits) (digits.length + decimal.exponent)

def text (x : Double) : String :=
  String.ofList (if x.negative then '-' :: x.magnitudeText else x.magnitudeText)

def ofDigits (digits : List Nat) : Nat :=
  digits.foldl (fun n d => 10 * n + d) 0

-- The ASCII digits at the front, and what follows them.
def splitDigits (cs : List Char) : List Nat × List Char :=
  ((cs.takeWhile Char.isDigit).map (·.toNat - 48), cs.dropWhile Char.isDigit)

def readExponent? : List Char → Option Int
  | [] => some 0
  | mark :: rest =>
    let (negative, rest) := match rest with
      | '-' :: rest => (true, rest)
      | '+' :: rest => (false, rest)
      | rest => (false, rest)
    match splitDigits rest with
    | (digits@(_ :: _), []) =>
      if mark = 'e' then
        some (if negative then -(ofDigits digits : Int) else ofDigits digits)
      else none
    | _ => none

-- A value with its first digit far outside the range of doubles is decided
-- without its power of ten, which may be too large to compute.
def ofNumeral (negative : Bool) (digits : Nat) (exponent : Int) : Double :=
  let point := decimalLength digits + exponent
  if digits = 0 ∨ point < -400 then ofRank negative 0
  else if 400 < point then ofRank negative infinityRank
  else ofDecimal negative digits exponent

def readMagnitude? (negative : Bool) (cs : List Char) : Option Double :=
  if cs = ['i', 'n', 'f'] ∨ cs = "infinity".toList then some (ofRank negative infinityRank)
  else
    let (whole, rest) := splitDigits cs
    let (fraction, rest) := match rest with
      | '.' :: rest => splitDigits rest
      | rest => ([], rest)
    if whole = [] ∧ fraction = [] then none
    else (readExponent? rest).map fun exponent =>
      ofNumeral negative (ofDigits (whole ++ fraction)) (exponent - fraction.length)

-- Reads what `text` writes, and every other plain numeral with ASCII digits, a
-- point, an exponent and a sign.
def read? (s : String) : Option Double :=
  match s.toList with
  | '-' :: rest => readMagnitude? true rest
  | '+' :: rest => readMagnitude? false rest
  | cs => readMagnitude? false cs

end ExprLang.Double
