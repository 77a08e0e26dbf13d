import ExprLang.Double.Numeral
import ExprLang.Text.DecimalDigit

-- The number that a lexeme starts with.

namespace ExprLang

-- The decimal digits at the front, of any scripts, and what follows them.
def splitDecimalDigits : List Char → List Nat × List Char
  | [] => ([], [])
  | c :: rest =>
    match Text.decimalDigit? c with
    | none => ([], c :: rest)
    | some digit =>
      let (digits, rest) := splitDecimalDigits rest
      (digit :: digits, rest)

-- Digits before and after the point of the longest numeral at the front.
def numeralAt? (cs : List Char) : Option (List Nat × List Nat) :=
  let (whole, rest) := splitDecimalDigits cs
  let fraction := match rest with
    | '.' :: rest => (splitDecimalDigits rest).1
    | _ => []
  if whole = [] ∧ fraction = [] then none else some (whole, fraction)

-- Whatever follows the numeral is ignored, and without one the number is zero.
def parseNumber (lexeme : String) : Double :=
  match numeralAt? lexeme.toList with
  | none => .ofRank false 0
  | some (whole, fraction) =>
    .ofDecimal false (Double.ofDigits (whole ++ fraction)) (-(fraction.length : Int))

end ExprLang
