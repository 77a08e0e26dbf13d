import ExprLang.Double.Numeral
import ExprLang.Text.Blank
import ExprLang.Text.DecimalDigit

-- The spellings of a numeral, and the plain one to which they all come down.

namespace ExprLang.Double

-- Digits of all scripts are as good as the ASCII ones, and capital letters as
-- good as small ones.
def plainChar (c : Char) : Char :=
  match Text.decimalDigit? c with
  | some digit => Nat.digitChar digit
  | none => c.toLower

-- A single underscore may stand between two digits, where it means nothing.
def ungroup? (afterDigit : Bool) : List Char → Option (List Char)
  | [] => some []
  | '_' :: c :: rest =>
    if afterDigit && c.isDigit then (ungroup? true rest).map (c :: ·) else none
  | c :: rest => if c = '_' then none else (ungroup? c.isDigit rest).map (c :: ·)

def plainSpelling? (s : String) : Option String :=
  (ungroup? false ((Text.trim s.toList).map plainChar)).map String.ofList

-- Reads a numeral in any spelling.
def readAny? (s : String) : Option Double := (plainSpelling? s).bind read?

end ExprLang.Double
