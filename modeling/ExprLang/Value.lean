import ExprLang.Double.Numeral
import ExprLang.Text.Quoted

-- What a token says beyond its kind.

namespace ExprLang

inductive Value where
  | absent
  | text (s : String)
  | number (x : Double)
deriving DecidableEq, Inhabited

namespace Value

-- Equality, with both zeros as one number.
def same : Value → Value → Bool
  | absent, absent => true
  | text s, text t => s = t
  | number x, number y => x.same y
  | _, _ => false

def text? : Value → Option String
  | text s => some s
  | _ => none

-- As it stands in a sentence or a tree.
def plain : Value → String
  | absent => "None"
  | text s => s
  | number x => x.text

-- As it stands in a record, where texts are quoted.
def shown : Value → String
  | absent => "None"
  | text s => Text.quoted s
  | number x => x.text

theorem same_refl (v : Value) : v.same v := by
  cases v <;> simp [same, Double.same_refl]

end Value

end ExprLang
