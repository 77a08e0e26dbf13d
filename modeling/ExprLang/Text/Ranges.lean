-- Sets of code points given by their ranges.

namespace ExprLang.Text

-- Closed ranges of code points.
abbrev Ranges := List (Nat × Nat)

namespace Ranges

def contains (ranges : Ranges) (code : Nat) : Bool :=
  ranges.any fun (first, last) => first ≤ code && code ≤ last

-- What ranges in increasing order leave out from a code point on.
def gaps (start : Nat) : Ranges → Ranges
  | [] => [(start, 0x10FFFF)]
  | (first, last) :: rest =>
    if start < first then (start, first - 1) :: gaps (last + 1) rest else gaps (last + 1) rest

end Ranges

end ExprLang.Text
