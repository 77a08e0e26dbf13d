import ExprLang.Text.Quoted

-- Places in a source.

namespace ExprLang

-- Lines and columns count from one, the offset from zero, all in characters.
-- A place that is in no source has zeros.
structure Location where
  file : String
  line : Int
  column : Int
  offset : Int
deriving DecidableEq, Inhabited

namespace Location

def text (l : Location) : String :=
  l.file ++ ":" ++ toString l.line ++ ":" ++ toString l.column

def fullText (l : Location) : String :=
  "SourceLocation(" ++ Text.quoted l.file ++ ", " ++ toString l.line ++ ", " ++
    toString l.column ++ ", " ++ toString l.offset ++ ")"

-- Where something ends that starts here and takes so many characters of one line.
def shift (l : Location) (count : Nat) : Location :=
  { l with column := l.column + count, offset := l.offset + count }

theorem shift_shift (l : Location) (m n : Nat) : (l.shift m).shift n = l.shift (m + n) := by
  simp [shift, Int.add_assoc]

end Location

end ExprLang
