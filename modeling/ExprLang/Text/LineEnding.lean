-- Line endings in files and on standard input.

namespace ExprLang.Text

-- A carriage return with its line feed, and one that stands alone, end a line
-- just as a line feed does.
def unifyLineEndings : List Char → List Char
  | '\r' :: '\n' :: rest => '\n' :: unifyLineEndings rest
  | '\r' :: rest => '\n' :: unifyLineEndings rest
  | c :: rest => c :: unifyLineEndings rest
  | [] => []

theorem not_mem_unifyLineEndings (cs : List Char) : '\r' ∉ unifyLineEndings cs := by
  fun_induction unifyLineEndings cs <;> simp_all [eq_comm]

end ExprLang.Text
