-- What the program calls itself, and the program that it shows by default.

namespace ExprLang.Release

def program : String := "kaleidoscope"

def version : String := "0.1.0"

def demo : String := "def foo(x, y)\n  x + y * 2 + (4 + 5) / 3\n\nfoo(3, 4)"

end ExprLang.Release
