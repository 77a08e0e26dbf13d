import ExprLang.Tree.Basic

-- Trees as indented text, a line for each node.

namespace ExprLang

-- A name, or what stands in the place of an empty or missing one.
def Value.nameOrAnonymous : Value → String
  | .absent => "<anonymous>"
  | .text s => if s = "" then "<anonymous>" else s
  | .number x => if x.rank = 0 then "<anonymous>" else x.text

-- What a node's line says behind the indentation.
def Node.line : Node → String
  | .number value => "Number " ++ value.plain
  | .var name => "Variable " ++ name.plain
  | .binary op _ _ => "BinaryOp " ++ op
  | .call callee _ => "Call " ++ callee.plain
  | .prototype p =>
    "Prototype " ++ p.name.nameOrAnonymous ++ "(" ++
      ", ".intercalate (p.parameters.map Value.plain) ++ ")"
  | .function _ _ => "Function"

-- A printer at work: how deep it is and what it has written so far.
structure Printer where
  indent : String
  depth : Nat
  lines : Array String
deriving DecidableEq, Inhabited

namespace Printer

def new (indent : String) : Printer := ⟨indent, 0, #[]⟩

def emit (p : Printer) (line : String) : Printer :=
  { p with lines := p.lines.push (String.join (List.replicate p.depth p.indent) ++ line) }

def deeper (p : Printer) : Printer := { p with depth := p.depth + 1 }

def shallower (p : Printer) : Printer := { p with depth := p.depth - 1 }

mutual

def visit (p : Printer) (node : Node) : Printer :=
  let p := p.emit node.line
  match node with
  | .number _ | .var _ | .prototype _ => p
  | .binary _ left right => ((p.deeper.visit left).visit right).shallower
  | .call _ arguments => (p.deeper.visitAll arguments).shallower
  | .function head body => ((p.deeper.visit head).visit body).shallower

def visitAll (p : Printer) : List Node → Printer
  | [] => p
  | node :: rest => (p.visit node).visitAll rest

end

-- Whatever was printed before is forgotten first.
def render (p : Printer) (node : Node) : String × Printer :=
  let printer := { p with depth := 0, lines := #[] }.visit node
  ("\n".intercalate printer.lines.toList, printer)

def renderAll (p : Printer) : List Node → List String × Printer
  | [] => ([], p)
  | node :: rest =>
    let (text, p) := p.render node
    let (texts, p) := p.renderAll rest
    (text :: texts, p)

end Printer

end ExprLang
