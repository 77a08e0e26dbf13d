import ExprLang.Parser.Basic

-- A parser that is moved by hand, one production at a time.

namespace ExprLang.Parser

inductive Command where
  | program
  | peek
  | advance
  | check (kind : TokenKind)
  | seek (cursor : Nat)
  | setPrecedence (table : PrecedenceTable)
  | currentPrecedence
  | endLocation
  | definition
  | bareExpression
  | prototype
  | expression
  | primary
  | number
  | parens
  | identifier
  | binaryOp (left : Node) (least : Int)
deriving DecidableEq

inductive Answer where
  | program (definitions : List Definition)
  | token (token : Token)
  | check (holds : Bool)
  | precedence (level : Int)
  | location (location : Location)
  | node (node : Node)
  | done
deriving DecidableEq

-- A parser and where it stands.
structure Session where
  parser : Parser
  cursor : Nat

private def answer (p : Parser) : Command → Run Answer
  | .program => return .program (← p.program)
  | .peek => return .token (← p.peek)
  | .advance => return .token (← p.advance)
  | .check kind => return .check (← p.check kind)
  | .seek cursor => do
    set cursor
    return .done
  | .setPrecedence _ => return .done
  | .currentPrecedence => return .precedence (← p.currentPrecedence)
  | .endLocation => return .location p.endLocation
  | .definition => return .node (← p.definition depthLimit).node
  | .bareExpression => return .node (← p.bareExpression depthLimit).node
  | .prototype => return .node (.prototype (← p.prototype))
  | .expression => return .node (← p.expression depthLimit)
  | .primary => return .node (← p.primary depthLimit)
  | .number => return .node (← p.number)
  | .parens => return .node (← p.parens depthLimit)
  | .identifier => return .node (← p.identifier depthLimit)
  | .binaryOp left least => return .node (← p.binaryOp depthLimit left least)

-- A new table holds for all that follows.
def Session.step (s : Session) (command : Command) : Session × Except SyntaxFault Answer :=
  let parser := match command with
    | .setPrecedence table => { s.parser with precedence := table }
    | _ => s.parser
  match parser.answer command s.cursor with
  | .ok answer cursor => (⟨parser, cursor⟩, .ok answer)
  | .error fault cursor => (⟨parser, cursor⟩, .error fault)

end ExprLang.Parser
