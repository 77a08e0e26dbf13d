import ExprLang.Tree.Basic

-- Trees on one line.

namespace ExprLang

-- What a node is called in texts and messages.
def NodeKind.label (kind : NodeKind) : String := kind.name ++ "Node"

-- A row of values between parentheses. A single one is followed by a comma.
private def rowText : List String → String
  | [] => "()"
  | [item] => "(" ++ item ++ ",)"
  | items => "(" ++ ", ".intercalate items ++ ")"

def Prototype.text (p : Prototype) : String :=
  "PrototypeNode(name: " ++ p.name.plain ++ ", argumentNames: [" ++
    ", ".intercalate (p.parameters.map Value.plain) ++ "])"

def Prototype.fullText (p : Prototype) : String :=
  "PrototypeNode(name=" ++ p.name.shown ++ ", argument_names=" ++
    rowText (p.parameters.map Value.shown) ++ ")"

namespace Node

mutual

def text : Node → String
  | number value => "NumberNode(" ++ value.plain ++ ")"
  | var name => "VariableNode(" ++ name.plain ++ ")"
  | binary op left right =>
    "BinaryOpNode(" ++ op ++ ", lhs: " ++ left.text ++ ", rhs: " ++ right.text ++ ")"
  | call callee arguments =>
    "CallNode(name: " ++ callee.plain ++ ", arguments: [" ++
      ", ".intercalate (texts arguments) ++ "])"
  | prototype p => p.text
  | function head body =>
    "FunctionNode(prototype: " ++ head.text ++ ", body: " ++ body.text ++ ")"

def texts : List Node → List String
  | [] => []
  | n :: rest => n.text :: texts rest

end

-- What the texts are put together from, for those that the simplifier would be too
-- long in finding by itself.
section Equations

theorem text_number (value : Value) : (number value).text = "NumberNode(" ++ value.plain ++ ")" :=
  rfl

theorem text_var (name : Value) : (var name).text = "VariableNode(" ++ name.plain ++ ")" := rfl

theorem text_binary (op : String) (left right : Node) : (binary op left right).text =
    "BinaryOpNode(" ++ op ++ ", lhs: " ++ left.text ++ ", rhs: " ++ right.text ++ ")" := rfl

theorem text_call (callee : Value) (arguments : List Node) : (call callee arguments).text =
    "CallNode(name: " ++ callee.plain ++ ", arguments: [" ++
      ", ".intercalate (texts arguments) ++ "])" := rfl

theorem text_prototype (p : Prototype) : (prototype p).text =
    "PrototypeNode(name: " ++ p.name.plain ++ ", argumentNames: [" ++
      ", ".intercalate (p.parameters.map Value.plain) ++ "])" := rfl

theorem text_function (head body : Node) : (function head body).text =
    "FunctionNode(prototype: " ++ head.text ++ ", body: " ++ body.text ++ ")" := rfl

theorem texts_cons (n : Node) (rest : List Node) : texts (n :: rest) = n.text :: texts rest := rfl

end Equations

mutual

def fullText : Node → String
  | number value => "NumberNode(value=" ++ value.shown ++ ")"
  | var name => "VariableNode(name=" ++ name.shown ++ ")"
  | binary op left right =>
    "BinaryOpNode(op=" ++ Text.quoted op ++ ", lhs=" ++ left.fullText ++ ", rhs=" ++
      right.fullText ++ ")"
  | call callee arguments =>
    "CallNode(callee=" ++ callee.shown ++ ", arguments=" ++ rowText (fullTexts arguments) ++ ")"
  | prototype p => p.fullText
  | function head body =>
    "FunctionNode(prototype=" ++ head.fullText ++ ", body=" ++ body.fullText ++ ")"

def fullTexts : List Node → List String
  | [] => []
  | n :: rest => n.fullText :: fullTexts rest

end

end Node

end ExprLang
