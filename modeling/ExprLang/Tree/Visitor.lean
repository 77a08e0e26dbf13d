import ExprLang.Tree.Text

-- Visitors that know some kinds of nodes and not others.

namespace ExprLang

-- What happens to a node of a kind that the visitor does not know.
inductive Fallback where
  | descend
  | refuse
deriving DecidableEq

structure Visitor where
  name : String
  handles : List NodeKind
  fallback : Fallback

-- The kinds of the nodes met so far, and the kind that was refused, if any.
structure Visit where
  log : List NodeKind
  refused? : Option NodeKind
deriving DecidableEq

def Visit.start : Visit := ⟨[], none⟩

namespace Visitor

-- Goes on below a node that is neither known nor refused. A visit that has been
-- refused stays as it is.
private def enter (v : Visitor) (kind : NodeKind) (visit : Visit) (below : Visit → Visit) : Visit :=
  if visit.refused?.isSome then visit
  else if v.handles.contains kind then { visit with log := visit.log ++ [kind] }
  else match v.fallback with
    | .descend => below visit
    | .refuse => { visit with refused? := some kind }

mutual

def visitNode (v : Visitor) (visit : Visit) (node : Node) : Visit :=
  v.enter node.kind visit fun visit =>
    match node with
    | .number _ | .var _ | .prototype _ => visit
    | .binary _ left right => v.visitNode (v.visitNode visit left) right
    | .call _ arguments => v.visitAll visit arguments
    | .function head body => v.visitNode (v.visitNode visit head) body

def visitAll (v : Visitor) (visit : Visit) : List Node → Visit
  | [] => visit
  | node :: rest => v.visitAll (v.visitNode visit node) rest

end

def visitNodes (v : Visitor) (nodes : List Node) : Visit :=
  v.visitAll .start nodes

def refusal (v : Visitor) (kind : NodeKind) : String :=
  v.name ++ " has no visitor for " ++ kind.label

end Visitor

end ExprLang
