import ExprLang.Proofs.Tree.Placed
import ExprLang.Tree.Visitor

-- A printer as a visitor, which looks up what to do with a node by its kind and
-- refuses a node of a kind that it does not know. The printer knows all kinds, so
-- what it writes is the walk through the tree, an entry for each node.

namespace ExprLang

namespace Visitor

def knows (v : Visitor) (n : Node) : Bool := v.handles.contains n.kind

-- A visit of these nodes comes to its result unless there is one to refuse.
def settle {α : Type} (v : Visitor) (nodes : List Node) (result : α) : Except String α :=
  match nodes.find? fun n => !v.knows n with
  | none => .ok result
  | some n => .error (v.refusal n.kind)

variable {v : Visitor} {α β : Type}

theorem settle_of_knows {nodes : List Node} (h : ∀ n ∈ nodes, v.knows n = true) (result : α) :
    v.settle nodes result = .ok result := by
  have hnone : nodes.find? (fun n => !v.knows n) = none := by
    simpa using h
  rw [settle, hnone]

theorem settle_cons (n : Node) (nodes : List Node) (result : α) :
    v.settle (n :: nodes) result =
      if v.knows n then v.settle nodes result else .error (v.refusal n.kind) := by
  unfold settle
  rw [List.find?_cons]
  cases v.knows n <;> rfl

-- The first node to be refused ends the visit, wherever the result comes from.
theorem settle_bind (first second : List Node) (a : α) (f : α → β) :
    (v.settle first a >>= fun a => v.settle second (f a)) =
      v.settle (first ++ second) (f a) := by
  induction first with
  | nil => rfl
  | cons n first ih =>
    rw [List.cons_append, settle_cons, settle_cons]
    split
    · exact ih
    · rfl

theorem settle_map (nodes : List Node) (a : α) (f : α → β) :
    (v.settle nodes a >>= fun a => pure (f a)) = v.settle nodes (f a) := by
  have hbind := settle_bind (v := v) nodes [] a f
  rwa [List.append_nil] at hbind

end Visitor

namespace Printer

mutual

-- Prints a node if the visitor has a way to do so, and refuses it otherwise.
def visitBy (v : Visitor) (p : Printer) (node : Node) : Except String Printer :=
  if v.knows node then do
    let p := p.emit node.line
    match node with
    | .number _ | .var _ | .prototype _ => return p
    | .binary _ left right => return (← (← p.deeper.visitBy v left).visitBy v right).shallower
    | .call _ arguments => return (← p.deeper.visitAllBy v arguments).shallower
    | .function head body => return (← (← p.deeper.visitBy v head).visitBy v body).shallower
  else .error (v.refusal node.kind)

def visitAllBy (v : Visitor) (p : Printer) : List Node → Except String Printer
  | [] => return p
  | node :: rest => do (← p.visitBy v node).visitAllBy v rest

end

section Visits

variable {v : Visitor} (p : Printer)

theorem wrote_self (n : Node) : p.wrote [(p.depth, n)] = p.emit n.line := by
  simp [wrote, emit, entry]

theorem visitBy_eq (v : Visitor) (n : Node) : p.visitBy v n =
    if v.knows n then
      (p.emit n.line).deeper.visitAllBy v n.children >>= fun printer => pure printer.shallower
    else .error (v.refusal n.kind) := by
  rw [visitBy]
  cases n <;> simp only [Node.children, visitAllBy, bind_assoc, pure_bind, bind_pure] <;> rfl

-- A printer that refuses nothing goes on as one that does not look up anything, and
-- the first node in the walk that is refused ends the visit.
theorem visitsBy_eq_settle (v : Visitor) :
    (∀ (n : Node) (p : Printer), p.visitBy v n = v.settle n.walk (p.visit n)) ∧
      ∀ (nodes : List Node) (p : Printer),
        p.visitAllBy v nodes = v.settle (nodes.flatMap Node.walk) (p.visitAll nodes) := by
  apply Node.induction_forest
  · intro n hchildren p
    rw [visitBy_eq, hchildren, Visitor.settle_map, Node.walk_eq_cons, Visitor.settle_cons, visit_eq,
      wrote_self]
  · exact fun p => rfl
  · intro n nodes hn hnodes p
    rw [visitAllBy, hn, List.flatMap_cons, visitAll]
    simp only [hnodes]
    exact Visitor.settle_bind _ _ _ fun (printer : Printer) => printer.visitAll nodes

end Visits

-- The kinds of nodes that a printer has lines for.
def visitor : Visitor where
  name := "TreePrinter"
  handles := [.number, .var, .binaryOp, .call, .prototype, .function]
  fallback := .refuse

theorem visitor_knows (n : Node) : visitor.knows n = true := by
  cases n <;> rfl

def renderBy (v : Visitor) (p : Printer) (node : Node) : Except String (String × Printer) := do
  let printer ← { p with depth := 0, lines := #[] }.visitBy v node
  return ("\n".intercalate printer.lines.toList, printer)

theorem renderBy_eq_settle (v : Visitor) (p : Printer) (n : Node) :
    p.renderBy v n = v.settle n.walk (p.render n) := by
  rw [renderBy, (visitsBy_eq_settle v).1]
  exact Visitor.settle_map n.walk _ fun (printer : Printer) =>
    ("\n".intercalate printer.lines.toList, printer)

-- Whatever the printer was used for before, it writes an entry for each node, in the
-- order of the walk and as far to the right as the node's way from the root is long.
-- It ends where it began, at depth zero, and has refused nothing, and so it prints
-- one tree after another as a new printer prints each of them.
theorem render_eq_walk (p : Printer) (n : Node) (nodes : List Node) :
    (p.render n).1 = "\n".intercalate (n.placed.map fun item =>
        String.join (List.replicate item.1.length p.indent) ++ item.2.line) ∧
      n.placed.map Prod.snd = n.walk ∧
      (∀ way m, (way, m) ∈ n.placed ↔ n.nodeAt? way = some m) ∧
      (n.placed.Pairwise fun item item' => item.1 < item'.1) ∧
      (p.render n).2.depth = 0 ∧
      p.renderBy visitor n = .ok (p.render n) ∧
      (p.renderAll nodes).1 = nodes.map fun m => ((new p.indent).render m).1 := by
  refine ⟨?_, n.map_snd_placed, fun way m => Node.mem_placed_iff, Node.pairwise_placed.1 n, ?_, ?_,
    p.renderAll_fst nodes⟩
  · rw [render_eq, Node.outlines_eq_placed.1 n, List.map_map]
    simp only [Function.comp_def, entry, Nat.zero_add]
  · rw [render_eq]
  · rw [renderBy_eq_settle]
    exact Visitor.settle_of_knows (fun m _ => visitor_knows m) _

end Printer

end ExprLang
