import ExprLang.Proofs.Text.Joined
import ExprLang.Tree.Printer

-- A tree as the list of its nodes, each with its depth, in the order in which
-- they are walked. That is what the printer writes, an entry for each.

namespace ExprLang

namespace Node

variable {n : Node}

mutual

def outline (depth : Nat) (n : Node) : List (Nat × Node) :=
  (depth, n) :: match n with
    | number _ | var _ | prototype _ => []
    | binary _ left right => left.outline (depth + 1) ++ right.outline (depth + 1)
    | call _ arguments => outlineAll (depth + 1) arguments
    | function head body => head.outline (depth + 1) ++ body.outline (depth + 1)

def outlineAll (depth : Nat) : List Node → List (Nat × Node)
  | [] => []
  | n :: rest => n.outline depth ++ outlineAll depth rest

end

theorem outlineAll_eq_flatMap (depth : Nat) (nodes : List Node) :
    outlineAll depth nodes = nodes.flatMap (outline depth) := by
  induction nodes with
  | nil => rfl
  | cons n nodes ih => rw [outlineAll, ih, List.flatMap_cons]

theorem outline_eq_cons (depth : Nat) (n : Node) :
    n.outline depth = (depth, n) :: n.children.flatMap (outline (depth + 1)) := by
  cases n <;> simp [outline, children, outlineAll_eq_flatMap]

theorem sizeOf_lt_of_mem_children {child : Node} (h : child ∈ n.children) :
    sizeOf child < sizeOf n := by
  cases n with
  | number | var | prototype => cases h
  | call callee arguments =>
    have hlt := List.sizeOf_lt_of_mem (show child ∈ arguments from h)
    simp only [call.sizeOf_spec]
    omega
  | binary | function =>
    simp only [children, List.mem_cons, List.not_mem_nil, or_false] at h
    rcases h with rfl | rfl <;> simp only [binary.sizeOf_spec, function.sizeOf_spec] <;> omega

-- What holds of a node if it holds of its children holds of every node.
theorem induction_children {motive : Node → Prop}
    (step : ∀ n : Node, (∀ child ∈ n.children, motive child) → motive n) (n : Node) : motive n :=
  step n fun child hchild =>
    have := sizeOf_lt_of_mem_children hchild
    induction_children step child
termination_by sizeOf n

-- What goes over from the children of a node to the node, and from a first tree and
-- those beside it to all of them, holds of every tree and of trees side by side.
theorem induction_forest {P : Node → Prop} {Q : List Node → Prop}
    (hnode : ∀ n : Node, Q n.children → P n) (hnil : Q [])
    (hcons : ∀ (n : Node) (nodes : List Node), P n → Q nodes → Q (n :: nodes)) :
    (∀ n, P n) ∧ ∀ nodes, Q nodes := by
  have hforest (nodes : List Node) (h : ∀ n ∈ nodes, P n) : Q nodes := by
    induction nodes with
    | nil => exact hnil
    | cons n nodes ih =>
      obtain ⟨hn, hnodes⟩ := List.forall_mem_cons.mp h
      exact hcons n nodes hn (ih hnodes)
  have htree (n : Node) : P n := by
    induction n using induction_children with
    | step n ih => exact hnode n (hforest n.children ih)
  exact ⟨htree, fun nodes => hforest nodes fun n _ => htree n⟩

theorem map_snd_outline (n : Node) (depth : Nat) : (n.outline depth).map Prod.snd = n.walk := by
  induction n using induction_children generalizing depth with
  | step n ih =>
    rw [outline_eq_cons, walk_eq_cons, List.map_cons, List.map_flatMap]
    exact congrArg (n :: ·) (List.flatMap_congr fun child hchild => ih child hchild (depth + 1))

end Node

namespace Printer

-- A node's line behind the indentation for its depth.
def entry (indent : String) (item : Nat × Node) : String :=
  String.join (List.replicate item.1 indent) ++ item.2.line

-- A printer that writes these nodes and goes on where it was.
def wrote (p : Printer) (items : List (Nat × Node)) : Printer :=
  { p with lines := p.lines ++ (items.map (entry p.indent)).toArray }

variable (p : Printer)

theorem wrote_nil : p.wrote [] = p := by simp [wrote]

theorem wrote_append (first second : List (Nat × Node)) :
    (p.wrote first).wrote second = p.wrote (first ++ second) := by
  simp [wrote, Array.append_assoc]

theorem shallower_wrote_deeper (items : List (Nat × Node)) :
    (p.deeper.wrote items).shallower = p.wrote items := rfl

-- Going deeper and back makes no difference where there are no children.
theorem visit_eq (n : Node) :
    p.visit n = ((p.wrote [(p.depth, n)]).deeper.visitAll n.children).shallower := by
  cases n <;> simp [visit, visitAll, Node.children, emit, wrote, deeper, shallower, entry]

theorem visits_eq_wrote :
    (∀ (n : Node) (p : Printer), p.visit n = p.wrote (n.outline p.depth)) ∧
      ∀ (nodes : List Node) (p : Printer),
        p.visitAll nodes = p.wrote (nodes.flatMap (Node.outline p.depth)) := by
  apply Node.induction_forest
  · intro n hchildren p
    rw [visit_eq, hchildren, shallower_wrote_deeper, wrote_append, Node.outline_eq_cons]
    rfl
  · intro p
    simp [visitAll, wrote_nil]
  · intro n nodes hn hnodes p
    rw [visitAll, hn, hnodes, List.flatMap_cons]
    exact p.wrote_append _ _

-- What a printer holds of earlier trees is forgotten.
theorem render_eq (n : Node) :
    p.render n = ("\n".intercalate ((n.outline 0).map (entry p.indent)),
      ⟨p.indent, 0, ((n.outline 0).map (entry p.indent)).toArray⟩) := by
  simp only [render, visits_eq_wrote.1 n, wrote, Array.empty_append]

theorem renderAll_fst (nodes : List Node) :
    (p.renderAll nodes).1 = nodes.map fun n => ((new p.indent).render n).1 := by
  induction nodes generalizing p with
  | nil => rfl
  | cons n nodes ih =>
    simp only [renderAll, render_eq, ih, List.map_cons]
    rfl

-- The text of a tree with a line feed behind it is that of its lines.
theorem render_append_newline (n : Node) :
    (p.render n).1 ++ "\n" =
      String.join ((n.outline 0).map fun item => entry p.indent item ++ "\n") := by
  have hne : (n.outline 0).map (entry p.indent) ≠ [] := by
    rw [Node.outline_eq_cons]
    simp
  rw [render_eq, Text.intercalate_append hne, List.map_map]
  rfl

end Printer

end ExprLang
