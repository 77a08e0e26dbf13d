import ExprLang.Proofs.Tree.Outline
import ExprLang.Proofs.Tree.Plain

-- Printed trees can be read again: a line ends at its line feed, its indentation
-- is the depth of a node, and a subtree ends where the depth falls back.

namespace ExprLang

namespace Printer

variable {item item' : Nat × Node}

theorem toList_entry (item : Nat × Node) :
    (entry "  " item).toList = List.replicate (2 * item.1) ' ' ++ item.2.line.toList := by
  have hindent (depth : Nat) :
      (String.join (List.replicate depth "  ")).toList = List.replicate (2 * depth) ' ' := by
    induction depth with
    | zero => rfl
    | succ depth ih =>
      rw [List.replicate_succ, String.join_cons, String.toList_append, ih, Nat.mul_succ,
        Nat.add_comm, List.replicate_add]
      rfl
  rw [entry, String.toList_append, hindent]

-- A line begins with a letter, so all the spaces before it are indentation.
theorem eq_of_entry_eq (h : entry "  " item = entry "  " item') :
    item.1 = item'.1 ∧ item.2.line = item'.2.line := by
  have hlists := congrArg String.toList h
  rw [toList_entry, toList_entry] at hlists
  obtain ⟨hdepth, hline⟩ :=
    Text.replicate_append_inj item.2.head?_line_ne item'.2.head?_line_ne hlists
  exact ⟨by omega, String.toList_inj.mp hline⟩

theorem newline_not_mem_entry (h : item.2.Plain) : '\n' ∉ (entry "  " item).toList := by
  rw [toList_entry, List.mem_append]
  rintro (hmem | hmem)
  · cases List.eq_of_mem_replicate hmem
  · exact Node.newline_not_mem_line h hmem

-- What an entry says of a node.
def label (item : Nat × Node) : Nat × String := (item.1, item.2.line)

theorem map_label_eq_of_join_eq {items items' : List (Nat × Node)}
    (h : ∀ item ∈ items, item.2.Plain) (h' : ∀ item ∈ items', item.2.Plain)
    (heq : String.join (items.map fun item => entry "  " item ++ "\n") =
      String.join (items'.map fun item => entry "  " item ++ "\n")) :
    items.map label = items'.map label := by
  have hmark (items : List (Nat × Node)) (hitems : ∀ item ∈ items, item.2.Plain) :
      ∀ t ∈ items.map (entry "  "), '\n' ∉ t.toList := by
    intro t ht
    obtain ⟨item, hitem, rfl⟩ := List.mem_map.mp ht
    exact newline_not_mem_entry (hitems item hitem)
  have hsep : "\n".toList = '\n' :: [] := rfl
  have hentries : items.map (entry "  ") = items'.map (entry "  ") := by
    refine Text.join_append_inj hsep (hmark items h) (hmark items' h') ?_
    rw [List.map_map, List.map_map]
    exact heq
  have hlabel : Function.FactorsThrough label (entry "  ") := by
    intro item item' hitem
    obtain ⟨hdepth, hline⟩ := eq_of_entry_eq hitem
    exact Prod.ext hdepth hline
  obtain ⟨read, hread⟩ := (Function.factorsThrough_iff label).mp hlabel
  rw [hread, ← List.map_map, ← List.map_map, hentries]

end Printer

namespace Node

open Printer

-- The nodes of some trees side by side, each with its depth.
def outlines (depth : Nat) (nodes : List Node) : List (Nat × Node) :=
  nodes.flatMap (outline depth)

theorem outlines_cons (depth : Nat) (n : Node) (nodes : List Node) :
    outlines depth (n :: nodes) =
      (depth, n) :: (outlines (depth + 1) n.children ++ outlines depth nodes) := by
  rw [outlines, List.flatMap_cons, outline_eq_cons]
  rfl

-- Nothing at this depth or below it comes first.
def FallsBelow (depth : Nat) (rest : List (Nat × String)) : Prop :=
  ∀ item ∈ rest.head?, item.1 < depth

theorem FallsBelow.ne_outlines {depth : Nat} {rest rest' : List (Nat × String)}
    (h : FallsBelow depth rest) (n : Node) (nodes : List Node) :
    rest ≠ (outlines depth (n :: nodes)).map label ++ rest' := by
  rintro rfl
  rw [outlines_cons] at h
  exact Nat.lt_irrefl depth (h (label (depth, n)) rfl)

theorem FallsBelow.outlines_append {depth : Nat} {rest : List (Nat × String)}
    (h : FallsBelow depth rest) (nodes : List Node) :
    FallsBelow (depth + 1) ((outlines depth nodes).map label ++ rest) := by
  cases nodes with
  | nil => exact fun item hitem => Nat.lt_succ_of_lt (h item hitem)
  | cons n nodes =>
    rw [outlines_cons]
    intro item hitem
    obtain rfl := Option.some.inj hitem
    exact Nat.lt_succ_self depth

-- Where a subtree ends, and what is in it, follows from the depths and the lines.
theorem eq_of_map_label_eq {nodes nodes' : List Node} {depth : Nat}
    {rest rest' : List (Nat × String)} (hplain : ∀ n ∈ nodes, n.AllPlain)
    (hplain' : ∀ n ∈ nodes', n.AllPlain) (hrest : FallsBelow depth rest)
    (hrest' : FallsBelow depth rest')
    (h : (outlines depth nodes).map label ++ rest = (outlines depth nodes').map label ++ rest') :
    nodes = nodes' ∧ rest = rest' := by
  induction hlength : (outlines depth nodes).length using Nat.strongRecOn
    generalizing nodes nodes' depth rest rest' with
  | ind length ih =>
    cases nodes with
    | nil =>
      cases nodes' with
      | nil => exact ⟨rfl, h⟩
      | cons n' nodes' => exact absurd h (hrest.ne_outlines n' nodes')
    | cons n nodes =>
      cases nodes' with
      | nil => exact absurd h.symm (hrest'.ne_outlines n nodes)
      | cons n' nodes' =>
        obtain ⟨hn, hnodes⟩ := List.forall_mem_cons.mp hplain
        obtain ⟨hn', hnodes'⟩ := List.forall_mem_cons.mp hplain'
        obtain ⟨hfirst, hbelow⟩ := Node.allPlain_iff.mp hn
        obtain ⟨hfirst', hbelow'⟩ := Node.allPlain_iff.mp hn'
        simp only [outlines_cons, List.length_cons, List.length_append] at hlength
        simp only [outlines_cons, List.map_cons, List.map_append, List.cons_append,
          List.append_assoc] at h
        obtain ⟨hlabel, hmore⟩ := List.cons.inj h
        -- first what is below the first tree, then what is beside it
        obtain ⟨hchildren, hbeside⟩ := ih _ (by omega) hbelow hbelow'
          (hrest.outlines_append nodes) (hrest'.outlines_append nodes') hmore rfl
        obtain ⟨rfl, hbehind⟩ := ih _ (by omega) hnodes hnodes' hrest hrest' hbeside rfl
        have hline : n.line = n'.line := congrArg Prod.snd hlabel
        rw [eq_of_line_eq hfirst hfirst' hline hchildren]
        exact ⟨rfl, hbehind⟩

theorem mem_walk_of_mem_outlines {nodes : List Node} {depth : Nat} {item : Nat × Node}
    (h : item ∈ outlines depth nodes) : ∃ n ∈ nodes, item.2 ∈ n.walk := by
  obtain ⟨n, hn, hitem⟩ := List.mem_flatMap.mp h
  refine ⟨n, hn, ?_⟩
  rw [← n.map_snd_outline depth]
  exact List.mem_map_of_mem hitem

-- The text of all the trees, each with a line feed behind it.
def printed (nodes : List Node) : String :=
  String.join (nodes.map fun n => ((Printer.new "  ").render n).1 ++ "\n")

theorem printed_eq (nodes : List Node) :
    printed nodes = String.join ((outlines 0 nodes).map fun item => entry "  " item ++ "\n") := by
  induction nodes with
  | nil => rfl
  | cons n nodes ih =>
    have hfirst := (Printer.new "  ").render_append_newline n
    have hrest : String.join (nodes.map fun n => ((Printer.new "  ").render n).1 ++ "\n") = _ := ih
    rw [printed, List.map_cons, String.join_cons, hfirst, hrest, outlines, outlines,
      List.flatMap_cons, List.map_append, String.join_append]
    rfl

theorem eq_of_printed_eq {nodes nodes' : List Node} (hplain : ∀ n ∈ nodes, n.AllPlain)
    (hplain' : ∀ n ∈ nodes', n.AllPlain) (h : printed nodes = printed nodes') :
    nodes = nodes' := by
  have hitems (nodes : List Node) (hnodes : ∀ n ∈ nodes, n.AllPlain) :
      ∀ item ∈ outlines 0 nodes, item.2.Plain := by
    intro item hitem
    obtain ⟨n, hn, hwalk⟩ := mem_walk_of_mem_outlines hitem
    exact hnodes n hn item.2 hwalk
  rw [printed_eq, printed_eq] at h
  have hlabels := map_label_eq_of_join_eq (hitems nodes hplain) (hitems nodes' hplain') h
  have hnone : FallsBelow 0 [] := by simp [FallsBelow]
  refine (eq_of_map_label_eq hplain hplain' hnone hnone ?_).1
  rw [hlabels]

end Node

end ExprLang
