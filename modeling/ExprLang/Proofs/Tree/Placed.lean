import ExprLang.Proofs.Tree.Outline

-- Where the nodes of a tree are: the way to a node says which child is taken at each
-- step down from the root. Two nodes that are alike are in different places.

namespace ExprLang.Node

variable {n m : Node} {nodes : List Node} {way : List Nat}

-- The node to which the way leads, unless it leaves the tree.
def nodeAt? : Node → List Nat → Option Node
  | n, [] => some n
  | n, i :: way => n.children[i]?.bind fun child => child.nodeAt? way

-- A place below the child with this number, as it is seen from above the child.
def placedBelow (i : Nat) (item : List Nat × Node) : List Nat × Node := (i :: item.1, item.2)

mutual

-- All the nodes with their places, from the top down and from left to right.
def placed (n : Node) : List (List Nat × Node) :=
  ([], n) :: match n with
    | number _ | var _ | prototype _ => []
    | binary _ left right =>
      left.placed.map (placedBelow 0) ++ right.placed.map (placedBelow 1)
    | call _ arguments => placedAll 0 arguments
    | function head body => head.placed.map (placedBelow 0) ++ body.placed.map (placedBelow 1)

-- Those below some children, of which the first has the number `i`.
def placedAll (i : Nat) : List Node → List (List Nat × Node)
  | [] => []
  | child :: rest => child.placed.map (placedBelow i) ++ placedAll (i + 1) rest

end

theorem placed_eq_cons (n : Node) : n.placed = ([], n) :: placedAll 0 n.children := by
  cases n <;> simp [placed, placedAll, children]

theorem mem_placedAll {i : Nat} {item : List Nat × Node} : item ∈ placedAll i nodes ↔
    ∃ j child below, nodes[j]? = some child ∧ below ∈ child.placed ∧
      item = placedBelow (i + j) below := by
  induction nodes generalizing i with
  | nil => simp [placedAll]
  | cons first rest ih =>
    rw [placedAll, List.mem_append, List.mem_map, ih]
    constructor
    · rintro (⟨below, hbelow, rfl⟩ | ⟨j, child, below, hchild, hbelow, rfl⟩)
      · exact ⟨0, first, below, rfl, hbelow, rfl⟩
      · exact ⟨j + 1, child, below, hchild, hbelow, by rw [Nat.add_right_comm, Nat.add_assoc]⟩
    · rintro ⟨_ | j, child, below, hchild, hbelow, rfl⟩
      · obtain rfl := Option.some.inj hchild
        exact .inl ⟨below, hbelow, rfl⟩
      · refine .inr ⟨j, child, below, hchild, hbelow, ?_⟩
        rw [Nat.add_right_comm, Nat.add_assoc]

-- The places listed are those to which a way leads, each with the node that is there.
theorem mem_placed_iff : (way, m) ∈ n.placed ↔ n.nodeAt? way = some m := by
  induction n using induction_children generalizing way with
  | step n ih =>
    rw [placed_eq_cons, List.mem_cons, mem_placedAll]
    cases way with
    | nil => simp [nodeAt?, placedBelow, eq_comm]
    | cons i way =>
      simp only [nodeAt?, Option.bind_eq_some_iff]
      constructor
      · rintro (htop | ⟨j, child, below, hchild, hbelow, hitem⟩)
        · cases htop
        · rw [Nat.zero_add] at hitem
          cases hitem
          exact ⟨child, hchild, (ih child (List.mem_of_getElem? hchild)).mp hbelow⟩
      · rintro ⟨child, hchild, hway⟩
        have hbelow := (ih child (List.mem_of_getElem? hchild)).mpr hway
        refine .inr ⟨i, child, (way, m), hchild, hbelow, ?_⟩
        rw [Nat.zero_add]
        rfl

-- Places are in the order of their ways, letter by letter as in a dictionary.
theorem pairwise_placed :
    (∀ n : Node, n.placed.Pairwise fun item item' => item.1 < item'.1) ∧
      ∀ (nodes : List Node) (i : Nat),
        (placedAll i nodes).Pairwise fun item item' => item.1 < item'.1 := by
  apply induction_forest
  · intro n hchildren
    rw [placed_eq_cons, List.pairwise_cons]
    refine ⟨fun item hitem => ?_, hchildren 0⟩
    obtain ⟨j, child, below, -, -, rfl⟩ := mem_placedAll.mp hitem
    exact List.nil_lt_cons _ _
  · exact fun i => .nil
  · intro child nodes hchild hnodes i
    rw [placedAll, List.pairwise_append, List.pairwise_map]
    refine ⟨hchild.imp fun h => ?_, hnodes (i + 1), ?_⟩
    · exact List.cons_lt_cons_iff.mpr (.inr ⟨rfl, h⟩)
    · intro item hitem item' hitem'
      obtain ⟨below, -, rfl⟩ := List.mem_map.mp hitem
      obtain ⟨j, other, below', -, -, rfl⟩ := mem_placedAll.mp hitem'
      exact List.cons_lt_cons_iff.mpr (.inl (by omega))

-- A node is as deep as its way is long.
theorem outlines_eq_placed :
    (∀ (n : Node) (depth : Nat),
        n.outline depth = n.placed.map fun item => (depth + item.1.length, item.2)) ∧
      ∀ (nodes : List Node) (i depth : Nat), nodes.flatMap (outline (depth + 1)) =
        (placedAll i nodes).map fun item => (depth + item.1.length, item.2) := by
  apply induction_forest
  · intro n hchildren depth
    rw [outline_eq_cons, placed_eq_cons, hchildren 0 depth]
    rfl
  · exact fun i depth => rfl
  · intro child nodes hchild hnodes i depth
    rw [List.flatMap_cons, hchild, hnodes (i + 1), placedAll, List.map_append, List.map_map]
    simp [placedBelow, Nat.add_assoc, Nat.add_comm 1]

theorem map_snd_placed (n : Node) : n.placed.map Prod.snd = n.walk := by
  rw [← n.map_snd_outline 0, outlines_eq_placed.1 n, List.map_map]
  rfl

end ExprLang.Node
