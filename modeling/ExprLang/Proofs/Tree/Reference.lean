import ExprLang.Tree.Basic

-- The tree of a chain of operators and operands, told without a parser: the
-- rightmost of the loosest operators is the root, and what stands on either
-- side of it is a chain again.

namespace ExprLang

-- An operator, how tightly it binds, and the operand behind it.
structure Link where
  op : String
  level : Int
  operand : Node

-- A chain that is cut at one of its operators.
structure Cut where
  before : List Link
  root : Link
  after : List Link

-- Of the loosest operators the rightmost one is cut out.
def loosestCut? : List Link → Option Cut
  | [] => none
  | link :: rest =>
    match loosestCut? rest with
    | none => some ⟨[], link, []⟩
    | some cut =>
      if link.level < cut.root.level then some ⟨[], link, rest⟩
      else some { cut with before := link :: cut.before }

theorem loosestCut?_eq_none_iff {links : List Link} : loosestCut? links = none ↔ links = [] := by
  cases links with
  | nil => simp [loosestCut?]
  | cons link rest =>
    simp only [loosestCut?, reduceCtorEq, iff_false]
    split
    · simp
    · split <;> simp

theorem eq_append_of_loosestCut? {links : List Link} {cut : Cut}
    (h : loosestCut? links = some cut) : links = cut.before ++ cut.root :: cut.after := by
  induction links generalizing cut with
  | nil => simp [loosestCut?] at h
  | cons link rest ih =>
    simp only [loosestCut?] at h
    split at h
    · rename_i hrest
      obtain rfl := loosestCut?_eq_none_iff.mp hrest
      obtain rfl := Option.some.inj h
      rfl
    · rename_i cut' hrest
      split at h
      · obtain rfl := Option.some.inj h
        rfl
      · obtain rfl := Option.some.inj h
        simpa using ih hrest

-- The root is the loosest operator, and among equals the rightmost.
theorem loosestCut?_loosest {links : List Link} {cut : Cut} (h : loosestCut? links = some cut) :
    (∀ link ∈ cut.before, cut.root.level ≤ link.level) ∧
      ∀ link ∈ cut.after, cut.root.level < link.level := by
  induction links generalizing cut with
  | nil => simp [loosestCut?] at h
  | cons link rest ih =>
    simp only [loosestCut?] at h
    split at h
    · obtain rfl := Option.some.inj h
      simp
    · rename_i cut' hrest
      have hrest' := eq_append_of_loosestCut? hrest
      obtain ⟨hbefore, hafter⟩ := ih hrest
      split at h
      · rename_i hlt
        obtain rfl := Option.some.inj h
        refine ⟨by simp, fun other hother => ?_⟩
        rw [hrest'] at hother
        rcases List.mem_append.mp hother with hmem | hmem
        · exact Int.lt_of_lt_of_le hlt (hbefore other hmem)
        · rcases List.mem_cons.mp hmem with rfl | hmem
          · exact hlt
          · exact Int.lt_trans hlt (hafter other hmem)
      · rename_i hle
        obtain rfl := Option.some.inj h
        refine ⟨fun other hother => ?_, hafter⟩
        rcases List.mem_cons.mp hother with rfl | hmem
        · exact Int.not_lt.mp hle
        · exact hbefore other hmem

-- No other operator is loosest and rightmost.
theorem loosestCut?_append (before : List Link) (root : Link) (after : List Link)
    (hbefore : ∀ link ∈ before, root.level ≤ link.level)
    (hafter : ∀ link ∈ after, root.level < link.level) :
    loosestCut? (before ++ root :: after) = some ⟨before, root, after⟩ := by
  induction before with
  | nil =>
    simp only [List.nil_append, loosestCut?]
    split
    · rename_i hnone
      rw [loosestCut?_eq_none_iff.mp hnone]
    · rename_i cut hcut
      have hmem : cut.root ∈ after := by simp [eq_append_of_loosestCut? hcut]
      rw [if_pos (hafter _ hmem)]
  | cons link before ih =>
    have hlink := hbefore link (by simp)
    have hrest := ih fun other hother => hbefore other (by simp [hother])
    simp only [List.cons_append, loosestCut?, hrest]
    rw [if_neg (by omega)]

-- The tree of a chain that begins with an operand.
def reference (first : Node) (links : List Link) : Node :=
  match _h : loosestCut? links with
  | none => first
  | some cut =>
    .binary cut.root.op (reference first cut.before) (reference cut.root.operand cut.after)
termination_by links.length
decreasing_by
  all_goals
    rw [eq_append_of_loosestCut? _h]
    simp only [List.length_append, List.length_cons]
    omega

@[simp] theorem reference_nil (first : Node) : reference first [] = first := by
  rw [reference]
  rfl

theorem reference_append (first : Node) (before : List Link) (root : Link) (after : List Link)
    (hbefore : ∀ link ∈ before, root.level ≤ link.level)
    (hafter : ∀ link ∈ after, root.level < link.level) :
    reference first (before ++ root :: after) =
      .binary root.op (reference first before) (reference root.operand after) := by
  have hcut := loosestCut?_append before root after hbefore hafter
  rw [reference]
  split
  · rename_i hnone
    simp [hcut] at hnone
  · rename_i cut hsome
    obtain rfl := Option.some.inj (hcut.symm.trans hsome)
    rfl

-- The head of a chain's first part is that of the chain.
private theorem head?_of_append {before after : List Link} {root : Link} {level : Int}
    (h : ∀ other ∈ (before ++ root :: after).head?, other.level ≤ level) :
    ∀ other ∈ before.head?, other.level ≤ level := by
  cases before with
  | nil => simp
  | cons head before => simpa using h

-- An operator that takes all that binds more tightly behind it, and is followed
-- by nothing that does, may be folded first.
theorem reference_fold (first : Node) (link : Link) (inner rest : List Link)
    (hinner : ∀ other ∈ inner, link.level < other.level)
    (hrest : ∀ other ∈ rest.head?, other.level ≤ link.level) :
    reference first (link :: (inner ++ rest)) =
      reference (.binary link.op first (reference link.operand inner)) rest := by
  induction hlength : rest.length using Nat.strongRecOn generalizing rest with
  | ind length ih =>
    cases hcut : loosestCut? rest with
    | none =>
      obtain rfl := loosestCut?_eq_none_iff.mp hcut
      have h := reference_append first [] link inner (by simp) hinner
      simpa using h
    | some cut =>
      obtain ⟨before, root, after⟩ := cut
      obtain rfl := eq_append_of_loosestCut? hcut
      obtain ⟨hbefore, hafter⟩ := loosestCut?_loosest hcut
      -- the root of the rest is no tighter than its first operator
      have hroot : root.level ≤ link.level := by
        cases before with
        | nil => exact hrest root (by simp)
        | cons head before =>
          exact Int.le_trans (hbefore head (by simp)) (hrest head (by simp))
      have hall : ∀ other ∈ link :: (inner ++ before), root.level ≤ other.level := by
        intro other hother
        rcases List.mem_cons.mp hother with rfl | hother
        · exact hroot
        · rcases List.mem_append.mp hother with hmem | hmem
          · exact Int.le_trans hroot (Int.le_of_lt (hinner other hmem))
          · exact hbefore other hmem
      have hshort : before.length < length := by
        rw [← hlength]
        simp
      have hfold := ih before.length hshort before (head?_of_append hrest) rfl
      have hsplit := reference_append first (link :: (inner ++ before)) root after hall hafter
      calc
        reference first (link :: (inner ++ (before ++ root :: after))) =
            reference first (link :: (inner ++ before) ++ root :: after) := by simp
        _ = .binary root.op (reference first (link :: (inner ++ before)))
              (reference root.operand after) := hsplit
        _ = .binary root.op
              (reference (.binary link.op first (reference link.operand inner)) before)
              (reference root.operand after) := by rw [hfold]
        _ = reference (.binary link.op first (reference link.operand inner))
              (before ++ root :: after) :=
          (reference_append _ before root after hbefore hafter).symm

end ExprLang
