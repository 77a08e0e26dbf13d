import ExprLang.Proofs.Tree.Plain
import ExprLang.Tree.Text

-- The texts of plain nodes are read in one way only. A text tells where it ends, so
-- those of the children are told apart though nothing in them is quoted: words and
-- numbers have no commas and no brackets, and what is in front of them is fixed.

namespace ExprLang

section Words

variable {v w : Value} {sep : String} {mark : Char} {tail rest rest' : List Char}

theorem Value.IsName.append_inj (hv : v.IsName) (hw : w.IsName) (hsep : sep.toList = mark :: tail)
    (hmark : mark.isAlphanum = false)
    (h : v.plain.toList ++ (sep.toList ++ rest) = w.plain.toList ++ (sep.toList ++ rest')) :
    v = w ∧ rest = rest' := by
  obtain ⟨hplain, hrest⟩ :=
    Text.append_sep_inj hsep (hv.not_mem_plain hmark) (hw.not_mem_plain hmark) h
  exact ⟨hv.eq_of_plain hw (String.toList_inj.mp hplain), hrest⟩

theorem Value.IsCount.append_inj (hv : v.IsCount) (hw : w.IsCount)
    (h : v.plain.toList ++ (")".toList ++ rest) = w.plain.toList ++ (")".toList ++ rest')) :
    v = w ∧ rest = rest' := by
  have hmark : ¬ Double.IsNumeral ')' := by simp [Double.IsNumeral]
  have hfree {u : Value} (hu : u.IsCount) : ')' ∉ u.plain.toList := hu.not_mem hmark (by decide)
  obtain ⟨hplain, hrest⟩ := Text.append_sep_inj rfl (hfree hv) (hfree hw) h
  obtain ⟨x, rfl, -⟩ := hv
  obtain ⟨y, rfl, -⟩ := hw
  exact ⟨congrArg number (Double.text_injective (String.toList_inj.mp hplain)), hrest⟩

theorem IsOperator.append_inj {op op' : String} (hop : IsOperator op) (hop' : IsOperator op')
    (h : op.toList ++ rest = op'.toList ++ rest') : op = op' ∧ rest = rest' := by
  obtain ⟨c, rfl, -⟩ := hop
  obtain ⟨d, rfl, -⟩ := hop'
  rw [String.toList_ofList, String.toList_ofList] at h
  obtain ⟨rfl, hrest⟩ := List.cons.inj h
  exact ⟨rfl, hrest⟩

end Words

namespace Node

variable {m n : Node} {nodes others : List Node} {rest rest' : List Char}

theorem exists_text (n : Node) : ∃ rest, n.text.toList = n.initial :: rest := by
  cases n <;>
    simp [text_number, text_var, text_binary, text_call, text_prototype, text_function, initial]

theorem initial_eq_of_text (h : m.text.toList ++ rest = n.text.toList ++ rest') :
    m.initial = n.initial := by
  obtain ⟨more, hm⟩ := m.exists_text
  obtain ⟨more', hn⟩ := n.exists_text
  rw [hm, hn] at h
  exact (List.cons.inj h).1

theorem prototype_append_inj {p q : Prototype} (hp : p.Plain) (hq : q.Plain)
    (h : (prototype p).text.toList ++ rest = (prototype q).text.toList ++ rest') :
    p = q ∧ rest = rest' := by
  have hbracket : ']' ∉ ", ".toList := by decide
  simp only [text_prototype, String.toList_append, List.append_assoc] at h
  obtain ⟨hname, hmore⟩ := hp.1.append_inj hq.1 rfl rfl (List.append_cancel_left h)
  obtain ⟨hparameters, hrest⟩ := Text.append_sep_inj rfl
    (Value.not_mem_intercalate hp.2 rfl hbracket) (Value.not_mem_intercalate hq.2 rfl hbracket)
    hmore
  have hwords := Value.eq_of_intercalate_eq hp.2 hq.2 (String.toList_inj.mp hparameters)
  cases p
  cases q
  simp_all

-- The text of the tree, whatever comes behind it, tells the tree and where it ends.
def Readable (m : Node) : Prop := ∀ ⦃n : Node⦄ ⦃rest rest' : List Char⦄, n.AllPlain →
  m.text.toList ++ rest = n.text.toList ++ rest' → m = n ∧ rest = rest'

-- The texts of arguments, up to the end of the call, and what comes behind it.
def listed (nodes : List Node) (rest : List Char) : List Char :=
  (", ".intercalate (texts nodes)).toList ++ ("])".toList ++ rest)

theorem listed_nil (rest : List Char) : listed [] rest = "])".toList ++ rest := rfl

-- Behind an argument there is a comma, or the bracket if it is the last one.
theorem listed_cons (n : Node) (nodes : List Node) (rest : List Char) :
    listed (n :: nodes) rest = n.text.toList ++
      if nodes = [] then "])".toList ++ rest else ", ".toList ++ listed nodes rest := by
  cases nodes with
  | nil => rfl
  | cons m nodes =>
    simp only [listed, texts_cons, String.intercalate_cons_cons, String.toList_append,
      List.append_assoc, reduceCtorEq, if_false]

theorem listed_cons_ne_nil (n : Node) (nodes : List Node) (rest rest' : List Char) :
    listed (n :: nodes) rest ≠ listed [] rest' := by
  obtain ⟨more, hn⟩ := n.exists_text
  rw [listed_cons, listed_nil, hn]
  intro heq
  have hbracket : n.initial = ']' := (List.cons.inj heq).1
  cases n <;> cases hbracket

theorem listed_inj (h : ∀ m ∈ nodes, m.Readable) (hothers : ∀ n ∈ others, n.AllPlain)
    (heq : listed nodes rest = listed others rest') : nodes = others ∧ rest = rest' := by
  induction nodes generalizing others with
  | nil =>
    cases others with
    | nil =>
      rw [listed_nil, listed_nil] at heq
      exact ⟨rfl, List.append_cancel_left heq⟩
    | cons n others => exact absurd heq.symm (listed_cons_ne_nil n others rest' rest)
  | cons m nodes ih =>
    cases others with
    | nil => exact absurd heq (listed_cons_ne_nil m nodes rest rest')
    | cons n others =>
      obtain ⟨hm, hnodes⟩ := List.forall_mem_cons.mp h
      obtain ⟨hn, hmore⟩ := List.forall_mem_cons.mp hothers
      rw [listed_cons, listed_cons] at heq
      obtain ⟨rfl, hbehind⟩ := hm hn heq
      -- the mark behind the first argument tells whether there are others
      by_cases hlast : nodes = []
      · by_cases hlast' : others = []
        · rw [if_pos hlast, if_pos hlast'] at hbehind
          rw [hlast, hlast']
          exact ⟨rfl, List.append_cancel_left hbehind⟩
        · rw [if_pos hlast, if_neg hlast'] at hbehind
          cases (List.cons.inj hbehind).1
      · by_cases hlast' : others = []
        · rw [if_neg hlast, if_pos hlast'] at hbehind
          cases (List.cons.inj hbehind).1
        · rw [if_neg hlast, if_neg hlast'] at hbehind
          obtain ⟨rfl, hrest⟩ := ih hnodes hmore (List.append_cancel_left hbehind)
          exact ⟨rfl, hrest⟩

theorem text_call_append (callee : Value) (arguments : List Node) (rest : List Char) :
    (call callee arguments).text.toList ++ rest =
      "CallNode(name: ".toList ++
        (callee.plain.toList ++ (", arguments: [".toList ++ listed arguments rest)) := by
  simp only [text_call, listed, String.toList_append, List.append_assoc]

-- Each kind of node has its own first letter, and then its parts come one by one.
theorem AllPlain.readable (hm : m.AllPlain) : m.Readable := by
  induction m using induction_children with
  | step m ih =>
    intro n rest rest' hn h
    obtain ⟨hmTop, hmBelow⟩ := allPlain_iff.mp hm
    obtain ⟨hnTop, hnBelow⟩ := allPlain_iff.mp hn
    have hchild : ∀ child ∈ m.children, child.Readable := fun child hmem =>
      ih child hmem (hmBelow child hmem)
    have hinitial := initial_eq_of_text h
    cases m, n, hinitial using cases_initial with
    | number v w =>
      simp only [text_number, String.toList_append, List.append_assoc] at h
      obtain ⟨rfl, hrest⟩ := Value.IsCount.append_inj hmTop hnTop (List.append_cancel_left h)
      exact ⟨rfl, hrest⟩
    | var v w =>
      simp only [text_var, String.toList_append, List.append_assoc] at h
      obtain ⟨rfl, hrest⟩ :=
        Value.IsName.append_inj (.inr hmTop) (.inr hnTop) rfl rfl (List.append_cancel_left h)
      exact ⟨rfl, hrest⟩
    | binary op left right op' left' right' =>
      simp only [text_binary, String.toList_append, List.append_assoc] at h
      simp only [children, List.forall_mem_cons] at hchild hnBelow
      obtain ⟨rfl, hoperands⟩ := IsOperator.append_inj hmTop hnTop (List.append_cancel_left h)
      obtain ⟨rfl, hmore⟩ := hchild.1 hnBelow.1 (List.append_cancel_left hoperands)
      obtain ⟨rfl, hrest⟩ := hchild.2.1 hnBelow.2.1 (List.append_cancel_left hmore)
      exact ⟨rfl, List.append_cancel_left hrest⟩
    | call callee arguments callee' arguments' =>
      rw [text_call_append, text_call_append] at h
      obtain ⟨rfl, hlists⟩ :=
        Value.IsName.append_inj (.inr hmTop) (.inr hnTop) rfl rfl (List.append_cancel_left h)
      obtain ⟨rfl, hrest⟩ := listed_inj hchild hnBelow hlists
      exact ⟨rfl, hrest⟩
    | prototype p q =>
      obtain ⟨rfl, hrest⟩ := prototype_append_inj hmTop hnTop h
      exact ⟨rfl, hrest⟩
    | function head body head' body' =>
      simp only [text_function, String.toList_append, List.append_assoc] at h
      simp only [children, List.forall_mem_cons] at hchild hnBelow
      obtain ⟨rfl, hmore⟩ := hchild.1 hnBelow.1 (List.append_cancel_left h)
      obtain ⟨rfl, hrest⟩ := hchild.2.1 hnBelow.2.1 (List.append_cancel_left hmore)
      exact ⟨rfl, List.append_cancel_left hrest⟩

theorem text_eq_iff (hm : m.AllPlain) (hn : n.AllPlain) : m.text = n.text ↔ m = n := by
  refine ⟨fun h => ?_, fun h => congrArg text h⟩
  have hlists : m.text.toList ++ [] = n.text.toList ++ [] := by rw [h]
  exact (hm.readable hn hlists).1

-- A name that is no word may pass for the end of an argument and the start of another.
example : (call (.text "f") [.var (.text "a), VariableNode(b")]).text =
    (call (.text "f") [.var (.text "a"), .var (.text "b")]).text := by
  decide

end Node

end ExprLang
