import ExprLang.Proofs.Double.ReadBack
import ExprLang.Proofs.Lexer.Scanner
import ExprLang.Proofs.Tree.Outline

-- Nodes as they come from sources: their names are words, their numbers are not
-- negative, and their operators are single signs. The line of such a node and its
-- children tell what it is.

namespace ExprLang

open Scanner

-- A letter, and letters and digits behind it.
def Value.IsWord (v : Value) : Prop :=
  ∃ c run, v = .text (String.ofList (c :: run)) ∧ c.isAlpha = true ∧
    ∀ d ∈ run, d.isAlphanum = true

def Value.IsCount (v : Value) : Prop := ∃ x : Double, v = .number x ∧ x.negative = false

def IsOperator (op : String) : Prop := ∃ c, op = String.ofList [c] ∧ isSign c = true

-- The prototype of a bare expression has the empty name.
def Value.IsName (v : Value) : Prop := v = .text "" ∨ v.IsWord

def Prototype.Plain (p : Prototype) : Prop := p.name.IsName ∧ ∀ v ∈ p.parameters, v.IsWord

namespace Node

def Plain : Node → Prop
  | number value => value.IsCount
  | var name => name.IsWord
  | binary op _ _ => IsOperator op
  | call callee _ => callee.IsWord
  | prototype p => p.Plain
  | function _ _ => True

-- The node and everything below it.
def AllPlain (n : Node) : Prop := ∀ m ∈ n.walk, m.Plain

theorem allPlain_iff {n : Node} :
    n.AllPlain ↔ n.Plain ∧ ∀ child ∈ n.children, child.AllPlain := by
  rw [AllPlain, walk_eq_cons, List.forall_mem_cons]
  refine and_congr_right fun _ => ⟨fun h child hchild m hm => ?_, fun h m hm => ?_⟩
  · exact h m (List.mem_flatMap.mpr ⟨child, hchild, hm⟩)
  · obtain ⟨child, hchild, hmem⟩ := List.mem_flatMap.mp hm
    exact h child hchild m hmem

theorem AllPlain.of_mem_walk {m n : Node} (h : n.AllPlain) (hm : m ∈ n.walk) : m.AllPlain := by
  induction n using induction_children with
  | step n ih =>
    rw [walk_eq_cons, List.mem_cons, List.mem_flatMap] at hm
    rcases hm with rfl | ⟨child, hchild, hmem⟩
    · exact h
    · exact ih child hchild ((allPlain_iff.mp h).2 child hchild) hmem

theorem allPlain_of_leaf {n : Node} (h : n.Plain) (hleaf : n.children = []) : n.AllPlain := by
  rw [allPlain_iff, hleaf]
  exact ⟨h, List.forall_mem_nil _⟩

end Node

section Words

variable {v w : Value} {c : Char} {words words' : List Value}

theorem Value.IsWord.isAlphanum (h : v.IsWord) : ∀ d ∈ v.plain.toList, d.isAlphanum = true := by
  obtain ⟨c, run, rfl, hc, hrun⟩ := h
  rw [plain, String.toList_ofList]
  refine List.forall_mem_cons.mpr ⟨?_, hrun⟩
  simp [Char.isAlphanum, hc]

theorem Value.IsWord.not_mem (h : v.IsWord) (hc : c.isAlphanum = false) : c ∉ v.plain.toList := by
  intro hmem
  cases hc.symm.trans (h.isAlphanum c hmem)

theorem Value.IsWord.plain_ne (h : v.IsWord) : v.plain ≠ "" := by
  obtain ⟨c, run, rfl, -⟩ := h
  intro hempty
  have hlist := congrArg String.toList hempty
  rw [plain, String.toList_ofList] at hlist
  cases hlist

theorem Value.IsWord.eq_text (h : v.IsWord) : v = .text v.plain := by
  obtain ⟨c, run, rfl, -⟩ := h
  rfl

theorem Value.IsWord.eq_of_plain (hv : v.IsWord) (hw : w.IsWord) (h : v.plain = w.plain) :
    v = w := by
  rw [hv.eq_text, hw.eq_text, h]

theorem Value.IsCount.not_mem (h : v.IsCount) (hc : ¬ Double.IsNumeral c)
    (hletter : c ∉ ['i', 'n', 'f']) : c ∉ v.plain.toList := by
  obtain ⟨x, rfl, -⟩ := h
  intro hmem
  rcases x.mem_text c hmem with hnumeral | hmem
  · exact hc hnumeral
  · exact hletter hmem

theorem Value.not_mem_intercalate (h : ∀ v ∈ words, v.IsWord) (hc : c.isAlphanum = false)
    (hsep : c ∉ ", ".toList) : c ∉ (", ".intercalate (words.map Value.plain)).toList := by
  intro hmem
  rcases Text.mem_intercalate hmem with hmem | ⟨t, ht, hmem⟩
  · exact hsep hmem
  · obtain ⟨v, hv, rfl⟩ := List.mem_map.mp ht
    exact (h v hv).not_mem hc hmem

-- Words are not empty and have no commas, so commas between them tell them apart.
theorem Value.eq_of_intercalate_eq (h : ∀ v ∈ words, v.IsWord) (h' : ∀ v ∈ words', v.IsWord)
    (heq : ", ".intercalate (words.map Value.plain) =
      ", ".intercalate (words'.map Value.plain)) : words = words' := by
  have hplain (values : List Value) (hvalues : ∀ v ∈ values, v.IsWord) :
      ∀ t ∈ values.map Value.plain, t ≠ "" ∧ ',' ∉ t.toList := by
    intro t ht
    obtain ⟨v, hv, rfl⟩ := List.mem_map.mp ht
    exact ⟨(hvalues v hv).plain_ne, (hvalues v hv).not_mem rfl⟩
  have hsep : ", ".toList = ',' :: [' '] := rfl
  have hwords := Text.intercalate_inj hsep (hplain words h) (hplain words' h') heq
  have htext (values : List Value) (hvalues : ∀ v ∈ values, v.IsWord) :
      (values.map Value.plain).map Value.text = values := by
    rw [List.map_map]
    exact (List.map_congr_left fun v hv => (hvalues v hv).eq_text.symm).trans (List.map_id _)
  rw [← htext words h, hwords, htext words' h']

theorem Value.IsWord.nameOrAnonymous_eq (h : v.IsWord) : v.nameOrAnonymous = v.plain := by
  have hne := h.plain_ne
  rw [h.eq_text] at hne ⊢
  exact if_neg hne

theorem Value.IsName.eq_of_nameOrAnonymous (hv : v.IsName) (hw : w.IsName)
    (h : v.nameOrAnonymous = w.nameOrAnonymous) : v = w := by
  -- a word is not the text for the missing name
  have hword (u : Value) (hu : u.IsWord) : u.nameOrAnonymous ≠ nameOrAnonymous (.text "") := by
    intro heq
    have hmem : '<' ∈ (nameOrAnonymous (.text "")).toList := by decide
    rw [← heq, hu.nameOrAnonymous_eq] at hmem
    exact hu.not_mem rfl hmem
  rcases hv with rfl | hv
  · rcases hw with rfl | hw
    · rfl
    · exact absurd h.symm (hword w hw)
  · rcases hw with rfl | hw
    · exact absurd h (hword v hv)
    · rw [hv.nameOrAnonymous_eq, hw.nameOrAnonymous_eq] at h
      exact hv.eq_of_plain hw h

theorem Value.IsName.not_mem (h : v.IsName) :
    '(' ∉ v.nameOrAnonymous.toList ∧ '\n' ∉ v.nameOrAnonymous.toList := by
  rcases h with rfl | h
  · decide
  · rw [h.nameOrAnonymous_eq]
    exact ⟨h.not_mem rfl, h.not_mem rfl⟩

theorem Value.IsName.not_mem_plain (h : v.IsName) (hc : c.isAlphanum = false) :
    c ∉ v.plain.toList := by
  rcases h with rfl | h
  · exact List.not_mem_nil
  · exact h.not_mem hc

-- A word is not empty, so it is not the missing name either.
theorem Value.IsName.eq_of_plain (hv : v.IsName) (hw : w.IsName) (h : v.plain = w.plain) :
    v = w := by
  rcases hv with rfl | hv <;> rcases hw with rfl | hw
  · rfl
  · exact absurd h.symm hw.plain_ne
  · exact absurd h hv.plain_ne
  · exact hv.eq_of_plain hw h

end Words

namespace Node

variable {m n : Node}

-- The letter that a line begins with.
def initial : Node → Char
  | number _ => 'N'
  | var _ => 'V'
  | binary .. => 'B'
  | call .. => 'C'
  | prototype _ => 'P'
  | function .. => 'F'

-- Two nodes with the same letter are of one kind.
theorem cases_initial {motive : (m n : Node) → m.initial = n.initial → Prop}
    (number : ∀ v w, motive (number v) (number w) rfl)
    (var : ∀ v w, motive (var v) (var w) rfl)
    (binary : ∀ op left right op' left' right',
      motive (binary op left right) (binary op' left' right') rfl)
    (call : ∀ callee arguments callee' arguments',
      motive (call callee arguments) (call callee' arguments') rfl)
    (prototype : ∀ p q, motive (prototype p) (prototype q) rfl)
    (function : ∀ head body head' body',
      motive (function head body) (function head' body') rfl)
    (m n : Node) (h : m.initial = n.initial) : motive m n h := by
  cases m with
  | number v =>
    cases n with
    | number w => exact number v w
    | _ => cases h
  | var v =>
    cases n with
    | var w => exact var v w
    | _ => cases h
  | binary op left right =>
    cases n with
    | binary op' left' right' => exact binary op left right op' left' right'
    | _ => cases h
  | call callee arguments =>
    cases n with
    | call callee' arguments' => exact call callee arguments callee' arguments'
    | _ => cases h
  | prototype p =>
    cases n with
    | prototype q => exact prototype p q
    | _ => cases h
  | function head body =>
    cases n with
    | function head' body' => exact function head body head' body'
    | _ => cases h

theorem exists_line (n : Node) : ∃ rest, n.line.toList = n.initial :: rest := by
  cases n <;> simp [line, initial]

theorem head?_line_ne (n : Node) : n.line.toList.head? ≠ some ' ' := by
  cases n <;> simp [line]

theorem initial_eq_of_line_eq (h : m.line = n.line) : m.initial = n.initial := by
  obtain ⟨rest, hm⟩ := m.exists_line
  obtain ⟨rest', hn⟩ := n.exists_line
  rw [h, hn] at hm
  exact (List.cons.inj hm).1.symm

theorem eq_of_prototype_line {p q : Prototype} (hp : p.Plain) (hq : q.Plain)
    (h : (prototype p).line = (prototype q).line) : p = q := by
  have hlists := congrArg String.toList h
  simp only [line, String.append_assoc, String.toList_append] at hlists
  have hmore := List.append_cancel_left hlists
  obtain ⟨hname, hparameters⟩ := Text.append_cons_inj hp.1.not_mem.1 hq.1.not_mem.1 hmore
  have hnames := hp.1.eq_of_nameOrAnonymous hq.1 (String.toList_inj.mp hname)
  have hwords := Value.eq_of_intercalate_eq hp.2 hq.2
    (String.toList_inj.mp (List.append_cancel_right hparameters))
  cases p
  cases q
  simp_all

-- The line and the children of a plain node are all there is to it.
theorem eq_of_line_eq (hm : m.Plain) (hn : n.Plain) (hline : m.line = n.line)
    (hchildren : m.children = n.children) : m = n := by
  have hinitial := initial_eq_of_line_eq hline
  cases m, n, hinitial using cases_initial with
  | number v w =>
    obtain ⟨x, rfl, -⟩ := hm
    obtain ⟨y, rfl, -⟩ := hn
    have htext : x.text = y.text := by simpa [line, Value.plain] using hline
    rw [Double.text_injective htext]
  | var v w =>
    have hplain : v.plain = w.plain := by simpa [line] using hline
    rw [Value.IsWord.eq_of_plain hm hn hplain]
  | binary op left right op' left' right' =>
    have hop : op = op' := by simpa [line] using hline
    simp_all [children]
  | call callee arguments callee' arguments' =>
    have hplain : callee.plain = callee'.plain := by simpa [line] using hline
    have harguments : arguments = arguments' := hchildren
    rw [Value.IsWord.eq_of_plain hm hn hplain, harguments]
  | prototype p q => rw [eq_of_prototype_line hm hn hline]
  | function head body head' body' => simp_all [children]

theorem newline_not_mem_line (h : n.Plain) : '\n' ∉ n.line.toList := by
  cases n with
  | number v =>
    have hvalue : '\n' ∉ v.plain.toList := by
      apply Value.IsCount.not_mem h
      · simp [Double.IsNumeral]
      · decide
    simpa [line] using hvalue
  | var v => simpa [line] using Value.IsWord.not_mem h rfl
  | binary op left right =>
    obtain ⟨c, rfl, hsign⟩ := h
    have hne : '\n' ≠ c := by
      rintro rfl
      cases hsign
    simpa [line] using hne
  | call callee arguments => simpa [line] using Value.IsWord.not_mem h rfl
  | prototype p =>
    have hnewline : '\n' ∉ ", ".toList := by decide
    have hparameters := Value.not_mem_intercalate h.2 rfl hnewline
    have hname := h.1.not_mem.2
    simp only [line, String.toList_append, List.mem_append]
    simp [hname, hparameters, -String.toList_intercalate]
  | function head body => simp [line]

end Node

-- Of two zeros only one may come from a source, so equality leaves nothing out.
section Same

variable {v w : Value} {m n : Node}

theorem Value.IsCount.eq_of_same (hv : v.IsCount) (hw : w.IsCount) (h : v.same w = true) :
    v = w := by
  obtain ⟨x, rfl, hx⟩ := hv
  obtain ⟨y, rfl, hy⟩ := hw
  have hrank : x.rank = y.rank := by simp_all [same, Double.same]
  cases x
  cases y
  simp_all

theorem Value.eq_of_same_text {s : String} (h : (text s).same w = true) : text s = w := by
  cases w <;> simp_all [same]

theorem Value.IsWord.eq_of_same (hv : v.IsWord) (h : v.same w = true) : v = w := by
  rw [hv.eq_text] at h ⊢
  exact Value.eq_of_same_text h

theorem Value.eq_of_isEqv {words others : List Value} (hwords : ∀ v ∈ words, v.IsWord)
    (h : words.isEqv others Value.same = true) : words = others := by
  induction words generalizing others with
  | nil =>
    cases others with
    | nil => rfl
    | cons w others => cases h
  | cons v words ih =>
    cases others with
    | nil => cases h
    | cons w others =>
      obtain ⟨hv, hmore⟩ := List.forall_mem_cons.mp hwords
      obtain ⟨hfirst, hrest⟩ := (Bool.and_eq_true _ _).mp h
      rw [hv.eq_of_same hfirst, ih hmore hrest]

theorem Prototype.Plain.eq_of_same {p q : Prototype} (hp : p.Plain) (h : p.same q = true) :
    p = q := by
  obtain ⟨hname, hparameters⟩ := (Bool.and_eq_true _ _).mp h
  have hnames : p.name = q.name := by
    rcases hp.1 with hempty | hword
    · rw [hempty] at hname ⊢
      exact Value.eq_of_same_text hname
    · exact hword.eq_of_same hname
  have hlists := Value.eq_of_isEqv hp.2 hparameters
  cases p
  cases q
  simp_all

namespace Node

theorem eq_of_sameAll {nodes others : List Node}
    (h : ∀ m ∈ nodes, ∀ n : Node, n.AllPlain → m.same n = true → m = n)
    (hothers : ∀ n ∈ others, n.AllPlain) (hsame : sameAll nodes others = true) :
    nodes = others := by
  induction nodes generalizing others with
  | nil =>
    cases others with
    | nil => rfl
    | cons n others => cases hsame
  | cons m nodes ih =>
    cases others with
    | nil => cases hsame
    | cons n others =>
      obtain ⟨hm, hmore⟩ := List.forall_mem_cons.mp h
      obtain ⟨hn, hrest⟩ := List.forall_mem_cons.mp hothers
      obtain ⟨hfirst, hsecond⟩ := (Bool.and_eq_true _ _).mp hsame
      rw [hm n hn hfirst, ih hmore hrest hsecond]

theorem initial_eq_of_same (h : m.same n = true) : m.initial = n.initial := by
  cases m <;> cases n <;> first | rfl | cases h

theorem eq_of_same (hm : m.AllPlain) (hn : n.AllPlain) (h : m.same n = true) : m = n := by
  induction m using induction_children generalizing n with
  | step m ih =>
    obtain ⟨hmTop, hmBelow⟩ := allPlain_iff.mp hm
    obtain ⟨hnTop, hnBelow⟩ := allPlain_iff.mp hn
    have hchild : ∀ child ∈ m.children, ∀ n : Node, n.AllPlain → child.same n = true →
        child = n := fun child hmem n hn h => ih child hmem (hmBelow child hmem) hn h
    have hinitial := initial_eq_of_same h
    cases m, n, hinitial using cases_initial with
    | number v w => rw [Value.IsCount.eq_of_same hmTop hnTop (by simpa [same] using h)]
    | var v w => rw [Value.IsWord.eq_of_same hmTop (by simpa [same] using h)]
    | binary op left right op' left' right' =>
      simp only [same, Bool.and_eq_true, decide_eq_true_eq] at h
      obtain ⟨⟨rfl, hleft⟩, hright⟩ := h
      simp only [children, List.forall_mem_cons] at hchild hnBelow
      rw [hchild.1 _ hnBelow.1 hleft, hchild.2.1 _ hnBelow.2.1 hright]
    | call callee arguments callee' arguments' =>
      simp only [same, Bool.and_eq_true] at h
      have harguments : arguments = arguments' := eq_of_sameAll hchild hnBelow h.2
      rw [Value.IsWord.eq_of_same hmTop h.1, harguments]
    | prototype p q => rw [Prototype.Plain.eq_of_same hmTop (by simpa [same] using h)]
    | function head body head' body' =>
      simp only [same, Bool.and_eq_true] at h
      simp only [children, List.forall_mem_cons] at hchild hnBelow
      rw [hchild.1 _ hnBelow.1 h.1, hchild.2.1 _ hnBelow.2.1 h.2]

end Node

end Same

end ExprLang
