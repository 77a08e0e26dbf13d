import Mathlib.Data.List.Basic

-- Texts put together from parts that are told apart by a mark, or by what kind of
-- characters they have.

namespace ExprLang.Text

section Runs

variable {p : Char → Bool} {run rest : List Char}

theorem span_none (h : ∀ c ∈ rest.head?, p c = false) :
    rest.takeWhile p = [] ∧ rest.dropWhile p = rest := by
  cases rest with
  | nil => exact ⟨rfl, rfl⟩
  | cons c rest => simp [h c rfl]

-- A run of characters of one kind ends where one of another kind comes.
theorem span_append (hrun : ∀ c ∈ run, p c = true) (hrest : ∀ c ∈ rest.head?, p c = false) :
    (run ++ rest).takeWhile p = run ∧ (run ++ rest).dropWhile p = rest := by
  obtain ⟨htake, hdrop⟩ := span_none hrest
  rw [List.takeWhile_append_of_pos hrun, List.dropWhile_append_of_pos hrun, htake, hdrop,
    List.append_nil]
  exact ⟨rfl, rfl⟩

end Runs

section Marks

variable {mark : Char} {tail : List Char} {sep : String} {texts texts' : List String}

-- A part up to a mark that it does not have is told from what follows.
theorem append_cons_inj {first second rest rest' : List Char} (hfirst : mark ∉ first)
    (hsecond : mark ∉ second) (h : first ++ mark :: rest = second ++ mark :: rest') :
    first = second ∧ rest = rest' := by
  induction first generalizing second with
  | nil =>
    cases second with
    | nil => exact ⟨rfl, (List.cons.inj h).2⟩
    | cons d second =>
      obtain rfl := (List.cons.inj h).1
      exact absurd List.mem_cons_self hsecond
  | cons d first ih =>
    cases second with
    | nil =>
      obtain rfl := (List.cons.inj h).1
      exact absurd List.mem_cons_self hfirst
    | cons e second =>
      obtain ⟨rfl, hmore⟩ := List.cons.inj h
      obtain ⟨rfl, hrest⟩ := ih (List.not_mem_of_not_mem_cons hfirst)
        (List.not_mem_of_not_mem_cons hsecond) hmore
      exact ⟨rfl, hrest⟩

theorem append_sep_inj {first second rest rest' : List Char} (hsep : sep.toList = mark :: tail)
    (hfirst : mark ∉ first) (hsecond : mark ∉ second)
    (h : first ++ (sep.toList ++ rest) = second ++ (sep.toList ++ rest')) :
    first = second ∧ rest = rest' := by
  rw [hsep, List.cons_append, List.cons_append] at h
  obtain ⟨hparts, hmore⟩ := append_cons_inj hfirst hsecond h
  exact ⟨hparts, List.append_cancel_left hmore⟩

-- What is filled up in front with a mark tells how often, if it has none there itself.
theorem replicate_append_inj {times times' : Nat} {rest rest' : List Char}
    (hrest : rest.head? ≠ some mark) (hrest' : rest'.head? ≠ some mark)
    (h : List.replicate times mark ++ rest = List.replicate times' mark ++ rest') :
    times = times' ∧ rest = rest' := by
  induction times generalizing times' with
  | zero =>
    cases times' with
    | zero => exact ⟨rfl, h⟩
    | succ times' =>
      obtain rfl : rest = _ := h
      exact absurd rfl hrest
  | succ times ih =>
    cases times' with
    | zero =>
      obtain rfl : _ = rest' := h
      exact absurd rfl hrest'
    | succ times' =>
      obtain ⟨rfl, hmore⟩ := ih (List.cons.inj h).2
      exact ⟨rfl, hmore⟩

-- A separator behind each part, where one has a mark that no part has.
theorem join_append_inj (hsep : sep.toList = mark :: tail) (h : ∀ t ∈ texts, mark ∉ t.toList)
    (h' : ∀ t ∈ texts', mark ∉ t.toList)
    (heq : String.join (texts.map (· ++ sep)) = String.join (texts'.map (· ++ sep))) :
    texts = texts' := by
  have hlists := congrArg String.toList heq
  simp only [String.toList_join, List.flatMap_map, String.toList_append, hsep] at hlists
  clear heq
  induction texts generalizing texts' with
  | nil =>
    cases texts' with
    | nil => rfl
    | cons t texts' => simp at hlists
  | cons t texts ih =>
    cases texts' with
    | nil => simp at hlists
    | cons t' texts' =>
      obtain ⟨hmark, hmarks⟩ := List.forall_mem_cons.mp h
      obtain ⟨hmark', hmarks'⟩ := List.forall_mem_cons.mp h'
      simp only [List.flatMap_cons, List.append_assoc, List.cons_append] at hlists
      obtain ⟨hfirst, hmore⟩ := append_cons_inj hmark hmark' hlists
      rw [String.toList_inj.mp hfirst, ih hmarks hmarks' (List.append_cancel_left hmore)]

theorem intercalate_append (h : texts ≠ []) :
    sep.intercalate texts ++ sep = String.join (texts.map (· ++ sep)) := by
  induction texts with
  | nil => contradiction
  | cons t texts ih =>
    cases texts with
    | nil => simp [String.join_cons]
    | cons next texts =>
      have hrest := ih (by simp)
      rw [String.intercalate_cons_cons, String.append_assoc, hrest, List.map_cons]
      simp [String.join_cons, String.append_assoc]

theorem intercalate_eq_empty_iff (h : ∀ t ∈ texts, t ≠ "") :
    sep.intercalate texts = "" ↔ texts = [] := by
  cases texts with
  | nil => simp
  | cons t texts =>
    have ht := h t List.mem_cons_self
    cases texts with
    | nil => simpa using ht
    | cons next texts => simp [String.intercalate_cons_cons, ht]

-- A separator between the parts does as well if none of them is empty.
theorem intercalate_inj (hsep : sep.toList = mark :: tail)
    (h : ∀ t ∈ texts, t ≠ "" ∧ mark ∉ t.toList) (h' : ∀ t ∈ texts', t ≠ "" ∧ mark ∉ t.toList)
    (heq : sep.intercalate texts = sep.intercalate texts') : texts = texts' := by
  have hempty : texts = [] ↔ texts' = [] := by
    rw [← intercalate_eq_empty_iff fun t ht => (h t ht).1, heq,
      intercalate_eq_empty_iff fun t ht => (h' t ht).1]
  by_cases hnil : texts = []
  · rw [hnil, hempty.mp hnil]
  · have hnil' : texts' ≠ [] := fun hnil' => hnil (hempty.mpr hnil')
    refine join_append_inj hsep (fun t ht => (h t ht).2) (fun t ht => (h' t ht).2) ?_
    rw [← intercalate_append hnil, ← intercalate_append hnil', heq]

theorem mem_intercalate {c : Char} (h : c ∈ (sep.intercalate texts).toList) :
    c ∈ sep.toList ∨ ∃ t ∈ texts, c ∈ t.toList := by
  by_cases hnil : texts = []
  · simp [hnil] at h
  have hmore : c ∈ (String.join (texts.map (· ++ sep))).toList := by
    rw [← intercalate_append hnil, String.toList_append]
    exact List.mem_append_left _ h
  simp only [String.toList_join, List.flatMap_map, String.toList_append, List.mem_flatMap,
    List.mem_append] at hmore
  obtain ⟨t, ht, hpart | hsep⟩ := hmore
  · exact .inr ⟨t, ht, hpart⟩
  · exact .inl hsep

end Marks

end ExprLang.Text
