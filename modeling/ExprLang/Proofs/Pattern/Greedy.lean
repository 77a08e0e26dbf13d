import ExprLang.Pattern.Match

-- A set of characters that is repeated takes as many of them as there are.

namespace ExprLang

namespace CharSet

variable {first last : Nat} {ranges : Text.Ranges} {c : Char}

theorem contains_nil : contains ⟨false, []⟩ c = true ↔ False := ⟨Bool.false_ne_true, False.elim⟩

theorem contains_cons : contains ⟨false, (first, last) :: ranges⟩ c = true ↔
    (first ≤ c.toNat ∧ c.toNat ≤ last) ∨ contains ⟨false, ranges⟩ c = true := by
  simp [contains, Text.Ranges.contains]

end CharSet

namespace Pattern

variable {set first repeated : CharSet} {next : Continuation} {atStart : Bool} {taken : Nat}
  {c : Char} {rest : List Char}

theorem run_oneOf_of_contains (h : set.contains c = true) :
    (oneOf set).run next ⟨atStart, taken, c :: rest⟩ = next ⟨false, taken + 1, rest⟩ := if_pos h

theorem run_oneOf_of_not_contains (h : ¬set.contains c = true) :
    (oneOf set).run next ⟨atStart, taken, c :: rest⟩ = none := if_neg h

-- Where what follows the rounds never fails, none of them is given back. The induction
-- is on the characters left.
theorem exists_rounds_oneOf (hnext : ∀ cursor, (next cursor).isSome = true) {bound : Nat}
    (hbound : rest.length ≤ bound) :
    ∃ after, rounds (oneOf set).run next bound ⟨atStart, taken, rest⟩ =
      next ⟨after, taken + (rest.takeWhile set.contains).length, rest.dropWhile set.contains⟩ := by
  induction rest generalizing bound atStart taken with
  | nil => cases bound <;> exact ⟨atStart, rfl⟩
  | cons c rest ih =>
    cases bound with
    | zero => simp at hbound
    | succ bound =>
      have hrest : rest.length ≤ bound := by simpa using hbound
      by_cases hcontains : set.contains c = true
      · have hmore : taken + 1 ≠ taken := Nat.succ_ne_self taken
        have hcount : taken + ((rest.takeWhile set.contains).length + 1) =
            taken + 1 + (rest.takeWhile set.contains).length := by omega
        obtain ⟨after, hafter⟩ := ih hrest
        refine ⟨after, ?_⟩
        rw [rounds, run_oneOf_of_contains hcontains, if_neg hmore, hafter,
          List.takeWhile_cons_of_pos hcontains, List.dropWhile_cons_of_pos hcontains,
          List.length_cons, hcount]
        simpa using Option.or_of_isSome (hnext _)
      · refine ⟨atStart, ?_⟩
        rw [rounds, run_oneOf_of_not_contains hcontains, List.takeWhile_cons_of_neg hcontains,
          List.dropWhile_cons_of_neg hcontains]
        rfl

theorem rounds_oneOf (start : Nat) {bound : Nat} (hbound : rest.length ≤ bound) :
    rounds (oneOf set).run (fun after => some (after.taken - start)) bound ⟨atStart, taken, rest⟩ =
      some (taken + (rest.takeWhile set.contains).length - start) := by
  have hnext : ∀ cursor : Cursor, (some (cursor.taken - start)).isSome = true := fun _ => rfl
  obtain ⟨_, hrounds⟩ := exists_rounds_oneOf hnext hbound
  exact hrounds

theorem matchText?_oneOf :
    (oneOf set).matchText? ⟨atStart, taken, c :: rest⟩ =
      if set.contains c then some [c] else none := by
  unfold matchText? matchLength?
  by_cases hcontains : set.contains c = true
  · rw [run_oneOf_of_contains hcontains, if_pos hcontains, Nat.add_sub_cancel_left]
    rfl
  · rw [run_oneOf_of_not_contains hcontains, if_neg hcontains]
    rfl

-- A first character and then the longest run behind it.
theorem matchText?_run :
    (sequence (oneOf first) (star (oneOf repeated))).matchText? ⟨atStart, taken, c :: rest⟩ =
      if first.contains c then some (c :: rest.takeWhile repeated.contains) else none := by
  unfold matchText? matchLength?
  rw [run]
  by_cases hcontains : first.contains c = true
  · have hlength : taken + 1 + (rest.takeWhile repeated.contains).length - taken =
        (rest.takeWhile repeated.contains).length + 1 := by omega
    have hprefix : rest.takeWhile repeated.contains <+: rest := List.takeWhile_prefix _
    rw [run_oneOf_of_contains hcontains, if_pos hcontains, run_star,
      rounds_oneOf taken (Nat.le_refl _), hlength, Option.map_some, List.take_succ_cons,
      ← List.prefix_iff_eq_take.mp hprefix]
  · rw [run_oneOf_of_not_contains hcontains, if_neg hcontains]
    rfl

end Pattern

end ExprLang
