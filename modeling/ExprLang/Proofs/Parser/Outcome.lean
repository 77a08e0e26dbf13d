import ExprLang.Parser.Basic

-- How a production ends: with a result or with a fault, and where the parser
-- stands then.

namespace ExprLang.Parser

section Ends

variable {α β : Type} {m : Run α} {cursor : Nat}
  {good good' : α → Nat → Prop} {bad bad' : SyntaxFault → Nat → Prop}

def Ends (m : Run α) (cursor : Nat) (good : α → Nat → Prop) (bad : SyntaxFault → Nat → Prop) :
    Prop :=
  match m cursor with
  | .ok a next => good a next
  | .error fault next => bad fault next

theorem Ends.ok (h : Ends m cursor good bad) {a : α} {next : Nat} (hm : m cursor = .ok a next) :
    good a next := by
  simpa only [Ends, hm] using h

theorem Ends.error (h : Ends m cursor good bad) {fault : SyntaxFault} {next : Nat}
    (hm : m cursor = .error fault next) : bad fault next := by
  simpa only [Ends, hm] using h

theorem Ends.of_cases (hgood : ∀ a next, m cursor = .ok a next → good a next)
    (hbad : ∀ fault next, m cursor = .error fault next → bad fault next) :
    Ends m cursor good bad := by
  unfold Ends
  split
  · exact hgood _ _ ‹_›
  · exact hbad _ _ ‹_›

theorem Ends.imp (h : Ends m cursor good bad) (hgood : ∀ a next, good a next → good' a next)
    (hbad : ∀ fault next, bad fault next → bad' fault next) : Ends m cursor good' bad' :=
  .of_cases (fun _ _ hm => hgood _ _ (h.ok hm)) fun _ _ hm => hbad _ _ (h.error hm)

-- What is known of the results and what is known of the faults, put together.
theorem Ends.of_ok_of_error (h : Ends m cursor good bad) (h' : Ends m cursor good' bad') :
    Ends m cursor good bad' :=
  .of_cases (fun _ _ hm => h.ok hm) fun _ _ hm => h'.error hm

theorem Ends.eq_ok {a : α} {next : Nat}
    (h : Ends m cursor (fun b stop => b = a ∧ stop = next) fun _ _ => False) :
    m cursor = .ok a next := by
  unfold Ends at h
  split at h
  · obtain ⟨rfl, rfl⟩ := h
    assumption
  · exact h.elim

-- What follows a production begins where that ended.
@[simp] theorem ends_bind {k : α → Run β} {good : β → Nat → Prop} :
    Ends (m >>= k) cursor good bad ↔
      Ends m cursor (fun a next => Ends (k a) next good bad) bad := by
  simp only [Ends, bind, EStateM.bind]
  cases m cursor <;> rfl

theorem bind_of_ok {k : α → Run β} {a : α} {next : Nat} (h : m cursor = .ok a next) :
    (m >>= k) cursor = k a next := by
  simp only [bind, EStateM.bind, h]

theorem bind_of_error {k : α → Run β} {fault : SyntaxFault} {next : Nat}
    (h : m cursor = .error fault next) : (m >>= k) cursor = .error fault next := by
  simp only [bind, EStateM.bind, h]

-- Only what the first run comes to is of interest for the second.
theorem bind_congr_of_ok {m' : Run α} {k k' : α → Run β} (h : m cursor = m' cursor)
    (hk : ∀ a next, m' cursor = .ok a next → k a next = k' a next) :
    (m >>= k) cursor = (m' >>= k') cursor := by
  cases hm : m' cursor with
  | ok a next => rw [bind_of_ok (h.trans hm), bind_of_ok hm, hk a next hm]
  | error fault next => rw [bind_of_error (h.trans hm), bind_of_error hm]

@[simp] theorem ends_pure {a : α} : Ends (pure a) cursor good bad ↔ good a cursor := Iff.rfl

@[simp] theorem ends_ite {c : Prop} [Decidable c] {m' : Run α} :
    Ends (if c then m else m') cursor good bad ↔
      if c then Ends m cursor good bad else Ends m' cursor good bad := by
  split <;> rfl

end Ends

section Tokens

variable {p : Parser} {cursor : Nat} {bad : SyntaxFault → Nat → Prop}

-- How tightly the token binds that stands there. An operator that is not
-- listed has no level.
def levelAt (p : Parser) (cursor : Nat) : Option Int :=
  if (p.tokenAt cursor).kind = .binaryOperator then
    p.precedence.level? (p.tokenAt cursor).value
  else some noPrecedence

@[simp] theorem ends_fail {α : Type} {cause : Cause} {token : Token} {good : α → Nat → Prop} :
    Ends (fail cause token) cursor good bad ↔ bad ⟨cause, token⟩ cursor := Iff.rfl

@[simp] theorem ends_peek {good : Token → Nat → Prop} :
    Ends p.peek cursor good bad ↔ good (p.tokenAt cursor) cursor := Iff.rfl

@[simp] theorem ends_advance {good : Token → Nat → Prop} :
    Ends p.advance cursor good bad ↔ good (p.tokenAt cursor) (cursor + 1) := Iff.rfl

@[simp] theorem ends_check {kind : TokenKind} {good : Bool → Nat → Prop} :
    Ends (p.check kind) cursor good bad ↔
      good (decide ((p.tokenAt cursor).kind = kind)) cursor := Iff.rfl

@[simp] theorem ends_rounds {good : Nat → Nat → Prop} :
    Ends p.rounds cursor good bad ↔ good (p.tokens.size - cursor + 1) cursor := Iff.rfl

@[simp] theorem ends_tooDeep {α : Type} {good : α → Nat → Prop} :
    Ends (p.tooDeep : Run α) cursor good bad ↔ bad ⟨.nestingTooDeep, p.tokenAt cursor⟩ cursor :=
  Iff.rfl

@[simp] theorem ends_take {kind : TokenKind} {cause : Cause} {good : Token → Nat → Prop} :
    Ends (p.take kind cause) cursor good bad ↔
      if (p.tokenAt cursor).kind = kind then good (p.tokenAt cursor) (cursor + 1)
      else bad ⟨cause, p.tokenAt cursor⟩ (cursor + 1) := by
  simp only [take, ends_bind, ends_advance, ends_ite, ends_pure, ends_fail]

@[simp] theorem ends_currentPrecedence {good : Int → Nat → Prop} :
    Ends p.currentPrecedence cursor good bad ↔
      match p.levelAt cursor with
      | some level => good level cursor
      | none => bad ⟨.undefinedOperator (p.tokenAt cursor).value, p.tokenAt cursor⟩ cursor := by
  simp only [currentPrecedence, levelAt, ends_bind, ends_peek, ends_ite, ends_pure]
  by_cases hkind : (p.tokenAt cursor).kind = .binaryOperator
  · simp only [hkind, if_true]
    cases p.precedence.level? (p.tokenAt cursor).value <;> simp
  · simp [hkind]

theorem take_eq_ok_iff {kind : TokenKind} {cause : Cause} {token : Token} {next : Nat} :
    p.take kind cause cursor = .ok token next ↔
      (p.tokenAt cursor).kind = kind ∧ token = p.tokenAt cursor ∧ next = cursor + 1 := by
  constructor
  · intro h
    have hends : Ends (p.take kind cause) cursor (fun token next =>
        (p.tokenAt cursor).kind = kind ∧ token = p.tokenAt cursor ∧ next = cursor + 1)
        fun _ _ => True := by
      rw [ends_take]
      split
      · exact ⟨‹_›, rfl, rfl⟩
      · trivial
    exact hends.ok h
  · rintro ⟨hkind, rfl, rfl⟩
    exact Ends.eq_ok (ends_take.mpr (by simp [hkind]))

-- A token of another kind is taken as well.
theorem take_of_kind_ne {kind : TokenKind} {cause : Cause} (h : (p.tokenAt cursor).kind ≠ kind) :
    p.take kind cause cursor = .error ⟨cause, p.tokenAt cursor⟩ (cursor + 1) := by
  change (if (p.tokenAt cursor).kind = kind then pure (p.tokenAt cursor)
    else fail cause (p.tokenAt cursor) : Run Token) (cursor + 1) = _
  rw [if_neg h]
  rfl

theorem levelAt_of_currentPrecedence {level : Int} {next : Nat}
    (h : p.currentPrecedence cursor = .ok level next) :
    p.levelAt cursor = some level ∧ next = cursor := by
  have hends : Ends p.currentPrecedence cursor
      (fun level next => p.levelAt cursor = some level ∧ next = cursor) fun _ _ => True := by
    rw [ends_currentPrecedence]
    split
    · exact ⟨‹_›, rfl⟩
    · trivial
  exact hends.ok h

theorem levelAt_eq_some_iff {level : Int} (hlevel : 0 ≤ level) :
    p.levelAt cursor = some level ↔ (p.tokenAt cursor).kind = .binaryOperator ∧
      p.precedence.level? (p.tokenAt cursor).value = some level := by
  unfold levelAt noPrecedence
  by_cases hkind : (p.tokenAt cursor).kind = .binaryOperator
  · simp [hkind]
  · simp only [hkind, if_false, Option.some.injEq, false_and, iff_false]
    omega

-- There are tokens up to the size, and behind it none but that of the end.
theorem kind_of_size_le (h : p.tokens.size ≤ cursor) : (p.tokenAt cursor).kind = .endOfInput := by
  rw [p.tokenAt_of_size_le h]
  rfl

theorem lt_size_of_kind {kind : TokenKind} (hkind : (p.tokenAt cursor).kind = kind)
    (hne : kind ≠ .endOfInput) : cursor < p.tokens.size := by
  refine Nat.lt_of_not_le fun hge => hne ?_
  exact hkind.symm.trans (kind_of_size_le hge)

end Tokens

section Units

variable {p : Parser} {depth bound cursor next : Nat}

-- What units come to behind others.
def Progress.prepend (definitions : List Definition) (progress : Progress) : Progress :=
  { progress with definitions := definitions ++ progress.definitions }

theorem Progress.result_prepend (definitions : List Definition) (progress : Progress) :
    (progress.prepend definitions).result = progress.result.map (definitions ++ ·) := by
  unfold Progress.result
  rw [prepend]
  cases progress.fault? <;> rfl

theorem Progress.prepend_prepend (first second : List Definition) (progress : Progress) :
    (progress.prepend second).prepend first = progress.prepend (first ++ second) := by
  simp only [prepend, List.append_assoc]

theorem units_of_size_le (h : p.tokens.size ≤ cursor) :
    p.units depth bound cursor = ⟨[], none, cursor⟩ := by
  cases bound with
  | zero => rw [units, if_pos h]
  | succ bound => rw [units, if_pos h]

theorem units_of_ok (h : cursor < p.tokens.size) {definition : Definition}
    (hunit : p.unit depth cursor = .ok definition next) :
    p.units depth (bound + 1) cursor = (p.units depth bound next).prepend [definition] := by
  rw [units, if_neg (Nat.not_le_of_lt h), hunit]
  rfl

theorem units_of_error (h : cursor < p.tokens.size) {fault : SyntaxFault}
    (hunit : p.unit depth cursor = .error fault next) :
    p.units depth (bound + 1) cursor = ⟨[], some fault, next⟩ := by
  rw [units, if_neg (Nat.not_le_of_lt h), hunit]

end Units

end ExprLang.Parser
