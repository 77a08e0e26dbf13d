import ExprLang.Proofs.Grammar.Walk

-- What is wrong at each position with the token that stands there, or with the
-- end of the input.

namespace ExprLang.Grammar

-- The token ends the chain of the operand before it: it opens no call of a bare
-- name, and an operator is listed, but at a negative level.
structure EndsChain (table : PrecedenceTable) (named : Bool) (token : Token) : Prop where
  uncalled : named = true → token.kind ≠ .parensOpen
  negative : token.kind = .binaryOperator →
    ∃ level, table.level? token.value = some level ∧ level < 0

-- What is wrong at a position with the token that stands there, or with the end
-- of the input.
inductive Raises (table : PrecedenceTable) : Position → Option Token → Cause → Prop where
  | functionName {next? : Option Token} (h : ∀ token ∈ next?, token.kind ≠ .identifier) :
      Raises table .keyword next? .expectedFunctionName
  | header {next? : Option Token} (h : ∀ token ∈ next?, token.kind ≠ .parensOpen) :
      Raises table .functionName next? (.expectedCharacter "(")
  | parameters {next? : Option Token}
      (h : ∀ token ∈ next?, token.kind ≠ .parensClose ∧ token.kind ≠ .comma) :
      Raises table .parameterName next? .expectedArgumentList
  -- The end is taken for the token that closes the prototype, and has no body behind it.
  | body : Raises table .parameter none .expectedExpression
  | operand {frames : List Frame} {next? : Option Token} (h : ∀ token ∈ next?, ¬ Starts token) :
      Raises table (.operand frames) next? .expectedExpression
  | firstArgument {frames : List Frame} {next? : Option Token}
      (h : ∀ token ∈ next?, token.kind ≠ .parensClose ∧ ¬ Starts token) :
      Raises table (.firstArgument frames) next? .expectedExpression
  | undefinedOperator {named : Bool} {frames : List Frame} {token : Token}
      (hkind : token.kind = .binaryOperator) (hlevel : table.level? token.value = none) :
      Raises table (.complete named frames) (some token) (.undefinedOperator token.value)
  | closing {named : Bool} {frames : List Frame} {next? : Option Token}
      (hends : ∀ token ∈ next?, EndsChain table named token)
      (h : ∀ token ∈ next?, token.kind ≠ .parensClose) :
      Raises table (.complete named (.parens :: frames)) next? (.expectedCharacter ")")
  | arguments {named : Bool} {frames : List Frame} {next? : Option Token}
      (hends : ∀ token ∈ next?, EndsChain table named token)
      (h : ∀ token ∈ next?, token.kind ≠ .parensClose ∧ token.kind ≠ .comma) :
      Raises table (.complete named (.call :: frames)) next? .expectedArgumentList
  -- At the start of a phrase the input may end as well.
  | program {token : Token} (h : token.kind ≠ .define ∧ ¬ Starts token) :
      Raises table .start (some token) .expectedExpression
  | phrase {named : Bool} {token : Token} (hends : EndsChain table named token)
      (h : token.kind ≠ .define ∧ ¬ Starts token) :
      Raises table (.complete named []) (some token) .expectedExpression

section Raises

variable {table : PrecedenceTable} {named : Bool} {frames : List Frame} {token : Token}
  {position : Position} {next? : Option Token} {cause : Cause}

theorem stepOperand_eq_error_iff :
    Position.stepOperand frames token = .error cause ↔
      ¬ Starts token ∧ cause = .expectedExpression := by
  unfold Position.stepOperand Starts
  cases hkind : token.kind <;> simp [eq_comm]

theorem stepStart_eq_error_iff :
    Position.stepStart token = .error cause ↔
      (token.kind ≠ .define ∧ ¬ Starts token) ∧ cause = .expectedExpression := by
  unfold Position.stepStart
  by_cases hdefine : token.kind = .define
  · simp [hdefine]
  · simp [hdefine, stepOperand_eq_error_iff]

-- Behind an operand whose chain the token ends, only what is open counts.
theorem EndsChain.step_eq (h : EndsChain table named token) :
    (Position.complete named frames).step table token = Position.stepBehind frames token := by
  simp only [Position.step]
  rw [if_neg fun hcall => h.uncalled hcall.1 hcall.2]
  by_cases hkind : token.kind = .binaryOperator
  · obtain ⟨level, hlevel, hnegative⟩ := h.negative hkind
    simp only [hkind, if_true, hlevel]
    rw [if_neg (by omega)]
  · rw [if_neg hkind]

-- Otherwise the token goes on with the chain, or is an operator that nobody knows.
theorem step_complete_of_not_ends (h : ¬ EndsChain table named token) :
    (∃ next, (Position.complete named frames).step table token = .ok next) ∨
      token.kind = .binaryOperator ∧ table.level? token.value = none := by
  simp only [Position.step]
  by_cases hcall : named = true ∧ token.kind = .parensOpen
  · exact .inl ⟨_, if_pos hcall⟩
  by_cases hkind : token.kind = .binaryOperator
  · rw [if_neg hcall, if_pos hkind]
    cases hlevel : table.level? token.value with
    | none => exact .inr ⟨hkind, rfl⟩
    | some level =>
      by_cases hle : 0 ≤ level
      · exact .inl ⟨_, if_pos hle⟩
      · refine absurd ⟨fun hnamed hopen => hcall ⟨hnamed, hopen⟩, fun _ => ?_⟩ h
        exact ⟨level, hlevel, by omega⟩
  · exact absurd ⟨fun hnamed hopen => hcall ⟨hnamed, hopen⟩, fun hop => absurd hop hkind⟩ h

theorem fault?_of_raises (h : Raises table position next? cause) :
    position.fault? table next? = some cause := by
  cases h with
  | functionName h | header h | parameters h =>
    cases next? with
    | none => rfl
    | some token => simp [Position.fault?_some, Position.step, h token rfl]
  | body => rfl
  | operand h =>
    cases next? with
    | none => rfl
    | some token => exact Position.fault?_some.mpr (stepOperand_eq_error_iff.mpr ⟨h token rfl, rfl⟩)
  | firstArgument h =>
    cases next? with
    | none => rfl
    | some token =>
      obtain ⟨hclose, hstarts⟩ := h token rfl
      refine Position.fault?_some.mpr ?_
      rw [Position.step, if_neg hclose]
      exact stepOperand_eq_error_iff.mpr ⟨hstarts, rfl⟩
  | undefinedOperator hkind hlevel =>
    simp [Position.fault?_some, Position.step, hkind, hlevel]
  | closing hends h | arguments hends h =>
    cases next? with
    | none => rfl
    | some token =>
      rw [Position.fault?_some, (hends token rfl).step_eq]
      simp [Position.stepBehind, h token rfl]
  | program h => exact Position.fault?_some.mpr (stepStart_eq_error_iff.mpr ⟨h, rfl⟩)
  | phrase hends h =>
    rw [Position.fault?_some, hends.step_eq]
    exact stepStart_eq_error_iff.mpr ⟨h, rfl⟩

theorem raises_of_stepBehind (hends : EndsChain table named token)
    (h : Position.stepBehind frames token = .error cause) :
    Raises table (.complete named frames) (some token) cause := by
  have hends' : ∀ next ∈ some token, EndsChain table named next := by
    rintro next hnext
    exact Option.mem_some_iff.mp hnext ▸ hends
  match frames with
  | [] =>
    obtain ⟨hstarts, rfl⟩ := stepStart_eq_error_iff.mp h
    exact .phrase hends hstarts
  | .parens :: frames =>
    by_cases hclose : token.kind = .parensClose
    · simp [Position.stepBehind, hclose] at h
    · simp only [Position.stepBehind, if_neg hclose, Except.error.injEq] at h
      subst h
      exact .closing hends' (by simpa using hclose)
  | .call :: frames =>
    by_cases hclose : token.kind = .parensClose
    · simp [Position.stepBehind, hclose] at h
    by_cases hcomma : token.kind = .comma
    · simp [Position.stepBehind, hcomma] at h
    · simp only [Position.stepBehind, if_neg hclose, if_neg hcomma, Except.error.injEq] at h
      subst h
      exact .arguments hends' (by simpa using ⟨hclose, hcomma⟩)

theorem raises_of_step (h : position.step table token = .error cause) :
    Raises table position (some token) cause := by
  cases position with
  | start =>
    obtain ⟨hstarts, rfl⟩ := stepStart_eq_error_iff.mp h
    exact .program hstarts
  | keyword =>
    by_cases hkind : token.kind = .identifier
    · simp [Position.step, hkind] at h
    · simp only [Position.step, if_neg hkind, Except.error.injEq] at h
      subst h
      exact .functionName (by simpa using hkind)
  | functionName =>
    by_cases hkind : token.kind = .parensOpen
    · simp [Position.step, hkind] at h
    · simp only [Position.step, if_neg hkind, Except.error.injEq] at h
      subst h
      exact .header (by simpa using hkind)
  | parameter =>
    simp only [Position.step] at h
    split at h <;> cases h
  | parameterName =>
    by_cases hclose : token.kind = .parensClose
    · simp [Position.step, hclose] at h
    by_cases hcomma : token.kind = .comma
    · simp [Position.step, hcomma] at h
    · simp only [Position.step, if_neg hclose, if_neg hcomma, Except.error.injEq] at h
      subst h
      exact .parameters (by simpa using ⟨hclose, hcomma⟩)
  | operand frames =>
    obtain ⟨hstarts, rfl⟩ := stepOperand_eq_error_iff.mp h
    exact .operand (by simpa using hstarts)
  | firstArgument frames =>
    by_cases hclose : token.kind = .parensClose
    · simp [Position.step, hclose] at h
    · rw [Position.step, if_neg hclose] at h
      obtain ⟨hstarts, rfl⟩ := stepOperand_eq_error_iff.mp h
      exact .firstArgument (by simpa using ⟨hclose, hstarts⟩)
  | complete named frames =>
    by_cases hends : EndsChain table named token
    · exact raises_of_stepBehind hends (hends.step_eq.symm.trans h)
    · rcases step_complete_of_not_ends hends with ⟨next, hnext⟩ | ⟨hkind, hlevel⟩
      · rw [hnext] at h
        cases h
      · have hundefined : Position.step table (.complete named frames) token =
            .error (.undefinedOperator token.value) := by
          simp [Position.step, hkind, hlevel]
        obtain rfl := Except.error.inj (h.symm.trans hundefined)
        exact .undefinedOperator hkind hlevel

theorem raises_of_atEnd (h : position.atEnd = some cause) : Raises table position none cause := by
  cases position with
  | start => cases h
  | keyword =>
    cases h
    exact .functionName (by simp)
  | functionName =>
    cases h
    exact .header (by simp)
  | parameter =>
    cases h
    exact .body
  | parameterName =>
    cases h
    exact .parameters (by simp)
  | operand frames =>
    cases h
    exact .operand (by simp)
  | firstArgument frames =>
    cases h
    exact .firstArgument (by simp)
  | complete named frames =>
    match frames with
    | [] => cases h
    | .parens :: frames =>
      cases h
      exact .closing (by simp) (by simp)
    | .call :: frames =>
      cases h
      exact .arguments (by simp) (by simp)

-- The reader of positions reports what is wrong, and nothing else.
theorem raises_iff_fault? : Raises table position next? cause ↔
    position.fault? table next? = some cause := by
  refine ⟨fault?_of_raises, fun h => ?_⟩
  cases next? with
  | none => exact raises_of_atEnd h
  | some token => exact raises_of_step (Position.fault?_some.mp h)

-- Of no token it is said that another one was expected, only what was.
theorem Raises.cause_ne (h : Raises table position next? cause) (expected : String) :
    cause ≠ .unexpectedToken expected := by
  cases h <;> exact Cause.noConfusion

theorem Raises.exists_operator {symbol : Value}
    (h : Raises table position next? (.undefinedOperator symbol)) :
    ∃ token, next? = some token ∧ token.kind = .binaryOperator ∧
      table.level? token.value = none := by
  cases h with
  | undefinedOperator hkind hlevel => exact ⟨_, rfl, hkind, hlevel⟩

theorem FaultAt.exists_raises {tokens : List Token} {place : Nat}
    (h : FaultAt table tokens place cause) :
    ∃ position, Raises table position tokens[place]? cause := by
  obtain ⟨-, position, -, hfault⟩ := h
  exact ⟨position, raises_iff_fault?.mpr hfault⟩

end Raises

end ExprLang.Grammar
