import ExprLang.Proofs.Parser.Outcome

-- A deeper limit changes nothing but where parsing stops for its depth. What a
-- production comes to without a limit is therefore what it comes to with all
-- limits from some depth on.

namespace ExprLang.Parser

section Within

variable {α β : Type}

def TooDeep (m : Run α) (cursor : Nat) : Prop :=
  Ends m cursor (fun _ _ => False) fun fault _ => fault.cause = .nestingTooDeep

-- The first does what the second does, unless it stops for its depth.
def Within (m m' : Run α) : Prop :=
  ∀ cursor, m cursor = m' cursor ∨ TooDeep m cursor

theorem Within.refl (m : Run α) : Within m m := fun _ => .inl rfl

theorem Within.trans {m m' m'' : Run α} (h : Within m m') (h' : Within m' m'') :
    Within m m'' := by
  intro cursor
  rcases h cursor with heq | hdeep
  · rcases h' cursor with heq' | hdeep
    · exact .inl (heq.trans heq')
    · exact .inr (by unfold TooDeep Ends at hdeep ⊢; rwa [heq])
  · exact .inr hdeep

theorem within_tooDeep (p : Parser) (m : Run α) : Within p.tooDeep m :=
  fun _ => .inr (ends_tooDeep.mpr rfl)

theorem Within.bind {m m' : Run α} {k k' : α → Run β} (h : Within m m')
    (hk : ∀ a, Within (k a) (k' a)) : Within (m >>= k) (m' >>= k') := by
  intro cursor
  rcases h cursor with heq | hdeep
  · cases hm : m cursor with
    | ok a next =>
      have hm' := heq.symm.trans hm
      rcases hk a next with heq | hdeep
      · left
        simpa only [Bind.bind, EStateM.bind, hm, hm'] using heq
      · right
        refine ends_bind.mpr ?_
        unfold Ends
        rw [hm]
        exact hdeep
    | error fault next =>
      have hm' := heq.symm.trans hm
      left
      simp only [Bind.bind, EStateM.bind, hm, hm']
  · right
    exact ends_bind.mpr (Ends.imp hdeep (fun _ _ h => h.elim) fun _ _ h => h)

theorem Within.ite {c : Prop} [Decidable c] {m m' n n' : Run α} (h : Within m m')
    (h' : Within n n') : Within (if c then m else n) (if c then m' else n') := by
  split
  · exact h
  · exact h'

end Within

section Loops

variable (p : Parser)

theorem within_arguments {expression expression' : Run Node} (h : Within expression expression')
    (bound : Nat) : Within (p.arguments expression bound) (p.arguments expression' bound) := by
  induction bound with
  | zero => exact .refl _
  | succ bound ih =>
    simp only [arguments]
    refine h.bind fun argument => .bind (.refl _) fun closes => .ite (.refl _) ?_
    exact .bind (.refl _) fun _ => ih.bind fun _ => .refl _

theorem within_callArguments {expression expression' : Run Node}
    (h : Within expression expression') :
    Within (p.callArguments expression) (p.callArguments expression') := by
  unfold callArguments
  refine .bind (.refl _) fun closes => .ite (.refl _) ?_
  exact .bind (.refl _) fun bound => (within_arguments p h bound).bind fun _ => .refl _

theorem within_climb {operand operand' : Run Node} {tighter tighter' : Node → Int → Run Node}
    (h : Within operand operand')
    (htighter : ∀ right level, Within (tighter right level) (tighter' right level))
    (least : Int) (bound : Nat) (left : Node) :
    Within (p.climb operand tighter least bound left)
      (p.climb operand' tighter' least bound left) := by
  induction bound generalizing left with
  | zero => exact .refl _
  | succ bound ih =>
    simp only [climb, extendRight]
    refine .bind (.refl _) fun level => .ite (.refl _) (.bind (.refl _) fun op => ?_)
    refine h.bind fun right => .bind ?_ fun right => ih _
    exact .bind (.refl _) fun next => .ite (htighter _ _) (.refl _)

end Loops

-- Each production of one depth lies within that of the next.
structure DepthStep (p : Parser) (depth : Nat) : Prop where
  expression : Within (p.expression depth) (p.expression (depth + 1))
  primary : Within (p.primary depth) (p.primary (depth + 1))
  parens : Within (p.parens depth) (p.parens (depth + 1))
  identifier : Within (p.identifier depth) (p.identifier (depth + 1))
  binaryOp : ∀ left least,
    Within (p.binaryOp depth left least) (p.binaryOp (depth + 1) left least)

theorem depthStep (p : Parser) (depth : Nat) : p.DepthStep depth := by
  induction depth with
  | zero =>
    constructor
    all_goals intros
    all_goals exact within_tooDeep p _
  | succ depth ih =>
    constructor
    · simp only [expression]
      exact ih.primary.bind fun first => ih.binaryOp first 0
    · simp only [primary]
      refine .bind (.refl _) fun token => ?_
      obtain ⟨kind, lexeme, value, location?⟩ := token
      cases kind
      case identifier => exact ih.identifier
      case parensOpen => exact ih.parens
      all_goals exact .refl _
    · simp only [parens]
      exact .bind (.refl _) fun _ => ih.expression.bind fun _ => .refl _
    · simp only [identifier]
      refine .bind (.refl _) fun name => .bind (.refl _) fun opens => .ite ?_ (.refl _)
      exact .bind (.refl _) fun _ =>
        (within_callArguments p ih.expression).bind fun _ => .refl _
    · intro left least
      simp only [binaryOp]
      exact .bind (.refl _) fun bound =>
        within_climb p ih.primary ih.binaryOp least bound left

section Settles

variable {α : Type} {f : Nat → Run α} {cursor : Nat} {result : EStateM.Result SyntaxFault Nat α}

-- What runs of all depths come to that are deep enough.
def Settles (f : Nat → Run α) (cursor : Nat) (result : EStateM.Result SyntaxFault Nat α) : Prop :=
  ∃ limit, ∀ depth, limit ≤ depth → f depth cursor = result

theorem Settles.unique {other : EStateM.Result SyntaxFault Nat α} (h : Settles f cursor result)
    (h' : Settles f cursor other) : result = other := by
  obtain ⟨limit, hlimit⟩ := h
  obtain ⟨limit', hlimit'⟩ := h'
  exact (hlimit _ (Nat.le_max_left limit limit')).symm.trans
    (hlimit' _ (Nat.le_max_right limit limit'))

theorem within_of_le (hstep : ∀ depth, Within (f depth) (f (depth + 1))) {depth deeper : Nat}
    (hle : depth ≤ deeper) : Within (f depth) (f deeper) := by
  induction hle with
  | refl => exact .refl _
  | step _ ih => exact ih.trans (hstep _)

-- A run that does not stop for its depth has the result of all deeper ones.
theorem settles_of_not_tooDeep (hstep : ∀ depth, Within (f depth) (f (depth + 1))) {depth : Nat}
    (hdeep : ¬ TooDeep (f depth) cursor) : Settles f cursor (f depth cursor) :=
  ⟨depth, fun _ hle => ((within_of_le hstep hle cursor).resolve_right hdeep).symm⟩

theorem settles_ok (hstep : ∀ depth, Within (f depth) (f (depth + 1))) {depth next : Nat} {a : α}
    (h : f depth cursor = .ok a next) : Settles f cursor (.ok a next) := by
  refine h ▸ settles_of_not_tooDeep hstep fun hdeep => ?_
  exact hdeep.ok h

theorem settles_error (hstep : ∀ depth, Within (f depth) (f (depth + 1))) {depth next : Nat}
    {fault : SyntaxFault} (h : f depth cursor = .error fault next)
    (hcause : fault.cause ≠ .nestingTooDeep) : Settles f cursor (.error fault next) := by
  refine h ▸ settles_of_not_tooDeep hstep fun hdeep => ?_
  exact hcause (hdeep.error h)

end Settles

end ExprLang.Parser
