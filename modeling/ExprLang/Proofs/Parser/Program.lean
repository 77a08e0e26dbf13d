import ExprLang.Proofs.Grammar.Unambiguity
import ExprLang.Proofs.Parser.Soundness

-- What parsing comes to at a depth: the greedy derivation of all tokens, or the
-- fault that reading them shows, or that the depth is exceeded.

namespace ExprLang.Parser

open Grammar

variable {p : Parser}

section Definitions

-- The names and commas of a prototype, up to the token that closes it, which may
-- be missing.
def ParametersAt (p : Parser) (cursor : Nat) (names : List Value) (stop : Nat) : Prop :=
  (∃ parameters : Parameters, p.Spans cursor parameters.tokens (stop + 1) ∧
    names = parameters.names) ∨
  (p.tokens[stop]? = none ∧ ∃ tokens, p.Spans cursor tokens stop ∧
    Position.parameter.walk p.precedence tokens = .ok .parameter)

theorem ends_parameters (bound cursor : Nat) (hbound : p.tokens.size - cursor < bound) :
    Ends (p.parameters bound) cursor (p.ParametersAt cursor) (p.FailsFrom .parameter cursor) := by
  induction bound generalizing cursor with
  | zero => omega
  | succ bound ih =>
    simp only [parameters, ends_bind, ends_check, ends_ite, ends_pure, ends_advance, ends_take,
      decide_eq_true_eq]
    by_cases hname : (p.tokenAt cursor).kind = .identifier
    · have htoken := getElem?_of_kind hname (by decide)
      have hlt := lt_size_of_kind hname (by decide)
      rw [if_pos hname]
      by_cases hclose : (p.tokenAt (cursor + 1)).kind = .parensClose
      · have hclosing := getElem?_of_kind hclose (by decide)
        rw [if_pos hclose]
        exact .inl ⟨.last (p.terminalAt cursor hname) (p.terminalAt _ hclose),
          ⟨htoken, hclosing, rfl⟩, rfl⟩
      · rw [if_neg hclose]
        by_cases hcomma : (p.tokenAt (cursor + 1)).kind = .comma
        · have hseparator := getElem?_of_kind hcomma (by decide)
          rw [if_pos hcomma]
          refine (ih (cursor + 1 + 1) (by omega)).imp ?_ ?_
          · rintro names stop (⟨rest, hspans, rfl⟩ | ⟨hend, tokens, hspans, hwalk⟩)
            · exact .inl ⟨.more (p.terminalAt cursor hname) (p.terminalAt _ hcomma) rest,
                ⟨htoken, hseparator, hspans⟩, rfl⟩
            · refine .inr ⟨hend, _ :: _ :: tokens, ⟨htoken, hseparator, hspans⟩, ?_⟩
              rw [Position.walk_cons (step_parameter hname),
                Position.walk_cons (step_nextParameter hcomma), hwalk]
          · intro fault stop hfails
            exact (hfails.step hseparator (step_nextParameter hcomma)).step htoken
              (step_parameter hname)
        · rw [if_neg hcomma]
          refine FailsFrom.step htoken (step_parameter hname) (failsFrom_of_step ?_ rfl)
          simp [Position.step, hclose, hcomma]
    · rw [if_neg hname]
      cases hclosing : p.tokens[cursor]? with
      | none => exact .inr ⟨hclosing, [], rfl, rfl⟩
      | some closing =>
        obtain rfl := tokenAt_of_getElem? hclosing
        exact .inl ⟨.close ⟨_, hname⟩, ⟨hclosing, rfl⟩, rfl⟩

-- A prototype that the end of the input closes is none, and shows as such only
-- in the body that it lacks.
def PrototypeAt (p : Parser) (cursor : Nat) (prototype : Prototype) (stop : Nat) : Prop :=
  (∃ header : Header, p.Spans cursor header.tokens stop ∧ prototype = header.prototype) ∨
  ∃ last tokens, stop = last + 1 ∧ p.tokens[last]? = none ∧ p.Spans cursor tokens last ∧
    Position.keyword.walk p.precedence tokens = .ok .parameter

theorem ends_prototype (cursor : Nat) :
    Ends p.prototype cursor (p.PrototypeAt cursor) (p.FailsFrom .keyword cursor) := by
  simp only [prototype, ends_bind, ends_advance, ends_take, ends_pure, ends_rounds]
  by_cases hname : (p.tokenAt cursor).kind = .identifier
  · have hnamed := getElem?_of_kind hname (by decide)
    rw [if_pos hname]
    by_cases hopen : (p.tokenAt (cursor + 1)).kind = .parensOpen
    · have hopening := getElem?_of_kind hopen (by decide)
      rw [if_pos hopen]
      refine (ends_parameters _ (cursor + 1 + 1) (Nat.lt_succ_self _)).imp ?_ ?_
      · rintro names stop (⟨parameters, hspans, rfl⟩ | ⟨hend, tokens, hspans, hwalk⟩)
        · exact .inl ⟨⟨p.terminalAt cursor hname, p.terminalAt _ hopen, parameters⟩,
            ⟨hnamed, hopening, hspans⟩, rfl⟩
        · refine .inr ⟨stop, _ :: _ :: tokens, rfl, hend, ⟨hnamed, hopening, hspans⟩, ?_⟩
          rw [Position.walk_cons (step_functionName hname),
            Position.walk_cons (step_header hopen), hwalk]
      · intro fault stop hfails
        exact (hfails.step hopening (step_header hopen)).step hnamed (step_functionName hname)
    · rw [if_neg hopen]
      refine FailsFrom.step hnamed (step_functionName hname) (failsFrom_of_step ?_ rfl)
      simp [Position.step, hopen]
  · rw [if_neg hname]
    refine failsFrom_of_step ?_ rfl
    simp [Position.step, hname]

-- The fault is one of the token where parsing has stopped, or of the one before.
-- All tokens past the end are the same.
def FaultyWithin (p : Parser) (position : Position) (cursor : Nat) (fault : SyntaxFault)
    (stop : Nat) : Prop :=
  fault.cause = .nestingTooDeep ∨
    p.FaultsFrom position cursor (min (stop - fault.cause.taken) p.tokens.size) fault.cause ∧
      fault.token = p.tokenAt (min (stop - fault.cause.taken) p.tokens.size)

theorem FailsFrom.within {position : Position} {cursor stop : Nat} {fault : SyntaxFault}
    (hcursor : cursor ≤ p.tokens.size) (h : p.FailsFrom position cursor fault stop) :
    p.FaultyWithin position cursor fault stop := by
  refine h.imp_right fun hfaulty => ?_
  obtain ⟨place, hfaults, htoken, rfl⟩ := hfaulty
  have hplace : place ≤ p.tokens.size := by
    obtain ⟨tokens, next, hspans, -⟩ := hfaults
    exact hspans.le_size hcursor
  rw [Nat.add_sub_cancel, Nat.min_eq_left hplace]
  exact ⟨hfaults, htoken⟩

theorem FaultyWithin.walk {position next : Position} {cursor middle stop : Nat}
    {fault : SyntaxFault} {tokens : List Token} (hspans : p.Spans cursor tokens middle)
    (hwalk : position.walk p.precedence tokens = .ok next)
    (h : p.FaultyWithin next middle fault stop) : p.FaultyWithin position cursor fault stop :=
  h.imp_right fun ⟨hfaults, htoken⟩ => ⟨hfaults.walk hspans hwalk, htoken⟩

def PhraseAt (p : Parser) (cursor : Nat) (definition : Definition) (stop : Nat) : Prop :=
  ∃ phrase : Phrase, phrase.Listed p.precedence ∧ p.Spans cursor phrase.tokens stop ∧
    definition = phrase.meaning p.precedence ∧ p.NotCalled phrase.body.endsInName stop ∧
    p.Below 0 stop

-- A prototype that the end of the input closes has no body.
theorem faultyWithin_of_end {position : Position} {cursor stop last : Nat} {fault : SyntaxFault}
    {tokens : List Token} (hcursor : cursor ≤ p.tokens.size) (hend : p.tokens[stop]? = none)
    (hspans : p.Spans cursor tokens stop)
    (hwalk : position.walk p.precedence tokens = .ok .parameter)
    (h : p.FailsFrom (.operand []) (stop + 1) fault last) :
    p.FaultyWithin position cursor fault last := by
  refine h.imp_right fun hfaulty => ?_
  obtain ⟨cause, token⟩ := fault
  obtain ⟨place, ⟨more, next, hmore, hnext, hfault⟩, htoken, rfl⟩ := hfaulty
  have hsize : p.tokens.size ≤ stop := Array.getElem?_eq_none_iff.mp hend
  obtain rfl : stop = p.tokens.size := Nat.le_antisymm (hspans.le_size hcursor) hsize
  obtain rfl := hmore.eq_nil (Nat.le_succ _)
  obtain rfl := spans_nil.mp hmore
  obtain rfl := Except.ok.inj hnext
  rw [Array.getElem?_eq_none (Nat.le_succ _)] at hfault
  obtain rfl := Option.some.inj hfault
  rw [Nat.add_sub_cancel, Nat.min_eq_right (Nat.le_succ _)]
  refine ⟨⟨tokens, .parameter, hspans, hwalk, by rw [hend]; rfl⟩, ?_⟩
  rw [htoken, p.tokenAt_of_size_le (Nat.le_succ _), p.tokenAt_of_size_le (Nat.le_refl _)]

theorem ends_definition {depth cursor : Nat} (hkind : (p.tokenAt cursor).kind = .define) :
    Ends (p.definition depth) cursor (p.PhraseAt cursor) (p.FaultyWithin .start cursor) := by
  have hkeyword := getElem?_of_kind hkind (by decide)
  have hstep : Position.start.step p.precedence (p.tokenAt cursor) = .ok .keyword :=
    step_define hkind
  have hsize := Nat.le_of_lt (lt_size_of_kind hkind (by decide))
  simp only [definition, ends_bind, ends_advance, ends_pure]
  refine (ends_prototype (cursor + 1)).imp ?_ fun fault stop hfails =>
    (hfails.step hkeyword hstep).within hsize
  intro prototype middle hprototype
  refine (ends_expression depth middle).imp ?_ ?_
  · intro tree stop hat
    have hmiddle := hat.lt.2
    obtain ⟨body, hlisted, hbody, rfl, hcalled, hbelow⟩ := hat
    rcases hprototype with ⟨header, hheader, rfl⟩ | ⟨last, _, rfl, hend, -⟩
    · exact ⟨.definition (p.terminalAt cursor hkind) header body, hlisted,
        ⟨hkeyword, spans_append.mpr ⟨middle, hheader, hbody⟩⟩, rfl, hcalled, hbelow⟩
    · have := Array.getElem?_eq_none_iff.mp hend
      omega
  · intro fault stop hfails
    rcases hprototype with ⟨header, hheader, -⟩ | ⟨last, tokens, rfl, hend, hspans, hwalk⟩
    · have hbody := (hfails []).walk hheader (Position.walk_of_append header.walk)
      exact (hbody.step hkeyword hstep).within hsize
    · exact faultyWithin_of_end hsize hend (spans_cons.mpr ⟨hkeyword, hspans⟩)
        ((Position.walk_cons hstep).trans hwalk) (hfails [])

theorem ends_bareExpression {depth cursor : Nat} (hcursor : cursor < p.tokens.size)
    (hkind : (p.tokenAt cursor).kind ≠ .define) :
    Ends (p.bareExpression depth) cursor (p.PhraseAt cursor) (p.FaultyWithin .start cursor) := by
  simp only [bareExpression, ends_bind, ends_pure]
  refine (ends_expression depth cursor).imp ?_ ?_
  · rintro _ stop ⟨body, hlisted, hspans, rfl, hcalled, hbelow⟩
    exact ⟨.bare body, hlisted, hspans, rfl, hcalled, hbelow⟩
  · intro fault stop hfails
    refine FailsFrom.within (Nat.le_of_lt hcursor) (FailsFrom.congr ?_ ?_ (hfails []))
    · intro token htoken
      obtain rfl := tokenAt_of_getElem? htoken
      simp [Position.step, Position.stepStart, hkind]
    · intro hnone
      rw [Array.getElem?_eq_getElem hcursor] at hnone
      cases hnone

theorem ends_unit (depth : Nat) {cursor : Nat} (hcursor : cursor < p.tokens.size) :
    Ends (p.unit depth) cursor (p.PhraseAt cursor) (p.FaultyWithin .start cursor) := by
  simp only [unit, ends_bind, ends_check, ends_ite, decide_eq_true_eq]
  split
  · exact ends_definition ‹_›
  · exact ends_bareExpression hcursor ‹_›

end Definitions

section Units

theorem PhraseAt.lt {cursor stop : Nat} {definition : Definition}
    (h : p.PhraseAt cursor definition stop) : cursor < stop := by
  obtain ⟨phrase, -, hspans, -⟩ := h
  obtain ⟨head, rest, htokens, -⟩ := phrase.exists_tokens
  have := hspans.eq_add
  simp only [htokens, List.length_cons] at this
  omega

theorem PhraseAt.le_size {cursor stop : Nat} {definition : Definition}
    (h : p.PhraseAt cursor definition stop) (hcursor : cursor ≤ p.tokens.size) :
    stop ≤ p.tokens.size := by
  obtain ⟨phrase, -, hspans, -⟩ := h
  exact hspans.le_size hcursor

-- A fault of the next phrase shows behind the one before as well.
theorem FaultyWithin.behind {named : Bool} {cursor stop : Nat} {fault : SyntaxFault}
    (hcalled : p.NotCalled named cursor) (hbelow : p.Below 0 cursor)
    (h : p.FaultyWithin .start cursor fault stop) :
    p.FaultyWithin (.complete named []) cursor fault stop := by
  refine h.imp_right fun ⟨hfaults, htoken⟩ => ⟨FaultsFrom.congr ?_ ?_ hfaults, htoken⟩
  · intro token htoken
    obtain rfl := tokenAt_of_getElem? htoken
    rw [step_of_below hcalled hbelow]
    rfl
  · exact fun _ => rfl

-- What the units from a cursor on come to.
def UnitsAt (p : Parser) (cursor : Nat) (progress : Progress) : Prop :=
  match progress.fault? with
  | none => ∃ phrases, (∀ phrase ∈ phrases, phrase.Listed p.precedence) ∧
      p.Spans cursor (phrases.flatMap Phrase.tokens) p.tokens.size ∧ Greedy phrases ∧
      progress.definitions = phrases.map (Phrase.meaning p.precedence) ∧
      progress.cursor = p.tokens.size
  | some fault => p.FaultyWithin .start cursor fault progress.cursor

theorem UnitsAt.cons {cursor next : Nat} {definition : Definition} {progress : Progress}
    (hphrase : p.PhraseAt cursor definition next) (hrest : p.UnitsAt next progress) :
    p.UnitsAt cursor (progress.prepend [definition]) := by
  obtain ⟨phrase, hlisted, hspans, rfl, hcalled, hbelow⟩ := hphrase
  simp only [UnitsAt, Progress.prepend] at hrest ⊢
  cases hfault : progress.fault? with
  | some fault =>
    rw [hfault] at hrest
    exact (FaultyWithin.behind hcalled hbelow hrest).walk hspans
      (Position.walk_of_append (phrase.walk hlisted))
  | none =>
    rw [hfault] at hrest
    obtain ⟨phrases, hall, hmore, hgreedy, hdefinitions, hstop⟩ := hrest
    refine ⟨phrase :: phrases, List.forall_mem_cons.mpr ⟨hlisted, hall⟩,
      spans_append.mpr ⟨next, hspans, hmore⟩, ?_, ?_, hstop⟩
    · refine greedy_cons.mpr ⟨fun hname head hhead => ?_, hgreedy⟩
      -- the head of the next phrase is the token that makes no call
      cases htokens : phrases.flatMap Phrase.tokens with
      | nil => simp [htokens] at hhead
      | cons first tokens =>
        rw [htokens] at hhead hmore
        obtain rfl := Option.mem_some_iff.mp hhead
        rw [← tokenAt_of_getElem? hmore.1]
        exact hcalled hname
    · rw [hdefinitions]
      rfl

theorem unitsAt_units (depth bound cursor : Nat) (hcursor : cursor ≤ p.tokens.size)
    (hbound : p.tokens.size - cursor ≤ bound) : p.UnitsAt cursor (p.units depth bound cursor) := by
  have hnone : p.UnitsAt p.tokens.size ⟨[], none, p.tokens.size⟩ :=
    ⟨[], by simp, rfl, .nil, rfl, rfl⟩
  induction bound generalizing cursor with
  | zero =>
    obtain rfl : cursor = p.tokens.size := by omega
    rw [units_of_size_le (Nat.le_refl _)]
    exact hnone
  | succ bound ih =>
    by_cases hend : p.tokens.size ≤ cursor
    · obtain rfl := Nat.le_antisymm hcursor hend
      rw [units_of_size_le hend]
      exact hnone
    have hlt := Nat.lt_of_not_le hend
    have hunit := ends_unit depth hlt
    cases hrun : p.unit depth cursor with
    | error fault stop =>
      rw [units_of_error hlt hrun]
      exact hunit.error hrun
    | ok definition next =>
      have hphrase := hunit.ok hrun
      have hnext := hphrase.lt
      rw [units_of_ok hlt hrun]
      exact .cons hphrase (ih next (hphrase.le_size hcursor) (by omega))

end Units

end ExprLang.Parser
