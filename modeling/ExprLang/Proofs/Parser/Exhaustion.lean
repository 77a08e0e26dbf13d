import ExprLang.Proofs.Parser.Ample
import ExprLang.Proofs.Parser.Verdict
import Mathlib.Data.Finset.Card
import Mathlib.Data.Finset.Dedup

-- Where a depth is exceeded, and how many brackets are open there. Chains, lists
-- and units take no depth, however long they are. Only brackets do, each a few
-- steps for its productions and one for each level that operators bind at.

namespace ExprLang

-- How many parentheses and calls are open.
def Grammar.Position.nesting : Grammar.Position → Nat
  | .operand frames | .complete _ frames => frames.length
  | .firstArgument frames => frames.length + 1
  | .start | .keyword | .functionName | .parameter | .parameterName => 0

namespace PrecedenceTable

variable {table : PrecedenceTable} {value value' : Value} {least level next : Int}

-- The levels that bind at least as tightly as this one.
def tiers (table : PrecedenceTable) (least : Int) : Finset Int :=
  (table.map (·.2)).toFinset.filter (least ≤ ·)

-- How many chains may be open between two brackets. There is one at least.
def rungs (table : PrecedenceTable) (least : Int) : Nat := max 1 (table.tiers least).card

-- The productions that are open for each bracket: an expression, its operand, and
-- what the operand is, besides the chains.
def bracketDepth (table : PrecedenceTable) : Nat := 3 + table.rungs 0

theorem mem_tiers (h : table.level? value = some level) (hle : least ≤ level) :
    level ∈ table.tiers least := by
  obtain ⟨text, -, hlookup⟩ := Option.bind_eq_some_iff.mp h
  obtain ⟨before, rest, hentries, -⟩ := List.lookup_eq_some_iff.mp hlookup
  have hmem : level ∈ table.map (·.2) := List.mem_map.mpr ⟨(text, level), by simp [hentries], rfl⟩
  exact Finset.mem_filter.mpr ⟨List.mem_toFinset.mpr hmem, hle⟩

-- Each chain inside another begins above a level of that one.
theorem rungs_lt (hlevel : table.level? value = some level) (hle : least ≤ level)
    (hnext : table.level? value' = some next) (hlt : level < next) :
    table.rungs (level + 1) < table.rungs least := by
  have hsubset : table.tiers (level + 1) ⊆ table.tiers least := by
    intro other hother
    obtain ⟨hmem, hother⟩ := Finset.mem_filter.mp hother
    exact Finset.mem_filter.mpr ⟨hmem, by omega⟩
  have hnew : level ∉ table.tiers (level + 1) :=
    fun hmem => Int.not_le_of_gt (Int.lt_succ level) (Finset.mem_filter.mp hmem).2
  have hstrict := (Finset.ssubset_iff_of_subset hsubset).mpr ⟨level, mem_tiers hlevel hle, hnew⟩
  have hcard := Finset.card_lt_card hstrict
  have hpos : 0 < (table.tiers (level + 1)).card :=
    Finset.card_pos.mpr ⟨next, mem_tiers hnext (by omega)⟩
  unfold rungs
  omega

theorem one_le_rungs (table : PrecedenceTable) (least : Int) : 1 ≤ table.rungs least :=
  Nat.le_max_left _ _

end PrecedenceTable

namespace Parser

open Grammar

variable {p : Parser} {cursor middle stop depth weight : Nat} {fault : SyntaxFault}
  {position position' next : Position} {tokens : List Token} {token : Token}
  {frames : List Frame}

-- If the depth is exceeded, then where so many brackets are open that they need
-- more of it than this.
def Exhausts (p : Parser) (position : Position) (cursor weight : Nat) (fault : SyntaxFault)
    (stop : Nat) : Prop :=
  fault.cause = .nestingTooDeep → fault.token = p.tokenAt stop ∧
    ∃ tokens next, p.Spans cursor tokens stop ∧ position.walk p.precedence tokens = .ok next ∧
      weight < p.precedence.bracketDepth * (next.nesting + 1)

section Exhausts

theorem exhausts_of_ne (h : fault.cause ≠ .nestingTooDeep) :
    p.Exhausts position cursor weight fault stop := fun hdeep => absurd hdeep h

theorem exhausts_here (h : weight < p.precedence.bracketDepth * (position.nesting + 1)) :
    p.Exhausts position cursor weight ⟨.nestingTooDeep, p.tokenAt cursor⟩ cursor :=
  fun _ => ⟨rfl, [], position, rfl, rfl, h⟩

theorem Exhausts.mono {weight' : Nat} (h : p.Exhausts position cursor weight fault stop)
    (hle : weight' ≤ weight) : p.Exhausts position cursor weight' fault stop := by
  intro hdeep
  obtain ⟨htoken, tokens, last, hspans, hwalk, hlt⟩ := h hdeep
  exact ⟨htoken, tokens, last, hspans, hwalk, Nat.lt_of_le_of_lt hle hlt⟩

theorem Exhausts.walk (hspans : p.Spans cursor tokens middle)
    (hwalk : position.walk p.precedence tokens = .ok next)
    (h : p.Exhausts next middle weight fault stop) :
    p.Exhausts position cursor weight fault stop := by
  intro hdeep
  obtain ⟨htoken, more, last, hmore, hlast, hlt⟩ := h hdeep
  exact ⟨htoken, tokens ++ more, last, spans_append.mpr ⟨middle, hspans, hmore⟩,
    (Position.walk_append more hwalk).trans hlast, hlt⟩

theorem Exhausts.step (htoken : p.tokens[cursor]? = some token)
    (hstep : position.step p.precedence token = .ok next)
    (h : p.Exhausts next (cursor + 1) weight fault stop) :
    p.Exhausts position cursor weight fault stop :=
  h.walk (spans_cons.mpr ⟨htoken, spans_nil.mpr rfl⟩) (Position.walk_cons hstep)

-- Positions at which as much is open, and that do the same with the next token.
theorem Exhausts.congr
    (hstep : ∀ token, p.tokens[cursor]? = some token →
      position.step p.precedence token = position'.step p.precedence token)
    (hnesting : position.nesting = position'.nesting)
    (h : p.Exhausts position cursor weight fault stop) :
    p.Exhausts position' cursor weight fault stop := by
  intro hdeep
  obtain ⟨htoken, tokens, last, hspans, hwalk, hlt⟩ := h hdeep
  cases tokens with
  | nil =>
    obtain rfl := Except.ok.inj hwalk
    exact ⟨htoken, [], position', hspans, rfl, hnesting ▸ hlt⟩
  | cons token tokens =>
    refine ⟨htoken, token :: tokens, last, hspans, ?_, hlt⟩
    simpa only [Position.walk, List.foldlM_cons, hstep token hspans.1] using hwalk

end Exhausts

section Loops

-- What a chain may need beyond its own depth is needed by an operand of it, or by
-- a tighter chain.
theorem exhausts_climb {operand : Run Node} {tighter : Node → Int → Run Node} {least : Int}
    (hleast : 0 ≤ least)
    (hoperand : ∀ cursor,
      Ends operand cursor (p.OperandAt cursor) (p.Exhausts (.operand frames) cursor weight))
    (htighter : ∀ right level cursor value, least ≤ level →
      p.precedence.level? value = some level →
      Ends (p.extendRight tighter level right) cursor
        (p.Climbed p.OperandAt right (level + 1) cursor)
        fun fault stop => ∀ named, p.NotCalled named cursor →
          p.Exhausts (.complete named frames) cursor weight fault stop)
    (bound : Nat) (left : Node) (cursor : Nat) {named : Bool} (hcalled : p.NotCalled named cursor) :
    Ends (p.climb operand tighter least bound left) cursor (fun _ _ => True)
      (p.Exhausts (.complete named frames) cursor weight) := by
  induction bound generalizing left cursor named with
  | zero => exact exhausts_of_ne (by simp [stallFault])
  | succ bound ih =>
    simp only [climb, ends_bind, ends_currentPrecedence, ends_ite, ends_pure, ends_take]
    cases hlevel : p.levelAt cursor with
    | none => exact exhausts_of_ne (by simp)
    | some level =>
      dsimp only
      by_cases hlt : level < least
      · rw [if_pos hlt]
        trivial
      have hpos : 0 ≤ level := by omega
      obtain ⟨hkind, hlisted⟩ := (levelAt_eq_some_iff hpos).mp hlevel
      rw [if_neg hlt, if_pos hkind]
      refine (hoperand (cursor + 1)).imp ?_ fun fault stop hexhausts =>
        hexhausts.step (getElem?_of_kind hkind (by decide))
          (step_operator named frames hkind hlisted hpos)
      intro right next hright
      refine (htighter right level next _ (by omega) hlisted).imp ?_ ?_
      · rintro _ stop ⟨inner, hinner, htight, -, -⟩
        -- the operator and all that its right side takes are behind the loop
        have hlinks : ∀ link ∈ ⟨(p.tokenAt cursor).value.plain, level, right⟩ :: inner,
            0 ≤ link.level := by
          refine List.forall_mem_cons.mpr ⟨hpos, fun link hlink => ?_⟩
          have := htight link hlink
          omega
        obtain ⟨tokens, named', hspans, hwalk, hstop⟩ :=
          (Chain.cons hkind hlisted hright hinner).exists_walk hlinks hcalled frames
        exact (ih _ stop hstop).imp (fun _ _ h => h) fun _ _ h => h.walk hspans hwalk
      · intro fault stop hexhausts
        obtain ⟨tokens, named', hspans, hwalk, hnext⟩ :=
          (Chain.cons hkind hlisted hright .nil).exists_walk (by simpa using hpos) hcalled frames
        exact (hexhausts named' hnext).walk hspans hwalk

theorem exhausts_arguments
    (hexpression : ∀ cursor, Ends (p.expression depth) cursor (fun _ _ => True)
      (p.Exhausts (.operand (.call :: frames)) cursor weight)) (bound cursor : Nat) :
    Ends (p.arguments (p.expression depth) bound) cursor (fun _ _ => True)
      (p.Exhausts (.operand (.call :: frames)) cursor weight) := by
  induction bound generalizing cursor with
  | zero => exact exhausts_of_ne (by simp [stallFault])
  | succ bound ih =>
    simp only [arguments, ends_bind, ends_check, ends_ite, ends_pure, decide_eq_true_eq, ends_take]
    refine ((ends_expression depth cursor).of_ok_of_error (hexpression cursor)).imp ?_
      fun _ _ h => h
    rintro _ next ⟨argument, hlisted, hspans, rfl, -, -⟩
    by_cases hclose : (p.tokenAt next).kind = .parensClose
    · rw [if_pos hclose]
      trivial
    rw [if_neg hclose]
    by_cases hcomma : (p.tokenAt next).kind = .comma
    · rw [if_pos hcomma]
      refine (ih (next + 1)).imp (fun _ _ h => h) fun fault stop hexhausts => ?_
      have hwalk := Position.walk_of_append (argument.walk hlisted (.call :: frames))
      exact (hexhausts.step (getElem?_of_kind hcomma (by decide))
        (step_comma _ frames hcomma)).walk hspans hwalk
    · rw [if_neg hcomma]
      exact exhausts_of_ne (by simp)

end Loops

section Productions

variable {frames : List Frame} {named : Bool}

-- What the open brackets have used up of the depth.
def used (p : Parser) (frames : List Frame) : Nat := p.precedence.bracketDepth * frames.length

theorem used_cons (frame : Frame) : p.used (frame :: frames) =
    3 + p.precedence.rungs 0 + p.used frames := by
  rw [used, List.length_cons, Nat.mul_succ, Nat.add_comm, used, PrecedenceTable.bracketDepth]

-- Each production needs of the depth what is added to it here, so that all the
-- productions that are open for a bracket need as much as the bracket.
structure Exhaustion (p : Parser) (depth : Nat) : Prop where
  expression : ∀ frames cursor, Ends (p.expression depth) cursor (fun _ _ => True)
    (p.Exhausts (.operand frames) cursor (depth + p.used frames))
  primary : ∀ frames cursor, Ends (p.primary depth) cursor (fun _ _ => True)
    (p.Exhausts (.operand frames) cursor (depth + 1 + p.precedence.rungs 0 + p.used frames))
  parens : ∀ frames cursor, (p.tokenAt cursor).kind = .parensOpen →
    Ends (p.parens depth) cursor (fun _ _ => True)
      (p.Exhausts (.operand frames) cursor (depth + 2 + p.precedence.rungs 0 + p.used frames))
  identifier : ∀ frames cursor, (p.tokenAt cursor).kind = .identifier →
    Ends (p.identifier depth) cursor (fun _ _ => True)
      (p.Exhausts (.operand frames) cursor (depth + 2 + p.precedence.rungs 0 + p.used frames))
  binaryOp : ∀ frames cursor left least named weight, 0 ≤ least → p.NotCalled named cursor →
    weight + p.precedence.rungs least ≤ depth + 1 + p.precedence.rungs 0 + p.used frames →
    Ends (p.binaryOp depth left least) cursor (fun _ _ => True)
      (p.Exhausts (.complete named frames) cursor weight)

theorem exhaustion_zero (p : Parser) : p.Exhaustion 0 := by
  have hhere : ∀ {position : Position} {frames : List Frame} {weight cursor : Nat},
      position.nesting = frames.length → weight < 3 + p.precedence.rungs 0 + p.used frames →
      p.Exhausts position cursor weight ⟨.nestingTooDeep, p.tokenAt cursor⟩ cursor := by
    intro position frames weight cursor hnesting hlt
    refine exhausts_here ?_
    rw [hnesting, Nat.mul_succ, Nat.add_comm]
    exact hlt
  constructor
  · exact fun frames cursor => hhere rfl (by omega)
  · exact fun frames cursor => hhere rfl (by omega)
  · exact fun frames cursor _ => hhere rfl (by omega)
  · exact fun frames cursor _ => hhere rfl (by omega)
  · exact fun frames cursor left least named weight _ _ hweight => hhere rfl (by omega)

variable (h : p.Exhaustion depth)

include h

theorem exhausts_expression (frames : List Frame) (cursor : Nat) :
    Ends (p.expression (depth + 1)) cursor (fun _ _ => True)
      (p.Exhausts (.operand frames) cursor (depth + 1 + p.used frames)) := by
  simp only [expression, ends_bind]
  refine ((ends_primary depth cursor).of_ok_of_error (h.primary frames cursor)).imp ?_
    fun _ _ hexhausts => hexhausts.mono (by omega)
  rintro tree next ⟨first, hfirst, hspans, rfl, hcalled⟩
  have hwalk := Position.walk_of_append (first.walk hfirst frames)
  exact (h.binaryOp frames next _ 0 first.isName _ (Int.le_refl 0) hcalled (by omega)).imp
    (fun _ _ htrue => htrue) fun _ _ hexhausts => hexhausts.walk hspans hwalk

theorem exhausts_primary (frames : List Frame) (cursor : Nat) :
    Ends (p.primary (depth + 1)) cursor (fun _ _ => True)
      (p.Exhausts (.operand frames) cursor
        (depth + 1 + 1 + p.precedence.rungs 0 + p.used frames)) := by
  simp only [primary, ends_bind, ends_peek]
  split
  case h_1 hkind => exact h.identifier frames cursor hkind
  case h_2 hkind => simp only [number, ends_bind, ends_take, if_pos hkind, ends_pure]
  case h_3 hkind => exact h.parens frames cursor hkind
  case h_4 => exact exhausts_of_ne (by simp)

-- Inside the parentheses one bracket more is open.
theorem exhausts_parens (frames : List Frame) {cursor : Nat}
    (hkind : (p.tokenAt cursor).kind = .parensOpen) :
    Ends (p.parens (depth + 1)) cursor (fun _ _ => True)
      (p.Exhausts (.operand frames) cursor
        (depth + 1 + 2 + p.precedence.rungs 0 + p.used frames)) := by
  simp only [parens, ends_bind, ends_take, if_pos hkind]
  have hinner := h.expression (.parens :: frames) (cursor + 1)
  rw [used_cons] at hinner
  refine hinner.imp (fun _ next _ => ?_) fun _ _ hexhausts => ?_
  · split
    · trivial
    · exact exhausts_of_ne (by simp)
  · exact (hexhausts.mono (by omega)).step (getElem?_of_kind hkind (by decide))
      (step_parens frames hkind)

theorem exhausts_identifier (frames : List Frame) {cursor : Nat}
    (hkind : (p.tokenAt cursor).kind = .identifier) :
    Ends (p.identifier (depth + 1)) cursor (fun _ _ => True)
      (p.Exhausts (.operand frames) cursor
        (depth + 1 + 2 + p.precedence.rungs 0 + p.used frames)) := by
  simp only [identifier, callArguments, ends_bind, ends_take, if_pos hkind, ends_check, ends_ite,
    ends_pure, ends_advance, ends_rounds, decide_eq_true_eq]
  by_cases hopen : (p.tokenAt (cursor + 1)).kind = .parensOpen
  · rw [if_pos hopen]
    by_cases hclose : (p.tokenAt (cursor + 1 + 1)).kind = .parensClose
    · rw [if_pos hclose]
      trivial
    rw [if_neg hclose]
    have harguments := exhausts_arguments (h.expression (.call :: frames))
      (p.tokens.size - (cursor + 1 + 1) + 1) (cursor + 1 + 1)
    rw [used_cons] at harguments
    refine harguments.imp (fun _ _ htrue => htrue) fun fault stop hexhausts => ?_
    have hfirst : p.Exhausts (.firstArgument frames) (cursor + 1 + 1)
        (depth + (3 + p.precedence.rungs 0 + p.used frames)) fault stop := by
      refine Exhausts.congr (fun token htoken => ?_) ?_ hexhausts
      · obtain rfl := tokenAt_of_getElem? htoken
        simp [Position.step, hclose]
      · rfl
    exact ((hfirst.mono (by omega)).step (getElem?_of_kind hopen (by decide))
      (step_call frames hopen)).step (getElem?_of_kind hkind (by decide)) (step_name frames hkind)
  · rw [if_neg hopen]
    trivial

-- A tighter chain needs less, for it has fewer levels left.
theorem exhausts_extendRight {least level : Int} {value : Value} (hleast : 0 ≤ least)
    (hle : least ≤ level) (hlisted : p.precedence.level? value = some level)
    (hweight : weight + p.precedence.rungs least ≤
      depth + 2 + p.precedence.rungs 0 + p.used frames) (right : Node) (cursor : Nat) :
    Ends (p.extendRight (p.binaryOp depth) level right) cursor
      (p.Climbed p.OperandAt right (level + 1) cursor)
      fun fault stop => ∀ named, p.NotCalled named cursor →
        p.Exhausts (.complete named frames) cursor weight fault stop := by
  have htighter : ∀ right level cursor, 0 ≤ level → Ends (p.binaryOp depth right level) cursor
      (p.Climbed p.OperandAt right level cursor)
      (p.ClimbFails p.OperandAt p.OperandFails level cursor) := fun right level cursor hlevel =>
    ends_binaryOp depth (fun shallower _ => p.ends_primary shallower) (fun _ _ _ hat => hat.lt)
      hlevel right cursor
  have hclimbed := ends_extendRight htighter (Int.le_trans hleast hle) right cursor
  suffices hexhausts : Ends (p.extendRight (p.binaryOp depth) level right) cursor
      (fun _ _ => True) fun fault stop => ∀ named, p.NotCalled named cursor →
        p.Exhausts (.complete named frames) cursor weight fault stop from
    hclimbed.of_ok_of_error hexhausts
  simp only [extendRight, ends_bind, ends_currentPrecedence, ends_ite, ends_pure]
  cases hnext : p.levelAt cursor with
  | none => exact fun named _ => exhausts_of_ne (by simp)
  | some next =>
    dsimp only
    by_cases htight : level < next
    · rw [if_pos htight]
      have hfollowing := ((levelAt_eq_some_iff (by omega)).mp hnext).2
      have hrungs := PrecedenceTable.rungs_lt hlisted hle hfollowing htight
      refine .of_cases (fun _ _ _ => trivial) fun fault stop hfault named hcalled => ?_
      exact (h.binaryOp frames cursor right (level + 1) named weight (by omega) hcalled
        (by omega)).error hfault
    · rw [if_neg htight]
      trivial

theorem exhausts_binaryOp (frames : List Frame) (cursor : Nat) (left : Node) {least : Int}
    (hleast : 0 ≤ least) (hcalled : p.NotCalled named cursor)
    (hweight : weight + p.precedence.rungs least ≤
      depth + 2 + p.precedence.rungs 0 + p.used frames) :
    Ends (p.binaryOp (depth + 1) left least) cursor (fun _ _ => True)
      (p.Exhausts (.complete named frames) cursor weight) := by
  have hrungs := p.precedence.one_le_rungs least
  simp only [binaryOp, ends_bind, ends_rounds]
  refine exhausts_climb hleast (fun cursor => ?_) ?_ _ left cursor hcalled
  · exact ((ends_primary depth cursor).of_ok_of_error (h.primary frames cursor)).imp
      (fun _ _ hat => hat) fun _ _ hexhausts => hexhausts.mono (by omega)
  · intro right level cursor value hle hlisted
    exact exhausts_extendRight h hleast hle hlisted hweight right cursor

omit h

theorem exhaustion (p : Parser) (depth : Nat) : p.Exhaustion depth := by
  induction depth with
  | zero => exact exhaustion_zero p
  | succ depth ih =>
    exact ⟨exhausts_expression ih, exhausts_primary ih, fun frames _ => exhausts_parens ih frames,
      fun frames _ => exhausts_identifier ih frames,
      fun frames cursor left _ _ _ hleast hcalled hweight =>
        exhausts_binaryOp ih frames cursor left hleast hcalled (by omega)⟩

end Productions

section Definitions

theorem Exhausts.within (hcursor : cursor ≤ p.tokens.size)
    (h : p.Exhausts position cursor weight fault stop) :
    p.Exhausts position cursor weight fault (min stop p.tokens.size) := by
  intro hdeep
  obtain ⟨-, tokens, next, hspans, -⟩ := h hdeep
  rw [Nat.min_eq_left (hspans.le_size hcursor)]
  exact h hdeep

-- A prototype that the end of the input closes has no body, and none is begun.
theorem exhausts_of_end (hcursor : cursor ≤ p.tokens.size) (hend : p.tokens[middle]? = none)
    (hspans : p.Spans cursor tokens middle)
    (hwalk : position.walk p.precedence tokens = .ok .parameter)
    (h : p.Exhausts (.operand []) (middle + 1) weight fault stop) :
    p.Exhausts position cursor weight fault (min stop p.tokens.size) := by
  intro hdeep
  obtain ⟨htoken, more, next, hmore, hnext, hlt⟩ := h hdeep
  have hsize : p.tokens.size ≤ middle := Array.getElem?_eq_none_iff.mp hend
  obtain rfl : middle = p.tokens.size := Nat.le_antisymm (hspans.le_size hcursor) hsize
  obtain rfl := hmore.eq_nil (Nat.le_succ _)
  obtain rfl := spans_nil.mp hmore
  obtain rfl := Except.ok.inj hnext
  rw [Nat.min_eq_right (Nat.le_succ _)]
  refine ⟨?_, tokens, .parameter, hspans, hwalk, hlt⟩
  rw [htoken, p.tokenAt_of_size_le (Nat.le_succ _), p.tokenAt_of_size_le (Nat.le_refl _)]

theorem exhausts_unit (p : Parser) (depth : Nat) (hcursor : cursor < p.tokens.size) :
    Ends (p.unit depth) cursor (fun _ _ => True) fun fault stop =>
      p.Exhausts .start cursor depth fault (min stop p.tokens.size) := by
  have hsize := Nat.le_of_lt hcursor
  have hbody := (p.exhaustion depth).expression []
  simp only [unit, definition, bareExpression, ends_bind, ends_check, ends_ite, ends_advance,
    ends_pure, decide_eq_true_eq]
  split
  · next hkind =>
    have hkeyword := getElem?_of_kind hkind (by decide)
    have hstep : Position.start.step p.precedence (p.tokenAt cursor) = .ok .keyword :=
      step_define hkind
    refine ((ends_prototype (cursor + 1)).of_ok_of_error fits_prototype).imp ?_
      fun _ _ hne => exhausts_of_ne hne
    intro prototype middle hprototype
    refine (hbody middle).imp (fun _ _ htrue => htrue) fun fault stop hexhausts => ?_
    rcases hprototype with ⟨header, hheader, -⟩ | ⟨last, tokens, rfl, hend, hspans, hwalk⟩
    · have hread := hexhausts.walk hheader (Position.walk_of_append header.walk)
      exact (hread.step hkeyword hstep).within hsize
    · exact exhausts_of_end hsize hend (spans_cons.mpr ⟨hkeyword, hspans⟩)
        ((Position.walk_cons hstep).trans hwalk) hexhausts
  · next hkind =>
    refine (hbody cursor).imp (fun _ _ htrue => htrue) fun fault stop hexhausts => ?_
    refine Exhausts.within hsize (Exhausts.congr (fun token htoken => ?_) ?_ hexhausts)
    · obtain rfl := tokenAt_of_getElem? htoken
      simp [Position.step, Position.stepStart, hkind]
    · rfl

theorem PhraseAt.exhausts {definition : Definition} (h : p.PhraseAt cursor definition middle)
    (hrest : p.Exhausts .start middle weight fault stop) :
    p.Exhausts .start cursor weight fault stop := by
  obtain ⟨phrase, hlisted, hspans, -, hcalled, hbelow⟩ := h
  have hbehind : p.Exhausts (.complete phrase.body.endsInName []) middle weight fault stop := by
    refine Exhausts.congr (fun token htoken => ?_) ?_ hrest
    · obtain rfl := tokenAt_of_getElem? htoken
      rw [step_of_below hcalled hbelow]
      rfl
    · rfl
  exact hbehind.walk hspans (Position.walk_of_append (phrase.walk hlisted))

-- Each unit has the whole depth, for nothing is open behind the one before.
theorem exhausts_units (p : Parser) (depth bound cursor : Nat) (hcursor : cursor ≤ p.tokens.size)
    (h : (p.units depth bound cursor).fault? = some fault) :
    p.Exhausts .start cursor depth fault
      (min (p.units depth bound cursor).cursor p.tokens.size) := by
  induction bound generalizing cursor with
  | zero =>
    rw [units] at h
    split at h
    · cases h
    · obtain rfl := Option.some.inj h
      exact exhausts_of_ne (by simp [stallFault])
  | succ bound ih =>
    by_cases hend : p.tokens.size ≤ cursor
    · rw [units_of_size_le hend] at h
      cases h
    have hlt := Nat.lt_of_not_le hend
    cases hunit : p.unit depth cursor with
    | error other stop =>
      rw [units_of_error hlt hunit] at h ⊢
      obtain rfl := Option.some.inj h
      exact (exhausts_unit p depth hlt).error hunit
    | ok definition next =>
      have hphrase := (ends_unit depth hlt).ok hunit
      rw [units_of_ok hlt hunit] at h ⊢
      exact hphrase.exhausts (ih next (hphrase.le_size hcursor) h)

-- Where the depth is exceeded all has been read, and so many brackets are open.
theorem exists_walk_of_tooDeep (h : (p.limited depth).fault? = some fault)
    (hdeep : fault.cause = .nestingTooDeep) :
    fault.token = p.tokenAt ((p.limited depth).place fault p.tokens.size) ∧
      ∃ position, Position.start.walk p.precedence
          (p.tokens.toList.take ((p.limited depth).place fault p.tokens.size)) = .ok position ∧
        depth < p.precedence.bracketDepth * (position.nesting + 1) := by
  have hplace : (p.limited depth).place fault p.tokens.size =
      min (p.limited depth).cursor p.tokens.size := by
    rw [Progress.place, hdeep]
    rfl
  obtain ⟨htoken, tokens, position, hspans, hwalk, hlt⟩ :=
    exhausts_units p depth p.tokens.size 0 (Nat.zero_le _) h hdeep
  rw [hplace]
  exact ⟨htoken, position, hspans.eq_take ▸ hwalk, hlt⟩

end Definitions

end Parser

end ExprLang
