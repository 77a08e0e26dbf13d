import ExprLang.Lexer.Basic

-- A source cut into segments, told without a lexer. Each segment is what the
-- first rule takes that takes anything, or a single character.

namespace ExprLang

section

variable (α : Type) [PatternEngine α]

-- What a rule takes at a position. To match nothing or the empty text is to take
-- nothing.
def Rule.taken? (rule : Rule) (source : List Char) (position : Nat) : Option (List Char) :=
  match PatternEngine.ofText α rule.pattern with
  | .error _ => none
  | .ok pattern => (PatternEngine.matchText? pattern source position).filter (· ≠ [])

def firstTaken? (rules : List Rule) (source : List Char) (position : Nat) :
    Option (Rule × List Char) :=
  rules.findSome? fun rule => (rule.taken? α source position).map (Prod.mk rule)

end

-- A piece of a source and the rule that has taken it, if one has.
structure Segment where
  rule? : Option Rule
  text : List Char
deriving DecidableEq

namespace Segment

def token? (segment : Segment) : Option Token :=
  match segment.rule? with
  | some rule => rule.action.token? (String.ofList segment.text)
  | none => some (otherToken (String.ofList segment.text))

def Skipped (segment : Segment) : Prop := ∃ rule, segment.rule? = some rule ∧ rule.action = .skip

section

variable (α : Type) [PatternEngine α] (rules : List Rule) (source : List Char) (position : Nat)

inductive Begins : Segment → Prop where
  | taken {before after : List Rule} {rule : Rule} {text : List Char}
      (hrules : rules = before ++ rule :: after)
      (hbefore : ∀ other ∈ before, other.taken? α source position = none)
      (htaken : rule.taken? α source position = some text) : Begins ⟨some rule, text⟩
  | single {c : Char} {rest : List Char}
      (hrules : ∀ rule ∈ rules, rule.taken? α source position = none)
      (hrest : source.drop position = c :: rest) : Begins ⟨none, [c]⟩

def next? : Option Segment :=
  match firstTaken? α rules source position with
  | some (rule, text) => some ⟨some rule, text⟩
  | none => (source.drop position).head?.map fun c => ⟨none, [c]⟩

end

end Segment

-- The segments of a source from one position to another.
inductive Cuts (α : Type) [PatternEngine α] (rules : List Rule) (source : List Char) :
    Nat → List Segment → Nat → Prop where
  | nil {position : Nat} : Cuts α rules source position [] position
  | cons {position stop : Nat} {segment : Segment} {rest : List Segment}
      (hbegins : segment.Begins α rules source position)
      (hrest : Cuts α rules source (position + segment.text.length) rest stop) :
      Cuts α rules source position (segment :: rest) stop

-- Each segment with the position at which it begins.
def placed : Nat → List Segment → List (Nat × Segment)
  | _, [] => []
  | position, segment :: rest =>
    (position, segment) :: placed (position + segment.text.length) rest

def placeBehind (cs : List Char) : Nat × Nat := cs.foldl advancePlace (1, 1)

def locationIn (file : String) (source : List Char) (position : Nat) : Location :=
  ⟨file, (placeBehind (source.take position)).1, (placeBehind (source.take position)).2, position⟩

-- The tokens of the segments that are not skipped, from a position on.
def tokensOf (file : String) (source : List Char) (position : Nat) (segments : List Segment) :
    List Token :=
  (placed position segments).filterMap fun piece =>
    piece.2.token?.map (·.withLocation (some (locationIn file source piece.1)))

section Texts

variable {α : Type} [PatternEngine α] {rules : List Rule} {source : List Char} {position : Nat}
  {rule : Rule} {text : List Char} {segment : Segment}

theorem Rule.taken?_eq_some (h : rule.taken? α source position = some text) :
    text <+: source.drop position ∧ text ≠ [] := by
  unfold taken? at h
  split at h
  · cases h
  · next pattern =>
    obtain ⟨hmatch, hne⟩ := Option.filter_eq_some_iff.mp h
    exact ⟨PatternEngine.prefix_of_matchText? hmatch, by simpa using hne⟩

theorem Segment.Begins.text_spec (h : segment.Begins α rules source position) :
    segment.text <+: source.drop position ∧ segment.text ≠ [] := by
  cases h with
  | taken _ _ htaken => exact Rule.taken?_eq_some htaken
  | single _ hrest => exact ⟨hrest ▸ List.prefix_append [_] _, by simp⟩

theorem firstTaken?_eq_none :
    firstTaken? α rules source position = none ↔
      ∀ rule ∈ rules, rule.taken? α source position = none := by
  simp only [firstTaken?, List.findSome?_eq_none_iff, Option.map_eq_none_iff]

theorem firstTaken?_eq_some : firstTaken? α rules source position = some (rule, text) ↔
    ∃ before after, rules = before ++ rule :: after ∧
      (∀ other ∈ before, other.taken? α source position = none) ∧
      rule.taken? α source position = some text := by
  simp only [firstTaken?, List.findSome?_eq_some_iff, Option.map_eq_some_iff, Prod.mk.injEq,
    Option.map_eq_none_iff]
  constructor
  · rintro ⟨before, rule, after, hrules, ⟨text, htaken, rfl, rfl⟩, hbefore⟩
    exact ⟨before, after, hrules, hbefore, htaken⟩
  · rintro ⟨before, after, hrules, hbefore, htaken⟩
    exact ⟨before, rule, after, hrules, ⟨text, htaken, rfl, rfl⟩, hbefore⟩

theorem Segment.begins_iff :
    segment.Begins α rules source position ↔ next? α rules source position = some segment := by
  unfold next?
  constructor
  · rintro (⟨hrules, hbefore, htaken⟩ | ⟨hrules, hrest⟩)
    · rw [firstTaken?_eq_some.mpr ⟨_, _, hrules, hbefore, htaken⟩]
    · rw [firstTaken?_eq_none.mpr hrules, hrest]
      rfl
  · intro h
    split at h
    · next rule text hfirst =>
      obtain rfl := Option.some.inj h
      obtain ⟨before, after, hrules, hbefore, htaken⟩ := firstTaken?_eq_some.mp hfirst
      exact .taken hrules hbefore htaken
    · next hnone =>
      obtain ⟨c, hhead, rfl⟩ := Option.map_eq_some_iff.mp h
      obtain ⟨rest, hrest⟩ := List.head?_eq_some_iff.mp hhead
      exact .single (firstTaken?_eq_none.mp hnone) hrest

theorem Segment.Begins.unique {segment' : Segment} (h : segment.Begins α rules source position)
    (h' : segment'.Begins α rules source position) : segment = segment' :=
  Option.some.inj ((begins_iff.mp h).symm.trans (begins_iff.mp h'))

theorem Action.lexeme_of_token? {action : Action} {string : String} {token : Token}
    (h : action.token? string = some token) : token.lexeme = string := by
  cases action with
  | skip => cases h
  | word =>
    obtain rfl := Option.some.inj h
    unfold wordToken
    split <;> rfl
  | number | operator | other | punctuation =>
    obtain rfl := Option.some.inj h
    rfl

theorem Action.location_of_token? {action : Action} {string : String} {token : Token}
    (h : action.token? string = some token) : token.location? = none := by
  cases action with
  | skip => cases h
  | word =>
    obtain rfl := Option.some.inj h
    unfold wordToken
    split <;> rfl
  | number | operator | other | punctuation =>
    obtain rfl := Option.some.inj h
    rfl

theorem Segment.location_of_token? {token : Token} (h : segment.token? = some token) :
    token.location? = none := by
  unfold token? at h
  split at h
  · exact Action.location_of_token? h
  · obtain rfl := Option.some.inj h
    rfl

theorem Segment.lexeme_of_token? {token : Token} (h : segment.token? = some token) :
    token.lexeme.toList = segment.text := by
  unfold token? at h
  split at h
  · rw [Action.lexeme_of_token? h, String.toList_ofList]
  · obtain rfl := Option.some.inj h
    exact String.toList_ofList

theorem Segment.length_of_token? {token : Token} (h : segment.token? = some token) :
    token.lexeme.length = segment.text.length := by
  rw [← String.length_toList, lexeme_of_token? h]

theorem Segment.token?_eq_none : segment.token? = none ↔ segment.Skipped := by
  unfold token? Skipped
  cases segment.rule? with
  | none => simp
  | some rule => cases haction : rule.action <;> simp [Action.token?, haction]

end Texts

section Cuts

variable {α : Type} [PatternEngine α] {rules : List Rule} {source : List Char}
  {position stop : Nat} {segment : Segment} {segments : List Segment}

theorem Segment.Begins.drop_eq
    (h : segment.Begins α rules source position) :
    source.drop position = segment.text ++ source.drop (position + segment.text.length) := by
  obtain ⟨rest, hrest⟩ := h.text_spec.1
  have hdrop : source.drop position = segment.text ++ rest := hrest.symm
  rw [← List.drop_drop, hdrop, List.drop_left]

theorem Segment.Begins.end_le (h : segment.Begins α rules source position) :
    position + segment.text.length ≤ source.length := by
  have hdrop := congrArg List.length h.drop_eq
  have hpos := List.length_pos_iff.mpr h.text_spec.2
  simp only [List.length_drop, List.length_append] at hdrop
  omega

theorem Segment.Begins.lt_length
    (h : segment.Begins α rules source position) : position < source.length := by
  have hpos := List.length_pos_iff.mpr h.text_spec.2
  have hend := h.end_le
  omega

namespace Cuts

-- There is one way to cut a source.
theorem unique {segments' : List Segment} (h : Cuts α rules source position segments source.length)
    (h' : Cuts α rules source position segments' source.length) : segments = segments' := by
  induction segments generalizing position segments' with
  | nil =>
    cases h
    cases h' with
    | nil => rfl
    | cons hbegins' _ => exact absurd hbegins'.lt_length (Nat.lt_irrefl _)
  | cons segment segments ih =>
    cases h with
    | cons hbegins hrest =>
      cases h' with
      | nil => exact absurd hbegins.lt_length (Nat.lt_irrefl _)
      | cons hbegins' hrest' =>
        obtain rfl := hbegins.unique hbegins'
        rw [ih hrest hrest']

theorem drop_eq (h : Cuts α rules source position segments stop) :
    source.drop position = segments.flatMap (·.text) ++ source.drop stop := by
  induction h with
  | nil => rfl
  | cons hbegins _ ih => rw [hbegins.drop_eq, ih, List.flatMap_cons, List.append_assoc]

theorem le (h : Cuts α rules source position segments stop) : position ≤ stop := by
  induction h with
  | nil => exact Nat.le_refl _
  | cons _ _ ih => omega

theorem le_length (h : Cuts α rules source position segments stop)
    (hposition : position ≤ source.length) : stop ≤ source.length := by
  induction h with
  | nil => exact hposition
  | cons hbegins _ ih => exact ih hbegins.end_le

theorem append {middle : Nat} {later : List Segment}
    (h : Cuts α rules source position segments middle)
    (hlater : Cuts α rules source middle later stop) :
    Cuts α rules source position (segments ++ later) stop := by
  induction h with
  | nil => exact hlater
  | cons hbegins _ ih => exact .cons hbegins (ih hlater)

theorem text_ne_nil (h : Cuts α rules source position segments stop) :
    ∀ segment ∈ segments, segment.text ≠ [] := by
  induction h with
  | nil => simp
  | cons hbegins _ ih => exact List.forall_mem_cons.mpr ⟨hbegins.text_spec.2, ih⟩

theorem begins_of_mem_placed (h : Cuts α rules source position segments stop) :
    ∀ piece ∈ placed position segments,
      piece.2.Begins α rules source piece.1 := by
  induction h with
  | nil => simp [placed]
  | cons hbegins _ ih => exact List.forall_mem_cons.mpr ⟨hbegins, ih⟩

theorem lt_of_mem_placed (h : Cuts α rules source position segments stop) :
    ∀ piece ∈ placed position segments, piece.1 < stop := by
  induction h with
  | nil => simp [placed]
  | cons hbegins hrest ih =>
    have hpos := List.length_pos_iff.mpr hbegins.text_spec.2
    have hle := hrest.le
    exact List.forall_mem_cons.mpr ⟨by omega, ih⟩

end Cuts

theorem le_of_mem_placed (position : Nat) (segments : List Segment) :
    ∀ piece ∈ placed position segments, position ≤ piece.1 := by
  induction segments generalizing position with
  | nil => simp [placed]
  | cons segment segments ih =>
    refine List.forall_mem_cons.mpr ⟨Nat.le_refl _, fun piece hpiece => ?_⟩
    have := ih _ piece hpiece
    omega

-- Each segment ends before the next ones begin.
theorem pairwise_placed (position : Nat) (segments : List Segment) :
    (placed position segments).Pairwise fun piece next =>
      piece.1 + piece.2.text.length ≤ next.1 := by
  induction segments generalizing position with
  | nil => exact .nil
  | cons segment segments ih => exact .cons (le_of_mem_placed _ segments) (ih _)

end Cuts

section Tokens

variable {α : Type} [PatternEngine α] {rules : List Rule} {source : List Char}
  {position stop : Nat} {segments : List Segment} {file : String} {token : Token}

def Token.BeginsAt (token : Token) (offset : Nat) : Prop :=
  token.location?.map (·.offset) = some (offset : Int)

-- Between the tokens, and before the first and behind the last, there are
-- segments that are skipped and nothing else.
def Gapped (α : Type) [PatternEngine α] (rules : List Rule) (source : List Char) :
    Nat → List Token → Prop
  | position, [] => ∃ skipped, Cuts α rules source position skipped source.length ∧
      ∀ segment ∈ skipped, segment.Skipped
  | position, token :: rest => ∃ offset skipped, token.BeginsAt offset ∧
      Cuts α rules source position skipped offset ∧ (∀ segment ∈ skipped, segment.Skipped) ∧
      Gapped α rules source (offset + token.lexeme.length) rest

theorem mem_tokensOf : token ∈ tokensOf file source position segments ↔
    ∃ piece ∈ placed position segments, ∃ bare, piece.2.token? = some bare ∧
      bare.withLocation (some (locationIn file source piece.1)) = token := by
  simp only [tokensOf, List.mem_filterMap, Option.map_eq_some_iff]

theorem tokensOf_cons (segment : Segment) : tokensOf file source position (segment :: segments) =
    (segment.token?.map (·.withLocation (some (locationIn file source position)))).toList ++
      tokensOf file source (position + segment.text.length) segments := by
  unfold tokensOf
  rw [placed, List.filterMap_cons]
  cases segment.token? <;> rfl

theorem Cuts.tokensOf_append {later : List Segment}
    (h : Cuts α rules source position segments stop) :
    tokensOf file source position (segments ++ later) =
      tokensOf file source position segments ++ tokensOf file source stop later := by
  induction h with
  | nil => rfl
  | cons hbegins _ ih => rw [List.cons_append, tokensOf_cons, tokensOf_cons, ih, List.append_assoc]

-- Placing the tokens leaves them as they are otherwise.
theorem map_withLocation_tokensOf :
    (tokensOf file source position segments).map (·.withLocation none) =
      segments.filterMap Segment.token? := by
  induction segments generalizing position with
  | nil => rfl
  | cons segment segments ih =>
    rw [tokensOf_cons, List.map_append, ih, List.filterMap_cons]
    cases htoken : segment.token? with
    | none => rfl
    | some token =>
      have hbare : token.withLocation none = token := by
        rw [Token.withLocation, ← Segment.location_of_token? htoken]
      exact congrArg (· :: _) hbare

theorem exists_piece (hmem : token ∈ tokensOf file source position segments) :
    ∃ piece ∈ placed position segments, token.BeginsAt piece.1 ∧
      token.lexeme.toList = piece.2.text := by
  obtain ⟨piece, hpiece, bare, hbare, rfl⟩ := mem_tokensOf.mp hmem
  have hlexeme : bare.lexeme.toList = piece.2.text := Segment.lexeme_of_token? hbare
  exact ⟨piece, hpiece, rfl, hlexeme⟩

theorem Cuts.lexeme_eq (h : Cuts α rules source position segments stop)
    (hmem : token ∈ tokensOf file source position segments) :
    ∃ offset, token.BeginsAt offset ∧
      token.lexeme.toList = (source.drop offset).take token.lexeme.length ∧ token.lexeme ≠ "" := by
  obtain ⟨piece, hpiece, hbegins, hlexeme⟩ := exists_piece hmem
  have hpiece := h.begins_of_mem_placed piece hpiece
  refine ⟨piece.1, hbegins, ?_, fun hempty => hpiece.text_spec.2 ?_⟩
  · rw [← String.length_toList, hlexeme, hpiece.drop_eq, List.take_left]
  · rw [← hlexeme, hempty, String.toList_empty]

-- The tokens come in the order of the source, and none begins in another.
theorem Cuts.pairwise_offsets (h : Cuts α rules source position segments stop) :
    (tokensOf file source position segments).Pairwise fun token next =>
      ∃ offset offset' : Nat, token.BeginsAt offset ∧ next.BeginsAt offset' ∧ offset < offset' ∧
        offset + token.lexeme.length ≤ offset' := by
  induction h with
  | nil => exact .nil
  | @cons position stop segment rest hbegins _ ih =>
    rw [tokensOf_cons]
    cases htoken : segment.token? with
    | none => exact ih
    | some bare =>
      refine .cons (fun next hnext => ?_) ih
      obtain ⟨piece, hpiece, hoffset, -⟩ := exists_piece hnext
      have hle := le_of_mem_placed _ rest piece hpiece
      have hpos := List.length_pos_iff.mpr hbegins.text_spec.2
      rw [← Segment.length_of_token? htoken] at hle hpos
      exact ⟨position, piece.1, rfl, hoffset, by omega, hle⟩

-- What is skipped first belongs to the gap before the first token.
theorem Gapped.skip {segment : Segment} {tokens : List Token}
    (hbegins : segment.Begins α rules source position)
    (hskipped : segment.Skipped)
    (h : Gapped α rules source (position + segment.text.length) tokens) :
    Gapped α rules source position tokens := by
  cases tokens with
  | nil =>
    obtain ⟨skipped, hcuts, hall⟩ := h
    exact ⟨segment :: skipped, .cons hbegins hcuts, List.forall_mem_cons.mpr ⟨hskipped, hall⟩⟩
  | cons token rest =>
    obtain ⟨offset, skipped, hoffset, hcuts, hall, hrest⟩ := h
    exact ⟨offset, segment :: skipped, hoffset, .cons hbegins hcuts,
      List.forall_mem_cons.mpr ⟨hskipped, hall⟩, hrest⟩

theorem Cuts.gapped (h : Cuts α rules source position segments stop)
    (hstop : stop = source.length) :
    Gapped α rules source position (tokensOf file source position segments) := by
  induction h with
  | nil =>
    subst hstop
    exact ⟨[], .nil, by simp⟩
  | @cons position stop segment rest hbegins _ ih =>
    rw [tokensOf_cons]
    cases htoken : segment.token? with
    | none => exact (ih hstop).skip hbegins (Segment.token?_eq_none.mp htoken)
    | some bare =>
      have hrest : Gapped α rules source (position + bare.lexeme.length)
          (tokensOf file source (position + segment.text.length) rest) := by
        rw [Segment.length_of_token? htoken]
        exact ih hstop
      exact ⟨position, [], rfl, .nil, by simp, hrest⟩

end Tokens

end ExprLang
