import ExprLang.Proofs.Lexer.Tokenize
import ExprLang.Proofs.Pattern.Greedy
import ExprLang.Proofs.Text.Joined
import Mathlib.Data.List.TakeWhile

-- The rules of the language without patterns: the first character of a piece
-- of source tells what becomes of it and which characters go with it.

namespace ExprLang

namespace Scanner

def isSeparator (c : Char) : Bool := c = ' ' || c = '\t' || c = '\n'

def isNumeric (c : Char) : Bool := c.isDigit || c = '.'

def isSign (c : Char) : Bool := c = '+' || c = '-' || c = '*' || c = '/'

def actionOf (c : Char) : Action :=
  if isSeparator c then .skip
  else if c.isAlpha then .word
  else if isNumeric c then .number
  else if c = '(' then .punctuation .parensOpen
  else if c = ')' then .punctuation .parensClose
  else if c = ',' then .punctuation .comma
  else if isSign c then .operator
  else .other

-- The characters that go with what comes before them.
def joins : Action → Char → Bool
  | .word, c => c.isAlphanum
  | .number, c => isNumeric c
  | _, _ => false

structure Piece where
  action : Action
  text : List Char
deriving DecidableEq

def Piece.token? (piece : Piece) : Option Token := piece.action.token? (String.ofList piece.text)

def pieceAt (c : Char) (rest : List Char) : Piece :=
  ⟨actionOf c, c :: rest.takeWhile (joins (actionOf c))⟩

def scan : List Char → List Piece
  | [] => []
  | c :: rest => pieceAt c rest :: scan (rest.dropWhile (joins (actionOf c)))
termination_by cs => cs.length
decreasing_by
  have := List.length_dropWhile_le (joins (actionOf c)) rest
  simp only [List.length_cons]
  omega

-- The tokens of a source, wherever they stand in it.
def scanTokens (cs : List Char) : List Token := (scan cs).filterMap Piece.token?

variable {piece : Piece} {cs : List Char}

-- Nothing goes with a character that stands by itself.
theorem run_of_alone {action : Action} (hjoins : joins action = fun _ => false)
    (rest : List Char) :
    rest.takeWhile (joins action) = [] ∧ rest.dropWhile (joins action) = rest := by
  rw [hjoins]
  cases rest <;> exact ⟨rfl, rfl⟩

-- A piece is a character and characters that go with it.
theorem exists_run_of_mem_scan (h : piece ∈ scan cs) :
    ∃ c run, piece = ⟨actionOf c, c :: run⟩ ∧ ∀ d ∈ run, joins (actionOf c) d = true := by
  fun_induction scan cs with
  | case1 => simp at h
  | case2 c rest ih =>
    rcases List.mem_cons.mp h with rfl | hmem
    · exact ⟨c, _, rfl, fun d hd => List.mem_takeWhile_imp hd⟩
    · exact ih hmem

-- Nothing of a source is lost in its pieces.
theorem flatMap_text_scan (cs : List Char) : (scan cs).flatMap Piece.text = cs := by
  fun_induction scan cs with
  | case1 => rfl
  | case2 c rest ih =>
    rw [List.flatMap_cons, ih, pieceAt, List.cons_append, List.takeWhile_append_dropWhile]

-- It ends where what follows does not go with it.
theorem scan_append {c : Char} {run tail : List Char}
    (hrun : ∀ d ∈ run, joins (actionOf c) d = true)
    (htail : ∀ d ∈ tail.head?, joins (actionOf c) d = false) :
    scan (c :: run ++ tail) = ⟨actionOf c, c :: run⟩ :: scan tail := by
  obtain ⟨htake, hdrop⟩ := Text.span_append hrun htail
  rw [List.cons_append, scan, pieceAt, htake, hdrop]

section Actions

variable {c : Char}

theorem isAlpha_of_actionOf (h : actionOf c = .word) : c.isAlpha = true := by
  unfold actionOf at h
  split_ifs at h
  assumption

theorem isSign_of_actionOf (h : actionOf c = .operator) : isSign c = true := by
  unfold actionOf at h
  split_ifs at h
  assumption

theorem kind_of_actionOf {kind : TokenKind} (h : actionOf c = .punctuation kind) :
    kind = .parensOpen ∨ kind = .parensClose ∨ kind = .comma := by
  unfold actionOf at h
  split_ifs at h <;> simp_all

end Actions

end Scanner

open Scanner

section Sets

theorem isAlpha_iff {c : Char} :
    c.isAlpha = true ↔ (65 ≤ c.toNat ∧ c.toNat ≤ 90) ∨ (97 ≤ c.toNat ∧ c.toNat ≤ 122) := by
  have hupper : c.isUpper = decide (65 ≤ c.val ∧ c.val ≤ 90) := rfl
  have hlower : c.isLower = (decide (97 ≤ c.val) && decide (c.val ≤ 122)) := rfl
  have halpha : c.isAlpha = (c.isUpper || c.isLower) := rfl
  simp [halpha, hupper, hlower, UInt32.le_iff_toNat_le]

theorem contains_separators (c : Char) :
    CharSet.contains ⟨false, [(32, 32), (9, 9), (10, 10)]⟩ c = isSeparator c := by
  rw [Bool.eq_iff_iff]
  simp only [CharSet.contains_cons, CharSet.contains_nil, or_false, isSeparator, Bool.or_eq_true,
    decide_eq_true_eq, ← Char.toNat_inj, Char.reduceToNat]
  omega

theorem contains_letters (c : Char) :
    CharSet.contains ⟨false, [(97, 122), (65, 90)]⟩ c = c.isAlpha := by
  rw [Bool.eq_iff_iff]
  simp only [CharSet.contains_cons, CharSet.contains_nil, or_false, isAlpha_iff]
  omega

theorem contains_alphanumerics (c : Char) :
    CharSet.contains ⟨false, [(97, 122), (65, 90), (48, 57)]⟩ c = c.isAlphanum := by
  rw [Bool.eq_iff_iff]
  simp only [CharSet.contains_cons, CharSet.contains_nil, or_false, Char.isAlphanum,
    Bool.or_eq_true, isAlpha_iff, Char.isDigit_iff_toNat, Char.reduceToNat]
  omega

theorem contains_numerics (c : Char) :
    CharSet.contains ⟨false, [(48, 57), (46, 46)]⟩ c = isNumeric c := by
  rw [Bool.eq_iff_iff]
  simp only [CharSet.contains_cons, CharSet.contains_nil, or_false, isNumeric, Bool.or_eq_true,
    decide_eq_true_eq, Char.isDigit_iff_toNat, ← Char.toNat_inj, Char.reduceToNat]
  omega

theorem contains_signs (c : Char) :
    CharSet.contains ⟨false, [(43, 43), (45, 45), (42, 42), (47, 47)]⟩ c = isSign c := by
  rw [Bool.eq_iff_iff]
  simp only [CharSet.contains_cons, CharSet.contains_nil, or_false, isSign, Bool.or_eq_true,
    decide_eq_true_eq, ← Char.toNat_inj, Char.reduceToNat]
  omega

theorem contains_single (c d : Char) : CharSet.contains (.single d) c = decide (c = d) := by
  rw [Bool.eq_iff_iff]
  simp only [CharSet.single, CharSet.contains_cons, CharSet.contains_nil, or_false,
    decide_eq_true_eq, ← Char.toNat_inj]
  omega

end Sets

section Rules

variable {rule : Rule} {rules : List Rule} {action : Action} {source : List Char} {position : Nat}
  {c : Char} {p : Char → Bool}

-- The rule takes a character for which p holds and what goes with it.
def Rule.Takes (rule : Rule) (p : Char → Bool) : Prop :=
  ∀ source position c rest, source.drop position = c :: rest →
    rule.taken? Pattern source position =
      if p c then some (c :: rest.takeWhile (joins rule.action)) else none

theorem Rule.takes_oneOf {set : CharSet}
    (hread : PatternEngine.ofText Pattern rule.pattern = .ok (.oneOf set))
    (hset : ∀ c, set.contains c = p c) (hjoins : joins rule.action = fun _ => false) :
    rule.Takes p := by
  intro source position c rest hrest
  rw [taken?, hread, (run_of_alone hjoins rest).1]
  simp only [Pattern.matchText?_eq, Cursor.ofPosition, hrest, Pattern.matchText?_oneOf, hset]
  cases p c <;> rfl

theorem Rule.takes_run {first repeated : CharSet}
    (hread : PatternEngine.ofText Pattern rule.pattern =
      .ok (.sequence (.oneOf first) (.star (.oneOf repeated))))
    (hfirst : ∀ c, first.contains c = p c)
    (hrepeated : ∀ c, repeated.contains c = joins rule.action c) : rule.Takes p := by
  intro source position c rest hrest
  have hjoins : repeated.contains = joins rule.action := funext hrepeated
  rw [taken?, hread, ← hjoins]
  simp only [Pattern.matchText?_eq, Cursor.ofPosition, hrest, Pattern.matchText?_run, hfirst]
  cases p c <;> rfl

theorem Rule.takes_single (d : Char)
    (hread : PatternEngine.ofText Pattern rule.pattern = .ok (.oneOf (.single d)))
    (hjoins : joins rule.action = fun _ => false) : rule.Takes fun c => c = d :=
  takes_oneOf hread (fun c => contains_single c d) hjoins

theorem Segment.Begins.cons {α : Type} [PatternEngine α] {segment : Segment}
    (h : segment.Begins α rules source position)
    (hrule : rule.taken? α source position = none) :
    segment.Begins α (rule :: rules) source position := by
  cases h with
  | @taken before after other text hrules hbefore htaken =>
    have hall : rule :: rules = (rule :: before) ++ other :: after := by rw [hrules]; rfl
    exact .taken hall (List.forall_mem_cons.mpr ⟨hrule, hbefore⟩) htaken
  | single hrules hrest => exact .single (List.forall_mem_cons.mpr ⟨hrule, hrules⟩) hrest

-- By these rules the action is what becomes of a piece that begins with c.
def Handles (rules : List Rule) (c : Char) (action : Action) : Prop :=
  ∀ source position rest, source.drop position = c :: rest →
    ∃ segment, Segment.Begins Pattern rules source position segment ∧
      segment.text = c :: rest.takeWhile (joins action) ∧
      segment.token? = action.token? (String.ofList segment.text)

theorem handles_nil (c : Char) : Handles [] c .other := by
  intro source position rest hrest
  refine ⟨⟨none, [c]⟩, .single (by simp) hrest, ?_, rfl⟩
  rw [(run_of_alone rfl rest).1]

theorem Handles.cons (h : Handles rules c action) (hrule : rule.Takes p) :
    Handles (rule :: rules) c (if p c then rule.action else action) := by
  intro source position rest hrest
  have htaken := hrule source position c rest hrest
  by_cases hp : p c = true
  · rw [if_pos hp] at htaken ⊢
    exact ⟨_, .taken (List.nil_append _).symm (by simp) htaken, rfl, rfl⟩
  · rw [if_neg hp] at htaken ⊢
    obtain ⟨segment, hbegins, hsegment⟩ := h source position rest hrest
    exact ⟨segment, hbegins.cons htaken, hsegment⟩

-- The rules of the language one after another, the last one first.
theorem handles_defaults (c : Char) : Handles Rule.defaults c (actionOf c) := by
  have separator : Rule.Takes ⟨"[ \\t\\n]", .skip⟩ isSeparator :=
    Rule.takes_oneOf rfl contains_separators rfl
  have word : Rule.Takes ⟨"[a-zA-Z][a-zA-Z0-9]*", .word⟩ Char.isAlpha :=
    Rule.takes_run rfl contains_letters contains_alphanumerics
  have number : Rule.Takes ⟨"[0-9.]+", .number⟩ isNumeric :=
    Rule.takes_run rfl contains_numerics contains_numerics
  have opening : Rule.Takes ⟨"\\(", .punctuation .parensOpen⟩ (· = '(') :=
    Rule.takes_single _ rfl rfl
  have closing : Rule.Takes ⟨"\\)", .punctuation .parensClose⟩ (· = ')') :=
    Rule.takes_single _ rfl rfl
  have comma : Rule.Takes ⟨",", .punctuation .comma⟩ (· = ',') := Rule.takes_single _ rfl rfl
  have sign : Rule.Takes ⟨"[+\\-*/]", .operator⟩ isSign :=
    Rule.takes_oneOf rfl contains_signs rfl
  have hmarks := ((((handles_nil c).cons sign).cons comma).cons closing).cons opening
  have hall := ((hmarks.cons number).cons word).cons separator
  simp only [decide_eq_true_eq] at hall
  exact hall

theorem readable_defaults : Readable Pattern Rule.defaults := by
  simp only [Readable, Rule.defaults, List.forall_mem_cons]
  exact ⟨⟨_, rfl⟩, ⟨_, rfl⟩, ⟨_, rfl⟩, ⟨_, rfl⟩, ⟨_, rfl⟩, ⟨_, rfl⟩, ⟨_, rfl⟩, by simp⟩

end Rules

section Words

theorem wordToken_eq (text : String) : wordToken text =
    if text = "def" then ⟨.define, text, .absent, none⟩
    else ⟨.identifier, text, .text text, none⟩ := by
  by_cases hdef : text = "def"
  · rw [if_pos hdef, hdef]
    rfl
  · have hlookup : keywords.lookup text = none := by simp [keywords, hdef]
    rw [if_neg hdef, wordToken, hlookup]

end Words

section Sources

variable {source : List Char} {position stop : Nat} {segments : List Segment} {file : String}
  {cache : PatternCache Pattern}

theorem scanTokens_cons (c : Char) (rest : List Char) :
    scanTokens (c :: rest) = (pieceAt c rest).token?.toList ++
      scanTokens (rest.dropWhile (joins (actionOf c))) := by
  rw [scanTokens, scan, List.filterMap_cons]
  cases (pieceAt c rest).token? <;> rfl

-- A segment by the rules of the language is a piece, and behind it comes what is
-- left of the source when the run of that piece is over.
theorem Segment.Begins.exists_piece {segment : Segment}
    (h : segment.Begins Pattern Rule.defaults source position) :
    ∃ c rest, source.drop position = c :: rest ∧ segment.text = (pieceAt c rest).text ∧
      segment.token? = (pieceAt c rest).token? ∧
      source.drop (position + segment.text.length) = rest.dropWhile (joins (actionOf c)) := by
  have hne : source.drop position ≠ [] := by simpa using h.lt_length
  obtain ⟨c, rest, hdrop⟩ := List.exists_cons_of_ne_nil hne
  obtain ⟨other, hother, htext, htoken⟩ :=
    handles_defaults c source position rest hdrop
  obtain rfl := hother.unique h
  have hmore := hdrop.symm.trans h.drop_eq
  generalize source.drop (position + other.text.length) = more at hmore ⊢
  rw [htext, List.cons_append, List.cons_inj_right] at hmore
  have hrun := List.takeWhile_append_dropWhile (p := joins (actionOf c)) (l := rest)
  obtain rfl := List.append_cancel_left (hrun.trans hmore)
  exact ⟨c, rest, hdrop, htext, by rw [htoken, htext]; rfl, rfl⟩

-- The segments by the rules of the language are the pieces that are scanned.
theorem Cuts.scanTokens_eq (h : Cuts Pattern Rule.defaults source position segments stop)
    (hstop : stop = source.length) :
    scanTokens (source.drop position) = segments.filterMap Segment.token? := by
  induction h with
  | nil =>
    rw [hstop, List.drop_length]
    simp [scanTokens, scan]
  | @cons position stop segment segments hbegins hrest ih =>
    obtain ⟨c, rest, hdrop, -, htoken, hmore⟩ := hbegins.exists_piece
    rw [hdrop, scanTokens_cons, List.filterMap_cons, ← htoken, ← hmore, ih hstop]
    cases segment.token? <;> rfl

-- Whatever is in the cache, a source is cut by the rules of the language.
theorem exists_tokenizeWith (source file : String) (hcache : cache.Sound) :
    ∃ segments after, Cuts Pattern Rule.defaults source.toList 0 segments source.toList.length ∧
      tokenizeWith source file cache =
        (after, .ok (tokensOf file source.toList 0 segments)) ∧ after.Sound :=
  exists_tokenizeWith_of_readable source file hcache readable_defaults

-- Apart from where they stand, the tokens of a source are those that are scanned.
theorem exists_tokenize (source file : String) : ∃ tokens, tokenize source file = .ok tokens ∧
    tokens.map (·.withLocation none) = scanTokens source.toList := by
  obtain ⟨segments, after, hcuts, htokenize, -⟩ :=
    exists_tokenizeWith source file PatternCache.sound_empty
  refine ⟨_, by rw [tokenize, htokenize], ?_⟩
  rw [map_withLocation_tokensOf, ← hcuts.scanTokens_eq rfl, List.drop_zero]

end Sources

end ExprLang
