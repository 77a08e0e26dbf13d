import ExprLang.Proofs.Lexer.Sharing

-- Caches do not show in what a session answers, apart from what is asked about
-- the caches themselves.

namespace ExprLang.Workspace

open PatternEngine

-- An answer without what it says of the cache: its size, and what is in it.
def Answer.bare : Answer → Answer
  | .size _ => .size 0
  | .compiled _ _ => .compiled false 0
  | .matched text? _ => .matched text? 0
  | .contained _ _ => .contained false 0
  | .created made _ => .created made 0
  | .tokens read _ => .tokens read 0
  | .badRule fault size? => .badRule fault (size?.map fun _ => 0)
  | answer => answer

variable {α : Type} [PatternEngine α]

-- The same workspace with new caches in place of all.
def emptied (w : Workspace α) : Workspace α := { w with caches := w.caches.map fun _ => .empty }

-- What a session answers if each command finds its cache empty.
def answersAlone (w : Workspace α) : List Command → List Answer
  | [] => []
  | command :: rest =>
    let (w, answer) := w.emptied.step command
    answer :: w.answersAlone rest

section Alike

-- Workspaces that differ in what is in their caches and in nothing else.
structure Alike (w w' : Workspace α) : Prop where
  sound : w.Sound
  sound' : w'.Sound
  cacheNames : w'.cacheNames = w.cacheNames
  lexers : w'.lexers = w.lexers
  length : w'.caches.length = w.caches.length

-- Commands that have done the same in both.
structure Parallel (done done' : Workspace α × Answer) : Prop where
  cacheNames : done'.1.cacheNames = done.1.cacheNames
  lexers : done'.1.lexers = done.1.lexers
  length : done'.1.caches.length = done.1.caches.length
  bare : done'.2.bare = done.2.bare

variable {w w' : Workspace α} {name : String}

theorem Alike.emptied (h : Alike w w') : Alike w w'.emptied := by
  have hempty : ∀ cache ∈ w'.emptied.caches, cache.Sound := by
    intro cache hmem
    obtain ⟨former, -, rfl⟩ := List.mem_map.mp hmem
    exact PatternCache.sound_empty
  exact ⟨h.sound, ⟨hempty, h.sound'.lexers⟩, h.cacheNames, h.lexers,
    (List.length_map _).trans h.length⟩

-- A number means a cache in both or in none.
theorem Alike.getElem? (h : Alike w w') (number : Nat) :
    (w.caches[number]? = none ∧ w'.caches[number]? = none) ∨
      ∃ cache cache', w.caches[number]? = some cache ∧ w'.caches[number]? = some cache' := by
  have hlength := h.length
  rcases Nat.lt_or_ge number w.caches.length with hlt | hge
  · exact .inr ⟨_, _, List.getElem?_eq_getElem hlt, List.getElem?_eq_getElem (hlength ▸ hlt)⟩
  · exact .inl ⟨List.getElem?_eq_none hge, List.getElem?_eq_none (hlength ▸ hge)⟩

theorem Alike.cache? (h : Alike w w') (name : String) :
    (w.cache? name = none ∧ w'.cache? name = none) ∨ ∃ number cache cache',
      w.cache? name = some (number, cache) ∧ w'.cache? name = some (number, cache') := by
  simp only [Workspace.cache?, h.cacheNames]
  cases w.cacheNames.lookup name with
  | none => exact .inl ⟨rfl, rfl⟩
  | some number =>
    rcases h.getElem? number with ⟨hnone, hnone'⟩ | ⟨cache, cache', hcache, hcache'⟩
    · exact .inl ⟨by simp [hnone], by simp [hnone']⟩
    · exact .inr ⟨number, cache, cache', by simp [hcache], by simp [hcache']⟩

theorem Alike.lexer? (h : Alike w w') (name : String) :
    (w.lexer? name = none ∧ w'.lexer? name = none) ∨ ∃ lexer number cache cache',
      w.lexer? name = some (lexer, number, cache) ∧
        w'.lexer? name = some (lexer, number, cache') := by
  simp only [Workspace.lexer?, h.lexers]
  rcases w.lexers.lookup name with _ | ⟨lexer, number⟩
  · exact .inl ⟨rfl, rfl⟩
  · rcases h.getElem? number with ⟨hnone, hnone'⟩ | ⟨cache, cache', hcache, hcache'⟩
    · exact .inl ⟨by simp [hnone], by simp [hnone']⟩
    · exact .inr ⟨lexer, number, cache, cache', by simp [hcache], by simp [hcache']⟩

theorem Alike.unchanged (h : Alike w w') (answer : Answer) : Parallel (w, answer) (w', answer) :=
  ⟨h.cacheNames, h.lexers, h.length, rfl⟩

theorem Alike.setCache (h : Alike w w') (number : Nat) (cache cache' : PatternCache α)
    {answer answer' : Answer} (hanswer : answer'.bare = answer.bare) :
    Parallel (w.setCache number cache, answer) (w'.setCache number cache', answer') := by
  refine ⟨h.cacheNames, h.lexers, ?_, hanswer⟩
  simpa only [Workspace.setCache, List.length_set] using h.length

theorem Alike.setLexer (h : Alike w w') (number : Nat) (cache cache' : PatternCache α)
    (name : String) (lexer : Lexer) {answer answer' : Answer}
    (hanswer : answer'.bare = answer.bare) :
    Parallel ((w.setCache number cache).setLexer name lexer number, answer)
      ((w'.setCache number cache').setLexer name lexer number, answer') := by
  obtain ⟨hnames, -, hlength, -⟩ := h.setCache number cache cache' hanswer
  have hlexers := congrArg (assign · name (lexer, number)) h.lexers
  exact ⟨hnames, hlexers, hlength, hanswer⟩

theorem Alike.withCache (h : Alike w w') {act : PatternCache α → PatternCache α × Answer}
    (hact : ∀ cache cache', (act cache').2.bare = (act cache).2.bare) :
    Parallel (w.withCache name act) (w'.withCache name act) := by
  rcases h.cache? name with ⟨hnone, hnone'⟩ | ⟨number, cache, cache', hcache, hcache'⟩
  · rw [withCache_of_none hnone, withCache_of_none hnone']
    exact h.unchanged _
  · rw [withCache_of_cache? hcache, withCache_of_cache? hcache']
    exact h.setCache number _ _ (hact cache cache')

theorem Alike.withLexer (h : Alike w w')
    {act : Lexer → PatternCache α → Except Lexer.Fault ((Lexer × Answer) × PatternCache α)}
    (hact : ∀ lexer cache cache', lexer.Ready α → cache.Sound → cache'.Sound →
      (act lexer cache).map Prod.fst = (act lexer cache').map Prod.fst) :
    Parallel (w.withLexer name act) (w'.withLexer name act) := by
  rcases h.lexer? name with ⟨hnone, hnone'⟩ | ⟨lexer, number, cache, cache', hlexer, hlexer'⟩
  · rw [withLexer_of_none hnone, withLexer_of_none hnone']
    exact h.unchanged _
  obtain ⟨hready, hcache⟩ := h.sound.of_lexer? hlexer
  have hsame := hact lexer cache cache' hready hcache (h.sound'.of_lexer? hlexer').2
  cases hresult : act lexer cache with
  | error fault =>
    cases hresult' : act lexer cache' with
    | ok result =>
      rw [hresult, hresult'] at hsame
      cases hsame
    | error fault' =>
      rw [hresult, hresult'] at hsame
      obtain rfl := Except.error.inj hsame
      simp only [Workspace.withLexer, hlexer, hlexer', hresult, hresult']
      exact h.unchanged _
  | ok result =>
    cases hresult' : act lexer cache' with
    | error fault =>
      rw [hresult, hresult'] at hsame
      cases hsame
    | ok result' =>
      rw [hresult, hresult'] at hsame
      obtain ⟨⟨next, answer⟩, after⟩ := result
      obtain ⟨⟨next', answer'⟩, after'⟩ := result'
      obtain ⟨rfl, rfl⟩ := Prod.mk.inj (Except.ok.inj hsame)
      rw [withLexer_of_ok hlexer hresult, withLexer_of_ok hlexer' hresult']
      exact h.setLexer number after after' name next rfl

theorem Alike.newLexer (h : Alike w w') (name source file : String) (rules : List Rule)
    (shared? : Option String) :
    Parallel (w.step (.newLexer name source file rules shared?))
      (w'.step (.newLexer name source file rules shared?)) := by
  cases shared? with
  | none =>
    have hadded : Alike (w.addCache .empty).1 (w'.addCache .empty).1 :=
      ⟨h.sound.addCache PatternCache.sound_empty, h.sound'.addCache PatternCache.sound_empty,
        h.cacheNames, h.lexers, by simp only [addCache, List.length_append, h.length]⟩
    rw [step_newLexer_private, step_newLexer_private, h.length]
    cases (Rule.patterns rules).findSome? (fault? α) with
    | none => exact hadded.setLexer _ _ _ name _ rfl
    | some fault => exact hadded.setCache _ _ _ rfl
  | some shared =>
    rcases h.cache? shared with ⟨hnone, hnone'⟩ | ⟨number, cache, cache', hcache, hcache'⟩
    · simp only [Workspace.step, Workspace.newLexer, hnone, hnone']
      exact h.unchanged _
    · rw [h.sound.step_newLexer_shared hcache, h.sound'.step_newLexer_shared hcache']
      cases (Rule.patterns rules).findSome? (fault? α) with
      | none => exact h.setLexer number _ _ name _ rfl
      | some fault => exact h.setCache number _ _ rfl

theorem Alike.step (h : Alike w w') (command : Command) :
    Parallel (w.step command) (w'.step command) := by
  cases command with
  | newCache name patterns =>
    rw [step_newCache, step_newCache]
    cases patterns.findSome? (fault? α) with
    | some fault => exact h.unchanged _
    | none =>
      refine ⟨?_, h.lexers, ?_, rfl⟩
      · simp only [h.cacheNames, h.length]
      · simp only [addCache, List.length_append, h.length]
  | compile name text =>
    rw [h.sound.step_compile, h.sound'.step_compile]
    refine h.withCache fun cache cache' => ?_
    dsimp only
    cases ofText α text <;> rfl
  | matchText name text subject position =>
    rw [h.sound.step_matchText, h.sound'.step_matchText]
    refine h.withCache fun cache cache' => ?_
    dsimp only
    cases ofText α text <;> rfl
  | contains name text =>
    simp only [Workspace.step]
    exact h.withCache fun _ _ => rfl
  | newLexer name source file rules shared? => exact h.newLexer name source file rules shared?
  | tokenizeText name source =>
    rw [h.sound.step_tokenizeText, h.sound'.step_tokenizeText]
    refine h.withCache fun cache cache' => ?_
    dsimp only
    cases (tokenizeWith source "<string>" (.empty : PatternCache α)).2 <;> rfl
  | tokenize name =>
    refine h.withLexer fun lexer cache cache' hready hcache hcache' => ?_
    exact map_fst_bind_congr (Lexer.tokenize_congr hcache hcache' hready.readable) fun _ _ => rfl
  | next name =>
    refine h.withLexer fun lexer cache cache' hready hcache hcache' => ?_
    exact map_fst_bind_congr (Lexer.next_congr hcache hcache' hready.readable) fun _ _ => rfl
  | advance name count =>
    simp only [Workspace.step]
    exact h.withLexer fun _ _ _ _ _ _ => rfl
  | inspect name =>
    simp only [Workspace.step]
    exact h.withLexer fun _ _ _ _ _ _ => rfl

theorem Parallel.alike {done done' : Workspace α × Answer} (h : Parallel done done')
    (hsound : done.1.Sound) (hsound' : done'.1.Sound) : Alike done.1 done'.1 :=
  ⟨hsound, hsound', h.cacheNames, h.lexers, h.length⟩

-- With no sharing at all a session goes the same way.
theorem Alike.bare_answersAlone (h : Alike w w') (commands : List Command) :
    (w'.answersAlone commands).map Answer.bare = (w.run commands).2.map Answer.bare := by
  induction commands generalizing w w' with
  | nil => rfl
  | cons command commands ih =>
    have hdone := h.emptied.step command
    have hnext := hdone.alike (h.sound.step command) (h.emptied.sound'.step command)
    exact congrArg₂ List.cons hdone.bare (ih hnext)

end Alike

section Sessions

variable {commands : List Command} {name shared text : String} {number : Nat}
  {cache : PatternCache α}

-- What a session leaves that has begun with nothing.
def after (α : Type) [PatternEngine α] (commands : List Command) : Workspace α :=
  (empty.run commands).1

-- What it has compiled through a cache.
def compiledAfter (α : Type) [PatternEngine α] (number : Nat) (commands : List Command) :
    List String :=
  (empty : Workspace α).compiled number commands

theorem kept_after (commands : List Command) : (after α commands).Kept := kept_empty.run commands

theorem cacheAt_after (commands : List Command) (number : Nat) :
    (after α commands).cacheAt number =
      PatternCache.empty.filled (compiledAfter α number commands) :=
  kept_empty.cacheAt_run commands number

theorem contains_cacheAt_after : ((after α commands).cacheAt number).contains text = true ↔
    text ∈ compiledAfter α number commands := by
  have hcompiles : ∀ text ∈ compiledAfter α number commands, compiles α text = true :=
    fun _ hmem => compiles_of_mem_compiled hmem
  rw [cacheAt_after, PatternCache.sound_empty.contains_filled hcompiles]
  exact or_iff_right (by simp [PatternCache.contains, PatternCache.get?, PatternCache.empty])

theorem nodup_cacheAt_after (commands : List Command) (number : Nat) :
    ((after α commands).cacheAt number).known.Nodup := by
  have hempty : (PatternCache.empty : PatternCache α).known.Nodup := List.nodup_nil
  rw [cacheAt_after]
  exact PatternCache.nodup_filled hempty _

theorem entries_prefix_after (commands more : List Command) (number : Nat) :
    ((after α commands).cacheAt number).entries <+:
      ((after α (commands ++ more)).cacheAt number).entries := by
  have hrun : after α (commands ++ more) = ((after α commands).run more).1 :=
    run_append empty commands more
  rw [hrun, (kept_after commands).cacheAt_run more number]
  exact PatternCache.entries_prefix_filled _ _

-- A text that is no pattern is reported, and nothing happens.
theorem Sound.step_of_error {w : Workspace α} (h : w.Sound) {fault : PatternFault}
    (hcache : w.cache? name = some (number, cache)) (hread : ofText α text = .error fault) :
    w.step (.compile name text) = (w, .badPattern fault) ∧
      ∀ subject position,
        w.step (.matchText name text subject position) = (w, .badPattern fault) := by
  have hsame : w.setCache number (cache.filled [text]) = w := by
    rw [(h.of_cache? hcache).filled_of_error hread, setCache_same (getElem?_of_cache? hcache)]
  refine ⟨?_, fun subject position => ?_⟩
  · rw [h.step_compile, withCache_of_cache? hcache, hread, hsame]
  · rw [h.step_matchText, withCache_of_cache? hcache, hread, hsame]

-- A lexer that cannot be made leaves behind what came before the rule that is wrong.
theorem Sound.step_newLexer_of_error {w : Workspace α} (h : w.Sound) {fault : PatternFault}
    {before rest : List Rule} {bad : Rule} (hcache : w.cache? shared = some (number, cache))
    (hbefore : Readable α before) (hread : ofText α bad.pattern = .error fault)
    (name source file : String) :
    w.step (.newLexer name source file (before ++ bad :: rest) (some shared)) =
      (w.setCache number (cache.filled (Rule.patterns before)),
        .badRule fault (some (cache.filled (Rule.patterns before)).size)) := by
  have hsound := h.of_cache? hcache
  have hpatterns : Rule.patterns (before ++ bad :: rest) =
      Rule.patterns before ++ bad.pattern :: Rule.patterns rest := List.map_append
  have hnone := Lexer.findSome?_fault?_eq_none.mpr hbefore
  have hfilled : cache.filled (Rule.patterns (before ++ bad :: rest)) =
      cache.filled (Rule.patterns before) := by
    rw [hpatterns, hsound.filled_append (Rule.compiles_of_readable hbefore),
      (hsound.filled _).filled_of_error hread]
  rw [h.step_newLexer_shared hcache, hfilled, hpatterns, List.findSome?_append, hnone,
    List.findSome?_cons, fault?_of_error hread]
  rfl

theorem Kept.answer_tokenize {w : Workspace α} (h : w.Kept) (name : String) :
    (w.step (.tokenize name)).2 = .unknownName ∨
      ∃ final, (w.step (.tokenize name)).2 = .tokenized final := by
  cases hlexer : w.lexer? name with
  | none => exact .inl (congrArg Prod.snd (withLexer_of_none hlexer))
  | some found =>
    obtain ⟨lexer, number, cache⟩ := found
    obtain ⟨hready, hcache, -⟩ := h.of_lexer? hlexer
    obtain ⟨segments, after, -, htokenize, -⟩ :=
      Lexer.exists_tokenize lexer hcache hready.readable
    exact .inr ⟨_, congrArg Prod.snd (step_tokenize_of_ok hlexer htokenize)⟩

theorem Kept.answer_next {w : Workspace α} (h : w.Kept) (name : String) :
    (w.step (.next name)).2 = .unknownName ∨ (w.step (.next name)).2 = .pastEnd ∨
      ∃ token? length lexer, (w.step (.next name)).2 = .next token? length lexer := by
  cases hlexer : w.lexer? name with
  | none => exact .inl (congrArg Prod.snd (withLexer_of_none hlexer))
  | some found =>
    obtain ⟨lexer, number, cache⟩ := found
    obtain ⟨hready, hcache, -⟩ := h.of_lexer? hlexer
    cases hnext : lexer.next cache with
    | error fault =>
      obtain rfl := Lexer.eq_pastEnd_of_next hcache hready.readable hnext
      exact .inr (.inl (congrArg Prod.snd (step_next_of_pastEnd hlexer hnext)))
    | ok result =>
      obtain ⟨⟨token?, length⟩, after⟩ := result
      exact .inr (.inr ⟨token?, length, lexer, congrArg Prod.snd (step_next_of_ok hlexer hnext)⟩)

-- What caches are to a session.
structure Transparent (α : Type) [PatternEngine α] (commands : List Command) : Prop where
  -- each holds what has been compiled through it, and each text once
  holds : ∀ number text, ((after α commands).cacheAt number).contains text = true ↔
    text ∈ compiledAfter α number commands
  size : ∀ number, ((after α commands).cacheAt number).size =
    (compiledAfter α number commands).toFinset.card
  grows : ∀ more number, ((after α commands).cacheAt number).entries <+:
    ((after α (commands ++ more)).cacheAt number).entries
  -- a text that is not compiled is reported and changes nothing
  refuses : ∀ name text number cache fault, (after α commands).cache? name = some (number, cache) →
    (compile text : Except CompileFault α) = .error fault →
      (after α commands).step (.compile name text) =
          (after α commands, .badPattern (fault.report text)) ∧
        ∀ subject position, (after α commands).step (.matchText name text subject position) =
          (after α commands, .badPattern (fault.report text))
  -- a lexer that cannot be made leaves the rules before the wrong one
  leaves : ∀ name source file before bad rest shared number cache fault,
    (after α commands).cache? shared = some (number, cache) → Readable α before →
    (compile bad.pattern : Except CompileFault α) = .error fault → ∃ filled : PatternCache α,
      (after α commands).step (.newLexer name source file (before ++ bad :: rest) (some shared)) =
          ((after α commands).setCache number filled,
            .badRule (fault.report bad.pattern) (some filled.size)) ∧
        cache.entries <+: filled.entries ∧ filled.known.Nodup ∧
        ∀ text, filled.contains text = true ↔
          cache.contains text = true ∨ text ∈ Rule.patterns before
  -- a cache that is given is used, also when it is empty
  shares : ∀ name source file rules shared number cache,
    (after α commands).cache? shared = some (number, cache) → Readable α rules →
      ∃ (lexer : Lexer) (filled : PatternCache α),
        (after α commands).step (.newLexer name source file rules (some shared)) =
            (((after α commands).setCache number filled).setLexer name lexer number,
              .created lexer filled.size) ∧
          ∀ text, filled.contains text = true ↔
            cache.contains text = true ∨ text ∈ Rule.patterns rules
  fills : ∀ shared source number cache,
    (after α commands).cache? shared = some (number, cache) → Readable α Rule.defaults →
      ∃ (tokens : List Token) (filled : PatternCache α),
        (after α commands).step (.tokenizeText shared source) =
            ((after α commands).setCache number filled, .tokens tokens filled.size) ∧
          ∀ text, filled.contains text = true ↔
            cache.contains text = true ∨ text ∈ Rule.patterns Rule.defaults
  -- without any sharing all answers are the same
  alone : ((empty : Workspace α).answersAlone commands).map Answer.bare =
    ((empty : Workspace α).run commands).2.map Answer.bare
  -- a lexer at work leaves all caches as they are, and finds nothing wrong with its rules
  works : ∀ name,
    ((after α commands).step (.tokenize name)).1.caches = (after α commands).caches ∧
    ((after α commands).step (.next name)).1.caches = (after α commands).caches ∧
    ∀ fault, ((after α commands).step (.tokenize name)).2 ≠ .badPattern fault ∧
      ((after α commands).step (.next name)).2 ≠ .badPattern fault

theorem caches_are_transparent (α : Type) [PatternEngine α] (commands : List Command) :
    Transparent α commands := by
  have hkept : (after α commands).Kept := kept_after commands
  constructor
  · exact fun number text => contains_cacheAt_after
  · intro number
    rw [cacheAt_after]
    exact PatternCache.Sound.size_filled_empty fun _ hmem => compiles_of_mem_compiled hmem
  · exact entries_prefix_after commands
  · intro name text number cache fault hcache hcompile
    exact hkept.sound.step_of_error hcache (ofText_of_error hcompile)
  · intro name source file before bad rest shared number cache fault hcache hbefore hcompile
    have hread := ofText_of_error hcompile
    refine ⟨_, hkept.sound.step_newLexer_of_error hcache hbefore hread name source file,
      PatternCache.entries_prefix_filled _ _, ?_, fun text => ?_⟩
    · rw [← cacheAt_of_getElem? (getElem?_of_cache? hcache)]
      exact PatternCache.nodup_filled (nodup_cacheAt_after commands number) _
    · exact (hkept.sound.of_cache? hcache).contains_filled (Rule.compiles_of_readable hbefore)
  · intro name source file rules shared number cache hcache hrules
    have hstep := hkept.sound.step_newLexer_shared hcache name source file rules
    rw [Lexer.findSome?_fault?_eq_none.mpr hrules] at hstep
    exact ⟨_, _, hstep, fun text =>
      (hkept.sound.of_cache? hcache).contains_filled (Rule.compiles_of_readable hrules)⟩
  · intro shared source number cache hcache hrules
    have hempty : (PatternCache.empty : PatternCache α).Sound := PatternCache.sound_empty
    obtain ⟨segments, filled, -, htokens, -⟩ :=
      exists_tokenizeWith_of_readable source "<string>" hempty hrules
    have hstep := hkept.sound.step_tokenizeText shared source
    rw [withCache_of_cache? hcache, htokens] at hstep
    exact ⟨_, _, hstep, fun text =>
      (hkept.sound.of_cache? hcache).contains_filled (Rule.compiles_of_readable hrules)⟩
  · have halike : Alike (empty : Workspace α) empty := ⟨sound_empty, sound_empty, rfl, rfl, rfl⟩
    exact halike.bare_answersAlone commands
  · intro name
    refine ⟨(hkept.step_tokenize name).1, (hkept.step_next name).1, fun fault => ⟨?_, ?_⟩⟩
    · rcases hkept.answer_tokenize name with h | ⟨final, h⟩ <;> simp [h]
    · rcases hkept.answer_next name with h | h | ⟨token?, length, lexer, h⟩ <;> simp [h]

-- Two caches, one of which is given while it is empty, to a lexer that then is not
-- made, and to one that is.
private def sharing : List Command :=
  [.newCache "c" [], .newLexer "l" "a b" "f" [⟨"a", .word⟩, ⟨"[", .skip⟩] (some "c"),
    .newLexer "m" "ab" "f" [⟨"b", .word⟩, ⟨"a", .word⟩] (some "c"), .compile "c" "(",
    .newCache "d" ["a"], .tokenize "m"]

private def afterSharing : Workspace Pattern := after Pattern sharing

theorem caches_are_transparent_shared :
    compiledAfter Pattern 0 sharing = ["a", "b", "a"] ∧ (afterSharing.cacheAt 0).size = 2 ∧
      (afterSharing.cacheAt 1).size = 1 ∧
      afterSharing.step (.compile "c" "a)") =
        (afterSharing, .badPattern (.malformed ⟨"a)", "unbalanced parenthesis at position 1"⟩)) ∧
      afterSharing.step (.compile "c" "a\x7b4294967296\x7d") =
        (afterSharing, .badPattern (.raised "OverflowError")) ∧
      (∃ filled : PatternCache Pattern, (afterSharing.step
          (.newLexer "n" "" "f" ([⟨"e", .word⟩] ++ ⟨"a)", .word⟩ :: [⟨"g", .skip⟩]) (some "d"))).1 =
            afterSharing.setCache 1 filled ∧
        filled.contains "a" = true ∧ filled.contains "e" = true ∧ filled.contains "g" = false) ∧
      (afterSharing.step (.tokenize "m")).1.caches = afterSharing.caches := by
  have htransparent := caches_are_transparent Pattern sharing
  have hfirst : (after Pattern sharing).cache? "c" = some (0, _) := rfl
  have hsecond : (after Pattern sharing).cache? "d" = some (1, _) := rfl
  have hclosing : (compile "a)" : Except CompileFault Pattern) = .error _ := rfl
  have hbound : (compile "a\x7b4294967296\x7d" : Except CompileFault Pattern) = .error _ := rfl
  have hbefore : Readable Pattern [⟨"e", .word⟩] := Lexer.findSome?_fault?_eq_none.mp rfl
  refine ⟨rfl, htransparent.size 0, htransparent.size 1,
    (htransparent.refuses "c" "a)" 0 _ _ hfirst hclosing).1,
    (htransparent.refuses "c" _ 0 _ _ hfirst hbound).1, ?_, (htransparent.works "m").1⟩
  obtain ⟨filled, hstep, -, -, hcontains⟩ := htransparent.leaves "n" "" "f" [⟨"e", .word⟩]
    ⟨"a)", .word⟩ [⟨"g", .skip⟩] "d" 1 _ _ hsecond hbefore hclosing
  refine ⟨filled, congrArg Prod.fst hstep, (hcontains "a").mpr (.inl rfl),
    (hcontains "e").mpr (.inr (by decide)), ?_⟩
  rw [Bool.eq_false_iff, Ne, hcontains]
  decide

end Sessions

end ExprLang.Workspace
