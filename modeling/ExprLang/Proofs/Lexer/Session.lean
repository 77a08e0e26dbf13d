import ExprLang.Lexer.Workspace
import ExprLang.Proofs.Lexer.Place
import ExprLang.Proofs.Lexer.Tokenize

-- Whatever has been done with lexers and caches before, each lexer stands where
-- the characters before its position say, and it goes through its source as a
-- new one does.

namespace ExprLang

namespace Lexer

variable {α : Type} [PatternEngine α] {lexer final : Lexer} {cache after : PatternCache α}

-- Line and column are those of what comes behind the characters before the
-- position. Behind the end there are no more of them.
structure Placed (lexer : Lexer) : Prop where
  line : lexer.line = 1 + (lexer.source.take lexer.position).count '\n'
  column : lexer.column = 1 + (lastLine (lexer.source.take lexer.position)).length

theorem placed_goTo (lexer : Lexer) (position : Nat) : (lexer.goTo position).Placed := by
  have hplace := placeBehind_eq (lexer.source.take position)
  exact ⟨congrArg Prod.fst hplace, congrArg Prod.snd hplace⟩

theorem Placed.eq_goTo (h : lexer.Placed) : lexer = lexer.goTo lexer.position := by
  have hplace := placeBehind_eq (lexer.source.take lexer.position)
  rw [← h.line, ← h.column] at hplace
  rw [goTo, hplace]

theorem Placed.advance (h : lexer.Placed) (count : Nat) : (lexer.advance count).Placed := by
  rw [h.eq_goTo, advance_goTo]
  exact placed_goTo lexer _

-- What a lexer needs for going through its source.
structure Ready (α : Type) [PatternEngine α] (lexer : Lexer) : Prop where
  readable : Readable α lexer.rules
  placed : lexer.Placed

theorem sound_new (source file : String) (rules : List Rule) (hcache : cache.Sound) :
    (Lexer.new source file rules cache).1.Sound ∧
      ∀ lexer, (Lexer.new source file rules cache).2 = .ok lexer → lexer.Ready α := by
  obtain ⟨hsound, hread⟩ := hcache.compileAll (rules.map (·.pattern))
  unfold Lexer.new
  split
  · next filled hall =>
    rw [hall] at hsound hread
    refine ⟨hsound, fun lexer hlexer => ?_⟩
    obtain rfl := Except.ok.inj hlexer
    have hrules : Readable α rules := fun rule hrule =>
      hread rfl rule.pattern (List.mem_map_of_mem hrule)
    exact ⟨hrules, rfl, rfl⟩
  · next filled e hall =>
    rw [hall] at hsound
    exact ⟨hsound, by simp⟩

theorem Ready.next (h : lexer.Ready α) (hcache : cache.Sound) {result : Option Token × Nat}
    (hnext : lexer.next cache = .ok (result, after)) : after.Sound := by
  obtain ⟨tried, hfirst, htried⟩ :=
    exists_firstMatch? lexer.source lexer.position hcache h.readable
  simp only [Lexer.next, hfirst] at hnext
  split at hnext
  · cases ‹Except.ok _ = Except.error _›
  · next heq =>
    obtain ⟨-, rfl⟩ := Prod.mk.inj (Except.ok.inj heq)
    cases hnext
    exact htried
  · next heq =>
    obtain ⟨-, rfl⟩ := Prod.mk.inj (Except.ok.inj heq)
    split at hnext
    · cases hnext
      exact htried
    · cases hnext

theorem Ready.tokenize (h : lexer.Ready α) (hcache : cache.Sound)
    (htokenize : lexer.tokenize cache = .ok (final, after)) : final.Ready α ∧ after.Sound := by
  obtain ⟨segments, other, -, hother, hsound⟩ := exists_tokenize lexer hcache h.readable
  cases htokenize.symm.trans hother
  have hplaced := placed_goTo lexer lexer.source.length
  exact ⟨⟨h.readable, hplaced.line, hplaced.column⟩, hsound⟩

end Lexer

theorem sound_tokenizeWith {α : Type} [PatternEngine α] {cache : PatternCache α}
    (source file : String) (hcache : cache.Sound) : (tokenizeWith source file cache).1.Sound := by
  obtain ⟨hfilled, hready⟩ := Lexer.sound_new source file Rule.defaults hcache
  unfold tokenizeWith
  split
  · next filled fault hnew =>
    rw [hnew] at hfilled
    exact hfilled
  · next filled lexer hnew =>
    rw [hnew] at hfilled hready
    cases htokenize : lexer.tokenize filled with
    | error fault => exact hfilled
    | ok result => exact ((hready lexer rfl).tokenize hfilled htokenize).2

namespace Workspace

variable {α : Type} [PatternEngine α] {w : Workspace α} {name : String} {cache : PatternCache α}
  {lexer : Lexer} {number : Nat}

structure Sound (w : Workspace α) : Prop where
  caches : ∀ cache ∈ w.caches, cache.Sound
  lexers : ∀ entry ∈ w.lexers, entry.2.1.Ready α

theorem sound_empty : (empty : Workspace α).Sound := ⟨by simp [empty], by simp [empty]⟩

theorem Sound.of_getElem? (h : w.Sound) (hget : w.caches[number]? = some cache) : cache.Sound :=
  h.caches cache (List.mem_of_getElem? hget)

theorem Sound.of_cache? (h : w.Sound) (hcache : w.cache? name = some (number, cache)) :
    cache.Sound := by
  simp only [cache?, Option.bind_eq_bind, Option.bind_eq_some_iff] at hcache
  obtain ⟨found, -, other, hget, hpair⟩ := hcache
  cases hpair
  exact h.of_getElem? hget

theorem Sound.of_lexer? (h : w.Sound) (hlexer : w.lexer? name = some (lexer, number, cache)) :
    lexer.Ready α ∧ cache.Sound := by
  simp only [lexer?, Option.bind_eq_bind, Option.bind_eq_some_iff] at hlexer
  obtain ⟨found, hlookup, other, hget, hpair⟩ := hlexer
  cases hpair
  obtain ⟨before, rest, hentries, -⟩ := List.lookup_eq_some_iff.mp hlookup
  exact ⟨h.lexers (name, found) (by simp [hentries]), h.of_getElem? hget⟩

theorem Sound.setCache (h : w.Sound) (hcache : cache.Sound) : (w.setCache number cache).Sound := by
  refine ⟨fun other hmem => ?_, h.lexers⟩
  rcases List.mem_or_eq_of_mem_set hmem with hold | rfl
  · exact h.caches other hold
  · exact hcache

theorem Sound.setLexer (h : w.Sound) (hlexer : lexer.Ready α) :
    (w.setLexer name lexer number).Sound := by
  refine ⟨h.caches, fun entry hmem => ?_⟩
  rcases List.mem_cons.mp hmem with rfl | hold
  · exact hlexer
  · exact h.lexers entry (List.mem_filter.mp hold).1

theorem Sound.addCache (h : w.Sound) (hcache : cache.Sound) : (w.addCache cache).1.Sound := by
  refine ⟨fun other hmem => ?_, h.lexers⟩
  rcases List.mem_append.mp hmem with hold | hnew
  · exact h.caches other hold
  · exact List.mem_singleton.mp hnew ▸ hcache

theorem Sound.withCache (h : w.Sound) {act : PatternCache α → PatternCache α × Answer}
    (hact : ∀ cache, cache.Sound → (act cache).1.Sound) : (w.withCache name act).1.Sound := by
  unfold Workspace.withCache
  cases hcache : w.cache? name with
  | none => exact h
  | some entry =>
    obtain ⟨number, cache⟩ := entry
    exact h.setCache (hact cache (h.of_cache? hcache))

theorem Sound.withLexer (h : w.Sound)
    {act : Lexer → PatternCache α → Except Lexer.Fault ((Lexer × Answer) × PatternCache α)}
    (hact : ∀ lexer cache next answer after, lexer.Ready α → cache.Sound →
      act lexer cache = .ok ((next, answer), after) → next.Ready α ∧ after.Sound) :
    (w.withLexer name act).1.Sound := by
  unfold Workspace.withLexer
  cases hlexer : w.lexer? name with
  | none => exact h
  | some entry =>
    obtain ⟨lexer, number, cache⟩ := entry
    obtain ⟨hready, hcache⟩ := h.of_lexer? hlexer
    dsimp only
    cases hresult : act lexer cache with
    | error fault => exact h
    | ok result =>
      obtain ⟨⟨next, answer⟩, after⟩ := result
      obtain ⟨hnext, hafter⟩ := hact lexer cache next answer after hready hcache hresult
      exact (h.setCache hafter).setLexer hnext

theorem Sound.newCache (h : w.Sound) (patterns : List String) :
    (w.newCache name patterns).1.Sound := by
  have hfilled := ((PatternCache.sound_empty (α := α)).compileAll patterns).1
  unfold Workspace.newCache
  split
  · exact h
  · next cache hall =>
    rw [hall] at hfilled
    have hadded := h.addCache hfilled
    exact ⟨hadded.caches, hadded.lexers⟩

theorem Sound.newLexer (h : w.Sound) (source file : String) (rules : List Rule)
    (cache? : Option String) : (w.newLexer name source file rules cache?).1.Sound := by
  unfold Workspace.newLexer
  split
  next w place? heq =>
  have hplace : w.Sound ∧ ∀ number cache, place? = some (number, cache) → cache.Sound := by
    cases cache? with
    | some shared =>
      obtain ⟨rfl, rfl⟩ := Prod.mk.inj heq
      exact ⟨h, fun number cache hcache => h.of_cache? hcache⟩
    | none =>
      obtain ⟨rfl, rfl⟩ := Prod.mk.inj heq
      refine ⟨h.addCache PatternCache.sound_empty, fun number cache hcache => ?_⟩
      obtain ⟨-, rfl⟩ := Prod.mk.inj (Option.some.inj hcache)
      exact PatternCache.sound_empty
  obtain ⟨hw, hcaches⟩ := hplace
  split
  · exact hw
  · next number cache =>
    obtain ⟨hfilled, hready⟩ := Lexer.sound_new source file rules (hcaches number cache rfl)
    split
    · next filled lexer hnew =>
      rw [hnew] at hfilled hready
      exact (hw.setCache hfilled).setLexer (hready lexer rfl)
    · next filled e hnew =>
      rw [hnew] at hfilled
      exact hw.setCache hfilled

theorem Sound.step (h : w.Sound) (command : Command) : (w.step command).1.Sound := by
  cases command with
  | newCache name patterns => exact h.newCache patterns
  | newLexer name source file rules cache? => exact h.newLexer source file rules cache?
  | compile name text =>
    refine h.withCache fun cache hcache => ?_
    cases hcompile : cache.compile text with
    | error e => exact hcache
    | ok compiled => exact (hcache.of_compile hcompile).2
  | matchText name text subject position =>
    refine h.withCache fun cache hcache => ?_
    cases hmatch : cache.matchText? text subject.toList position with
    | error e => exact hcache
    | ok matched => exact hcache.of_matchText? hmatch
  | contains name text => exact h.withCache fun cache hcache => hcache
  | tokenizeText name source =>
    refine h.withCache fun cache hcache => ?_
    have hafter := sound_tokenizeWith source "<string>" hcache
    revert hafter
    cases tokenizeWith source "<string>" cache with
    | mk after result => cases result <;> exact id
  | tokenize name =>
    refine h.withLexer fun lexer cache next answer after hready hcache hresult => ?_
    cases htokenize : lexer.tokenize cache with
    | error fault => simp [htokenize, bind, Except.bind] at hresult
    | ok result =>
      simp only [htokenize, bind, Except.bind, pure, Except.pure] at hresult
      cases hresult
      exact hready.tokenize hcache htokenize
  | next name =>
    refine h.withLexer fun lexer cache next answer after hready hcache hresult => ?_
    cases hnext : lexer.next cache with
    | error fault => simp [hnext, bind, Except.bind] at hresult
    | ok result =>
      simp only [hnext, bind, Except.bind, pure, Except.pure] at hresult
      cases hresult
      exact ⟨hready, hready.next hcache hnext⟩
  | advance name count =>
    refine h.withLexer fun lexer cache next answer after hready hcache hresult => ?_
    cases hresult
    exact ⟨⟨hready.readable, hready.placed.advance count⟩, hcache⟩
  | inspect name =>
    refine h.withLexer fun lexer cache next answer after hready hcache hresult => ?_
    cases hresult
    exact ⟨hready, hcache⟩

theorem Sound.run (h : w.Sound) (commands : List Command) : (w.run commands).1.Sound := by
  induction commands generalizing w with
  | nil => exact h
  | cons command commands ih => exact ih (h.step command)

-- In every state that can be reached the place of a lexer is that of its
-- position, and going through the source comes to what it does with a new lexer.
theorem lexer_keeps_place (commands : List Command)
    (h : (empty.run commands).1.lexer? name = some (lexer, number, cache)) :
    lexer.line = 1 + (lexer.source.take lexer.position).count '\n' ∧
      lexer.column = 1 + (lastLine (lexer.source.take lexer.position)).length ∧
      (∀ m n, (lexer.advance m).advance n = lexer.advance (m + n)) ∧
      ∃ final after, lexer.tokenize cache = .ok (final, after) ∧
        (∀ token ∈ final.tokens, ∃ offset,
          token.location? = some (.behind lexer.file (lexer.source.take offset)) ∧
          token.lexeme.toList = (lexer.source.drop offset).take token.lexeme.length ∧
          token.lexeme ≠ "") ∧
        ∀ other : PatternCache α, other.Sound → ∃ filled fresh after',
          Lexer.new (String.ofList lexer.source) lexer.file lexer.rules other =
            (filled, .ok fresh) ∧ fresh.tokenize filled = .ok (final, after') := by
  obtain ⟨⟨hrules, hplaced⟩, hcache⟩ := (sound_empty.run commands).of_lexer? h
  refine ⟨hplaced.line, hplaced.column, lexer.advance_advance, ?_⟩
  obtain ⟨segments, after, hcuts, htokenize, -⟩ := Lexer.exists_tokenize lexer hcache hrules
  refine ⟨_, after, htokenize, fun token htoken => ?_, fun other hother => ?_⟩
  · obtain ⟨offset, -, hplace, hlexeme⟩ := hcuts.place_of_mem htoken
    exact ⟨offset, hplace, hlexeme⟩
  · obtain ⟨filled, hnew, hfilled⟩ :=
      Lexer.exists_new (String.ofList lexer.source) lexer.file hother hrules
    have hstart : Lexer.start (String.ofList lexer.source) lexer.file lexer.rules =
        ⟨lexer.source, lexer.file, lexer.rules, 0, 1, 1, []⟩ := by
      rw [Lexer.start, String.toList_ofList]
    rw [hstart] at hnew
    obtain ⟨others, after', hothers, hfresh, -⟩ := Lexer.exists_tokenize
      ⟨lexer.source, lexer.file, lexer.rules, 0, 1, 1, []⟩ hfilled hrules
    obtain rfl := hothers.unique hcuts
    exact ⟨filled, _, after', hnew, hfresh⟩

-- A token and a blank text that each go over several lines, and a lexer that is
-- sent far behind the end.
private def wanderings : List Command :=
  [.newLexer "l" "a\n\nb \n c" "<string>" [⟨"\\s+", .skip⟩, ⟨"a[^b]\x7b2,\x7db", .word⟩] none,
    .advance "l" 3, .next "l", .tokenize "l", .advance "l" 100, .next "l"]

theorem lexer_keeps_place_wandering :
    ∃ lexer number cache final after,
      ((empty : Workspace Pattern).run wanderings).1.lexer? "l" = some (lexer, number, cache) ∧
        lexer.position = 108 ∧ lexer.line = 4 ∧ lexer.column = 3 ∧
        lexer.tokenize cache = .ok (final, after) ∧
        final.tokens =
          [⟨.identifier, "a\n\nb", .text "a\n\nb", some (.behind "<string>" [])⟩,
            ⟨.other, "c", .text "c", some (.behind "<string>" "a\n\nb \n ".toList)⟩] := by
  have hlexer : ((empty : Workspace Pattern).run wanderings).1.lexer? "l" = some (_, _, _) := rfl
  obtain ⟨hline, hcolumn, -, final, after, htokenize, -, -⟩ := lexer_keeps_place wanderings hlexer
  refine ⟨_, _, _, final, after, hlexer, rfl, hline, hcolumn, htokenize, ?_⟩
  cases htokenize
  rfl

end Workspace

end ExprLang
