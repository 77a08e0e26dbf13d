import ExprLang.Proofs.Lexer.Session
import ExprLang.Proofs.Lexer.Stocked
import Mathlib.Data.List.TakeWhile

-- What is in the caches after any session, and what the session would have
-- answered with no sharing at all.

namespace ExprLang.Workspace

open PatternEngine

variable {α : Type} {w w' : Workspace α} {name : String} {number : Nat} {cache : PatternCache α}
  {lexer : Lexer}

section Caches

-- What a cache holds, or nothing if there is none of this number.
def cacheAt (w : Workspace α) (number : Nat) : PatternCache α := w.caches.getD number .empty

theorem getElem?_of_cache? (h : w.cache? name = some (number, cache)) :
    w.caches[number]? = some cache := by
  simp only [cache?, Option.bind_eq_bind, Option.bind_eq_some_iff] at h
  obtain ⟨found, -, held, hget, hpair⟩ := h
  cases hpair
  exact hget

theorem lookup_of_lexer? (h : w.lexer? name = some (lexer, number, cache)) :
    w.lexers.lookup name = some (lexer, number) ∧ w.caches[number]? = some cache := by
  simp only [lexer?, Option.bind_eq_bind, Option.bind_eq_some_iff] at h
  obtain ⟨found, hlookup, held, hget, hpair⟩ := h
  cases hpair
  exact ⟨hlookup, hget⟩

theorem cacheAt_of_getElem? (h : w.caches[number]? = some cache) : w.cacheAt number = cache := by
  rw [cacheAt, List.getD_eq_getElem?_getD, h, Option.getD_some]

theorem cacheAt_setCache (h : w.caches[number]? = some cache) (after : PatternCache α) (m : Nat) :
    (w.setCache number after).cacheAt m = if number = m then after else w.cacheAt m := by
  obtain ⟨hlt, -⟩ := List.getElem?_eq_some_iff.mp h
  simp only [cacheAt, setCache, List.getD_eq_getElem?_getD, List.getElem?_set, hlt, if_true]
  split <;> rfl

theorem cacheAt_addCache (after : PatternCache α) (m : Nat) :
    (w.addCache after).1.cacheAt m = if w.caches.length = m then after else w.cacheAt m := by
  simp only [cacheAt, addCache, List.getD_eq_getElem?_getD]
  split
  · next heq =>
    subst heq
    simp
  · next hne =>
    rcases Nat.lt_or_gt_of_ne hne with hlt | hlt
    · rw [List.getElem?_eq_none (by simp; omega), List.getElem?_eq_none (by omega)]
    · rw [List.getElem?_append_left hlt]

theorem cacheAt_length (w : Workspace α) : w.cacheAt w.caches.length = .empty := by
  rw [cacheAt, List.getD_eq_getElem?_getD, List.getElem?_eq_none (Nat.le_refl _), Option.getD_none]

theorem setCache_same (h : w.caches[number]? = some cache) : w.setCache number cache = w := by
  obtain ⟨hlt, rfl⟩ := List.getElem?_eq_some_iff.mp h
  rw [setCache, List.set_getElem_self hlt]

end Caches

section Access

-- What a command does that fills a named cache.
theorem withCache_of_cache? (h : w.cache? name = some (number, cache))
    (act : PatternCache α → PatternCache α × Answer) :
    w.withCache name act = (w.setCache number (act cache).1, (act cache).2) := by
  simp only [withCache, h]

theorem withCache_of_none (h : w.cache? name = none)
    (act : PatternCache α → PatternCache α × Answer) :
    w.withCache name act = (w, .unknownName) := by
  simp only [withCache, h]

variable {act : Lexer → PatternCache α → Except Lexer.Fault ((Lexer × Answer) × PatternCache α)}

theorem withLexer_of_none (h : w.lexer? name = none) :
    w.withLexer name act = (w, .unknownName) := by
  simp only [withLexer, h]

theorem withLexer_of_error {fault : Lexer.Fault}
    (h : w.lexer? name = some (lexer, number, cache)) (hact : act lexer cache = .error fault) :
    (w.withLexer name act).1 = w := by
  simp only [withLexer, h, hact]

theorem withLexer_of_pastEnd (h : w.lexer? name = some (lexer, number, cache))
    (hact : act lexer cache = .error .pastEnd) : w.withLexer name act = (w, .pastEnd) := by
  simp only [withLexer, h, hact]
  rfl

theorem withLexer_of_ok {next : Lexer} {answer : Answer} {after : PatternCache α}
    (h : w.lexer? name = some (lexer, number, cache))
    (hact : act lexer cache = .ok ((next, answer), after)) :
    w.withLexer name act = ((w.setCache number after).setLexer name next number, answer) := by
  simp only [withLexer, h, hact]

end Access

variable [PatternEngine α]

section Requests

-- The number of the cache that a command compiles patterns through, and their
-- texts. A cache with a pattern that is not compiled is not made. A lexer at work
-- has compiled all its patterns before.
def requests (w : Workspace α) : Command → Option (Nat × List String)
  | .newCache _ patterns =>
    if patterns.all (compiles α) then some (w.caches.length, patterns) else none
  | .compile name text | .matchText name text _ _ =>
    (w.cache? name).map fun found => (found.1, [text])
  | .tokenizeText name _ =>
    (w.cache? name).map fun found => (found.1, Rule.patterns Rule.defaults)
  | .newLexer _ _ _ rules none => some (w.caches.length, Rule.patterns rules)
  | .newLexer _ _ _ rules (some shared) =>
    (w.cache? shared).map fun found => (found.1, Rule.patterns rules)
  | .contains .. | .tokenize _ | .next _ | .advance .. | .inspect _ => none

-- The texts of a request that come to be compiled through a cache. The first that
-- is not compiled ends it.
def granted (α : Type) [PatternEngine α] (number : Nat) : Option (Nat × List String) → List String
  | some (other, texts) => if other = number then texts.takeWhile (compiles α) else []
  | none => []

-- What a session has compiled through a cache, in this order and as often as it
-- was asked for.
def compiled (w : Workspace α) (number : Nat) : List Command → List String
  | [] => []
  | command :: rest =>
    granted α number (w.requests command) ++ (w.step command).1.compiled number rest

theorem compiles_of_mem_granted {request : Option (Nat × List String)} {text : String}
    (h : text ∈ granted α number request) : compiles α text = true := by
  unfold granted at h
  split at h
  · split at h
    · exact List.mem_takeWhile_imp h
    · cases h
  · cases h

theorem compiles_of_mem_compiled {commands : List Command} {text : String}
    (h : text ∈ w.compiled number commands) : compiles α text = true := by
  induction commands generalizing w with
  | nil => cases h
  | cons command commands ih =>
    rcases List.mem_append.mp h with hfirst | hrest
    · exact compiles_of_mem_granted hfirst
    · exact ih hrest

end Requests

section Steps

theorem Sound.withCache_congr (h : w.Sound) {act act' : PatternCache α → PatternCache α × Answer}
    (hact : ∀ cache, cache.Sound → act cache = act' cache) :
    w.withCache name act = w.withCache name act' := by
  cases hcache : w.cache? name with
  | none => rw [withCache_of_none hcache, withCache_of_none hcache]
  | some found =>
    rw [withCache_of_cache? hcache, withCache_of_cache? hcache, hact _ (h.of_cache? hcache)]

theorem step_tokenize_of_ok {final : Lexer} {after : PatternCache α}
    (h : w.lexer? name = some (lexer, number, cache))
    (htokenize : lexer.tokenize cache = .ok (final, after)) :
    w.step (.tokenize name) =
      ((w.setCache number after).setLexer name final number, .tokenized final) :=
  withLexer_of_ok h (by rw [htokenize]; rfl)

theorem step_next_of_ok {token? : Option Token} {length : Nat} {after : PatternCache α}
    (h : w.lexer? name = some (lexer, number, cache))
    (hnext : lexer.next cache = .ok ((token?, length), after)) :
    w.step (.next name) =
      ((w.setCache number after).setLexer name lexer number, .next token? length lexer) :=
  withLexer_of_ok h (by rw [hnext]; rfl)

theorem step_next_of_pastEnd (h : w.lexer? name = some (lexer, number, cache))
    (hnext : lexer.next cache = .error .pastEnd) : w.step (.next name) = (w, .pastEnd) :=
  withLexer_of_pastEnd h (by rw [hnext]; rfl)

theorem Sound.step_compile (h : w.Sound) (name text : String) :
    w.step (.compile name text) = w.withCache name fun cache =>
      (cache.filled [text], match ofText α text with
        | .ok _ => .compiled (cache.contains text) (cache.filled [text]).size
        | .error fault => .badPattern fault) := by
  refine h.withCache_congr fun cache hcache => ?_
  rw [hcache.compile_eq]
  cases hread : ofText α text with
  | ok pattern => rfl
  | error fault => rw [hcache.filled_of_error hread]; rfl

theorem Sound.step_matchText (h : w.Sound) (name text subject : String) (position : Nat) :
    w.step (.matchText name text subject position) = w.withCache name fun cache =>
      (cache.filled [text], match ofText α text with
        | .ok pattern =>
          .matched ((PatternEngine.matchText? pattern subject.toList position).map String.ofList)
            (cache.filled [text]).size
        | .error fault => .badPattern fault) := by
  refine h.withCache_congr fun cache hcache => ?_
  rw [hcache.matchText?_eq]
  cases hread : ofText α text with
  | ok pattern => rfl
  | error fault => rw [hcache.filled_of_error hread]; rfl

theorem Sound.step_tokenizeText (h : w.Sound) (name source : String) :
    w.step (.tokenizeText name source) = w.withCache name fun cache =>
      (cache.filled (Rule.patterns Rule.defaults),
        match (tokenizeWith source "<string>" (.empty : PatternCache α)).2 with
        | .ok tokens => .tokens tokens (cache.filled (Rule.patterns Rule.defaults)).size
        | .error fault => faultAnswer fault) := by
  refine h.withCache_congr fun cache hcache => ?_
  rw [tokenizeWith_eq source "<string>" hcache]
  cases (tokenizeWith source "<string>" (.empty : PatternCache α)).2 <;> rfl

theorem step_contains (name text : String) : (w.step (.contains name text)).1 = w := by
  cases hcache : w.cache? name with
  | none => exact congrArg Prod.fst (withCache_of_none hcache _)
  | some found =>
    refine (congrArg Prod.fst (withCache_of_cache? hcache _)).trans ?_
    exact setCache_same (getElem?_of_cache? hcache)

theorem step_newCache (name : String) (patterns : List String) :
    w.step (.newCache name patterns) =
      match patterns.findSome? (fault? α) with
      | none =>
        ({ (w.addCache (PatternCache.empty.filled patterns)).1 with
            cacheNames := assign w.cacheNames name w.caches.length },
          .size ((.empty : PatternCache α).filled patterns).size)
      | some fault => (w, .badPattern fault) := by
  have hempty : (.empty : PatternCache α).Sound := PatternCache.sound_empty
  simp only [step, Workspace.newCache, hempty.compileAll_eq]
  cases patterns.findSome? (fault? α) <;> rfl

-- A lexer that is made with a cache uses this one, also when it is empty.
theorem Sound.step_newLexer_shared (h : w.Sound) {shared : String}
    (hcache : w.cache? shared = some (number, cache)) (name source file : String)
    (rules : List Rule) :
    w.step (.newLexer name source file rules (some shared)) =
      match (Rule.patterns rules).findSome? (fault? α) with
      | none =>
        ((w.setCache number (cache.filled (Rule.patterns rules))).setLexer name
            (.start source file rules) number,
          .created (.start source file rules) (cache.filled (Rule.patterns rules)).size)
      | some fault =>
        (w.setCache number (cache.filled (Rule.patterns rules)),
          .badRule fault (some (cache.filled (Rule.patterns rules)).size)) := by
  simp only [Workspace.step, Workspace.newLexer, hcache,
    Lexer.new_eq source file rules (h.of_cache? hcache)]
  cases (Rule.patterns rules).findSome? (fault? α) <;> rfl

theorem step_newLexer_private (name source file : String) (rules : List Rule) :
    w.step (.newLexer name source file rules none) =
      match (Rule.patterns rules).findSome? (fault? α) with
      | none =>
        (((w.addCache .empty).1.setCache w.caches.length
            (PatternCache.empty.filled (Rule.patterns rules))).setLexer name
              (.start source file rules) w.caches.length,
          .created (.start source file rules)
            ((.empty : PatternCache α).filled (Rule.patterns rules)).size)
      | some fault =>
        ((w.addCache .empty).1.setCache w.caches.length
          (PatternCache.empty.filled (Rule.patterns rules)), .badRule fault none) := by
  have hempty : (.empty : PatternCache α).Sound := PatternCache.sound_empty
  simp only [step, Workspace.newLexer, addCache, Lexer.new_eq source file rules hempty]
  cases (Rule.patterns rules).findSome? (fault? α) <;> rfl

end Steps

section Stocked

-- All patterns of each lexer are in the cache that it uses.
structure Kept (w : Workspace α) : Prop where
  sound : w.Sound
  stocks : ∀ entry ∈ w.lexers, (w.cacheAt entry.2.2).Stocks entry.2.1.rules

-- What a command leaves: caches that have been filled with what it requests, and
-- lexers that were there before or have all their patterns.
structure Proceeds (w : Workspace α) (request : Option (Nat × List String)) (w' : Workspace α) :
    Prop where
  cacheAt : ∀ number, w'.cacheAt number = (w.cacheAt number).filled (granted α number request)
  lexers : ∀ entry ∈ w'.lexers,
    (∃ former ∈ w.lexers, former.2.2 = entry.2.2 ∧ former.2.1.rules = entry.2.1.rules) ∨
      (w'.cacheAt entry.2.2).Stocks entry.2.1.rules

theorem kept_empty : (empty : Workspace α).Kept := ⟨sound_empty, by simp [empty]⟩

theorem Kept.of_proceeds {request : Option (Nat × List String)} (h : w.Kept) (hsound : w'.Sound)
    (hproceeds : w.Proceeds request w') : w'.Kept := by
  refine ⟨hsound, fun entry hentry => ?_⟩
  rcases hproceeds.lexers entry hentry with ⟨former, hformer, hnumber, hrules⟩ | hstocks
  · intro text htext
    rw [← hrules] at htext
    rw [hproceeds.cacheAt, ← hnumber]
    exact PatternCache.contains_filled_of_contains (h.stocks former hformer text htext)
  · exact hstocks

theorem Kept.of_lexer? (h : w.Kept) (hlexer : w.lexer? name = some (lexer, number, cache)) :
    lexer.Ready α ∧ cache.Sound ∧ cache.Stocks lexer.rules := by
  obtain ⟨hready, hcache⟩ := h.sound.of_lexer? hlexer
  obtain ⟨hlookup, hget⟩ := lookup_of_lexer? hlexer
  obtain ⟨before, rest, hentries, -⟩ := List.lookup_eq_some_iff.mp hlookup
  have hstocks := h.stocks (name, lexer, number) (by simp [hentries])
  rw [cacheAt_of_getElem? hget] at hstocks
  exact ⟨hready, hcache, hstocks⟩

theorem proceeds_refl (w : Workspace α) : w.Proceeds none w :=
  ⟨fun _ => rfl, fun entry hentry => .inl ⟨entry, hentry, rfl, rfl⟩⟩

theorem Sound.proceeds_setCache (h : w.Sound) (hget : w.caches[number]? = some cache)
    (texts : List String) :
    w.Proceeds (some (number, texts)) (w.setCache number (cache.filled texts)) := by
  refine ⟨fun m => ?_, fun entry hentry => .inl ⟨entry, hentry, rfl, rfl⟩⟩
  rw [cacheAt_setCache hget, granted]
  split
  · next heq =>
    rw [← heq, cacheAt_of_getElem? hget, (h.of_getElem? hget).filled_takeWhile]
  · rfl

theorem Proceeds.setLexer {request : Option (Nat × List String)} (h : w.Proceeds request w')
    (hstocks : (w'.cacheAt number).Stocks lexer.rules) :
    w.Proceeds request (w'.setLexer name lexer number) := by
  refine ⟨h.cacheAt, fun entry hentry => ?_⟩
  rcases List.mem_cons.mp hentry with rfl | hold
  · exact .inr hstocks
  · exact h.lexers entry (List.mem_filter.mp hold).1

theorem Sound.proceeds_withCache (h : w.Sound) (name : String) (texts : List String)
    (answer : PatternCache α → Answer) :
    w.Proceeds ((w.cache? name).map fun found => (found.1, texts))
      (w.withCache name fun cache => (cache.filled texts, answer cache)).1 := by
  cases hcache : w.cache? name with
  | none =>
    rw [withCache_of_none hcache]
    exact proceeds_refl w
  | some found =>
    rw [withCache_of_cache? hcache]
    exact h.proceeds_setCache (getElem?_of_cache? hcache) texts

-- A lexer is made with a cache of this number, whosever it is.
theorem Sound.proceeds_newLexer (h : w.Sound) (hget : w.caches[number]? = some cache)
    {rules : List Rule} (hrules : Readable α rules) (name source file : String) :
    w.Proceeds (some (number, Rule.patterns rules))
      ((w.setCache number (cache.filled (Rule.patterns rules))).setLexer name
        (.start source file rules) number) := by
  refine (h.proceeds_setCache hget _).setLexer ?_
  rw [cacheAt_setCache hget, if_pos rfl]
  exact PatternCache.stocks_filled (h.of_getElem? hget) hrules

-- A lexer at work leaves all caches as they are.
theorem Kept.withLexer (h : w.Kept)
    {act : Lexer → PatternCache α → Except Lexer.Fault ((Lexer × Answer) × PatternCache α)}
    (hact : ∀ lexer cache next answer after, lexer.Ready α → cache.Sound →
      cache.Stocks lexer.rules → act lexer cache = .ok ((next, answer), after) →
        after = cache ∧ next.rules = lexer.rules) :
    (w.withLexer name act).1.caches = w.caches ∧ w.Proceeds none (w.withLexer name act).1 := by
  cases hlexer : w.lexer? name with
  | none =>
    rw [withLexer_of_none hlexer]
    exact ⟨rfl, proceeds_refl w⟩
  | some found =>
    obtain ⟨lexer, number, cache⟩ := found
    obtain ⟨hready, hcache, hstocks⟩ := h.of_lexer? hlexer
    obtain ⟨hlookup, hget⟩ := lookup_of_lexer? hlexer
    cases hresult : act lexer cache with
    | error fault =>
      rw [withLexer_of_error hlexer hresult]
      exact ⟨rfl, proceeds_refl w⟩
    | ok result =>
      obtain ⟨⟨next, answer⟩, after⟩ := result
      obtain ⟨rfl, hrules⟩ := hact lexer cache next answer after hready hcache hstocks hresult
      rw [withLexer_of_ok hlexer hresult, setCache_same hget]
      refine ⟨rfl, fun _ => rfl, fun entry hentry => .inl ?_⟩
      rcases List.mem_cons.mp hentry with rfl | hold
      · obtain ⟨before, rest, hentries, -⟩ := List.lookup_eq_some_iff.mp hlookup
        exact ⟨(name, lexer, number), by simp [hentries], rfl, hrules.symm⟩
      · exact ⟨entry, (List.mem_filter.mp hold).1, rfl, rfl⟩

theorem Kept.step_tokenize (h : w.Kept) (name : String) :
    (w.step (.tokenize name)).1.caches = w.caches ∧
      w.Proceeds none (w.step (.tokenize name)).1 := by
  refine h.withLexer fun lexer cache next answer after hready hcache hstocks hresult => ?_
  obtain ⟨⟨final, kept⟩, htokenize, hlast⟩ := exists_of_bind_eq_ok hresult
  obtain ⟨segments, other, -, hother, -⟩ := Lexer.exists_tokenize lexer hcache hready.readable
  cases hlast
  refine ⟨Lexer.tokenize_keeps hstocks htokenize, ?_⟩
  cases htokenize.symm.trans hother
  rfl

theorem Kept.step_next (h : w.Kept) (name : String) :
    (w.step (.next name)).1.caches = w.caches ∧ w.Proceeds none (w.step (.next name)).1 := by
  refine h.withLexer fun lexer cache next answer after hready hcache hstocks hresult => ?_
  obtain ⟨⟨⟨token?, length⟩, kept⟩, hnext, hlast⟩ := exists_of_bind_eq_ok hresult
  cases hlast
  exact ⟨Lexer.next_keeps hstocks hnext, rfl⟩

theorem proceeds_newCache (name : String) (patterns : List String) :
    w.Proceeds (w.requests (.newCache name patterns)) (w.step (.newCache name patterns)).1 := by
  rw [step_newCache, requests]
  cases hfault : patterns.findSome? (fault? α) with
  | some fault =>
    rw [if_neg fun hall => ?_]
    · exact proceeds_refl w
    · rw [all_compiles_iff.mp hall] at hfault
      cases hfault
  | none =>
    rw [if_pos (all_compiles_iff.mpr hfault)]
    refine ⟨fun m => ?_, fun entry hentry => .inl ⟨entry, hentry, rfl, rfl⟩⟩
    refine (cacheAt_addCache (PatternCache.empty.filled patterns) m).trans ?_
    rw [granted]
    split
    · next heq =>
      rw [← heq, cacheAt_length, PatternCache.sound_empty.filled_takeWhile]
    · rfl

-- A lexer with a cache of its own is one that shares a cache nobody else has.
theorem Sound.proceeds_private (h : w.Sound) (name source file : String) (rules : List Rule) :
    w.Proceeds (w.requests (.newLexer name source file rules none))
      (w.step (.newLexer name source file rules none)).1 := by
  have hget : (w.addCache .empty).1.caches[w.caches.length]? = some .empty := by
    simp [Workspace.addCache]
  have hadded := h.addCache PatternCache.sound_empty
  have hsame : ∀ m, (w.addCache .empty).1.cacheAt m = w.cacheAt m := by
    intro m
    rw [cacheAt_addCache]
    split
    · next heq => rw [← heq, cacheAt_length]
    · rfl
  have hback : ∀ {request w'}, (w.addCache .empty).1.Proceeds request w' →
      w.Proceeds request w' := by
    intro request w' hproceeds
    exact ⟨fun m => (hproceeds.cacheAt m).trans (by rw [hsame]), hproceeds.lexers⟩
  rw [step_newLexer_private, requests]
  cases hfault : (Rule.patterns rules).findSome? (fault? α) with
  | some fault => exact hback (hadded.proceeds_setCache hget _)
  | none =>
    have hrules := Lexer.findSome?_fault?_eq_none.mp hfault
    exact hback (hadded.proceeds_newLexer hget hrules name source file)

theorem Sound.proceeds_shared (h : w.Sound) (name source file : String) (rules : List Rule)
    (shared : String) :
    w.Proceeds (w.requests (.newLexer name source file rules (some shared)))
      (w.step (.newLexer name source file rules (some shared))).1 := by
  rw [requests]
  cases hcache : w.cache? shared with
  | none =>
    simp only [Workspace.step, Workspace.newLexer, hcache, Option.map_none]
    exact proceeds_refl w
  | some found =>
    obtain ⟨number, cache⟩ := found
    have hget := getElem?_of_cache? hcache
    rw [h.step_newLexer_shared hcache]
    cases hfault : (Rule.patterns rules).findSome? (fault? α) with
    | some fault => exact h.proceeds_setCache hget _
    | none =>
      have hrules := Lexer.findSome?_fault?_eq_none.mp hfault
      exact h.proceeds_newLexer hget hrules name source file

theorem Kept.proceeds (h : w.Kept) (command : Command) :
    w.Proceeds (w.requests command) (w.step command).1 := by
  cases command with
  | newCache name patterns => exact proceeds_newCache name patterns
  | compile name text =>
    rw [h.sound.step_compile]
    exact h.sound.proceeds_withCache name [text] _
  | matchText name text subject position =>
    rw [h.sound.step_matchText]
    exact h.sound.proceeds_withCache name [text] _
  | contains name text =>
    rw [step_contains]
    exact proceeds_refl w
  | newLexer name source file rules shared? =>
    cases shared? with
    | none => exact h.sound.proceeds_private name source file rules
    | some shared => exact h.sound.proceeds_shared name source file rules shared
  | tokenizeText name source =>
    rw [h.sound.step_tokenizeText name source]
    exact h.sound.proceeds_withCache name (Rule.patterns Rule.defaults) _
  | tokenize name => exact (h.step_tokenize name).2
  | next name => exact (h.step_next name).2
  | advance name count =>
    refine (h.withLexer fun lexer cache next answer after _ _ _ hresult => ?_).2
    cases hresult
    exact ⟨rfl, rfl⟩
  | inspect name =>
    refine (h.withLexer fun lexer cache next answer after _ _ _ hresult => ?_).2
    cases hresult
    exact ⟨rfl, rfl⟩

end Stocked

section Runs

theorem Sound.cacheAt (h : w.Sound) (number : Nat) : (w.cacheAt number).Sound := by
  cases hget : w.caches[number]? with
  | some cache =>
    rw [cacheAt_of_getElem? hget]
    exact h.of_getElem? hget
  | none =>
    rw [Workspace.cacheAt, List.getD_eq_getElem?_getD, hget]
    exact PatternCache.sound_empty

theorem Kept.step (h : w.Kept) (command : Command) : (w.step command).1.Kept :=
  h.of_proceeds (h.sound.step command) (h.proceeds command)

theorem Kept.run (h : w.Kept) (commands : List Command) : (w.run commands).1.Kept := by
  induction commands generalizing w with
  | nil => exact h
  | cons command commands ih => exact ih (h.step command)

theorem run_append (w : Workspace α) (commands more : List Command) :
    (w.run (commands ++ more)).1 = ((w.run commands).1.run more).1 := by
  induction commands generalizing w with
  | nil => rfl
  | cons command commands ih => exact ih (w.step command).1

-- After any session a cache is what its patterns have made of it, one by one.
theorem Kept.cacheAt_run (h : w.Kept) (commands : List Command) (number : Nat) :
    (w.run commands).1.cacheAt number =
      (w.cacheAt number).filled (w.compiled number commands) := by
  induction commands generalizing w with
  | nil => rfl
  | cons command commands ih =>
    have hcompiles : ∀ text ∈ granted α number (w.requests command), compiles α text = true :=
      fun _ hmem => compiles_of_mem_granted hmem
    calc
      ((w.step command).1.run commands).1.cacheAt number =
          ((w.step command).1.cacheAt number).filled
            ((w.step command).1.compiled number commands) := ih (h.step command)
      _ = ((w.cacheAt number).filled (granted α number (w.requests command))).filled
            ((w.step command).1.compiled number commands) := by
        rw [(h.proceeds command).cacheAt]
      _ = (w.cacheAt number).filled (w.compiled number (command :: commands)) :=
        ((h.sound.cacheAt number).filled_append hcompiles).symm

end Runs

end ExprLang.Workspace
