import ExprLang.Proofs.Lexer.Tokenize
import ExprLang.Proofs.Pattern.Filled

-- What lexers do with their caches. Making a lexer compiles all its patterns, and
-- a lexer at work finds all it needs. What it finds does not depend on what else
-- is in the cache.

namespace ExprLang

-- What has come of a run is what came of each part.
theorem exists_of_bind_eq_ok {ε α β : Type} {m : Except ε α} {k : α → Except ε β} {b : β}
    (h : m >>= k = .ok b) : ∃ a, m = .ok a ∧ k a = .ok b := by
  cases m with
  | error e => cases h
  | ok a => exact ⟨a, rfl, h⟩

-- What comes of runs does not depend on what they leave, if it does not for a part.
theorem map_fst_bind_congr {ε α β γ : Type} {m m' : Except ε (α × γ)}
    {k : α × γ → Except ε (β × γ)} {f : α → β} (h : m.map Prod.fst = m'.map Prod.fst)
    (hk : ∀ a c, k (a, c) = .ok (f a, c)) :
    (m >>= k).map Prod.fst = (m' >>= k).map Prod.fst := by
  have hfst : ∀ n : Except ε (α × γ), (n >>= k).map Prod.fst = (n.map Prod.fst).map f := by
    rintro (e | ⟨a, c⟩)
    · rfl
    · exact congrArg (Except.map Prod.fst) (hk a c)
  rw [hfst, hfst, h]

namespace Rule

-- The texts that a lexer with these rules compiles.
def patterns (rules : List Rule) : List String := rules.map (·.pattern)

theorem compiles_of_readable {α : Type} [PatternEngine α] {rules : List Rule}
    (h : Readable α rules) : ∀ text ∈ patterns rules, PatternEngine.compiles α text = true := by
  intro text hmem
  obtain ⟨rule, hrule, rfl⟩ := List.mem_map.mp hmem
  exact PatternEngine.compiles_iff.mpr (h rule hrule)

end Rule

variable {α : Type} [PatternEngine α]

-- All patterns of these rules are at hand.
def PatternCache.Stocks {α : Type} (cache : PatternCache α) (rules : List Rule) : Prop :=
  ∀ text ∈ Rule.patterns rules, cache.contains text = true

theorem PatternCache.stocks_filled {cache : PatternCache α} {rules : List Rule}
    (hcache : cache.Sound) (hrules : Readable α rules) :
    (cache.filled (Rule.patterns rules)).Stocks rules :=
  fun _ hmem => (hcache.contains_filled (Rule.compiles_of_readable hrules)).mpr (.inr hmem)

namespace Lexer

open PatternEngine

variable {lexer : Lexer} {rules : List Rule} {cache other after : PatternCache α}

section New

theorem findSome?_fault?_eq_none :
    (Rule.patterns rules).findSome? (fault? α) = none ↔ Readable α rules := by
  simp only [List.findSome?_eq_none_iff, Rule.patterns, List.forall_mem_map, Readable,
    ← compiles_iff, compiles, Option.isNone_iff_eq_none]

-- Whether a lexer can be made is a matter of its rules alone.
theorem new_eq (source file : String) (rules : List Rule) (hcache : cache.Sound) :
    Lexer.new source file rules cache =
      (cache.filled (Rule.patterns rules),
        match (Rule.patterns rules).findSome? (fault? α) with
        | none => .ok (start source file rules)
        | some fault => .error fault) := by
  have hall := hcache.compileAll_eq (Rule.patterns rules)
  unfold Lexer.new
  rw [show rules.map (·.pattern) = Rule.patterns rules from rfl, hall]
  cases (Rule.patterns rules).findSome? (fault? α) <;> rfl

end New

section Work

-- A lexer that finds all its patterns adds none.
theorem firstMatch?_keeps {source : List Char} {position : Nat}
    {taken? : Option (Rule × List Char)} (hstocks : cache.Stocks rules)
    (h : firstMatch? source position cache rules = .ok (taken?, after)) : after = cache := by
  induction rules with
  | nil => exact (Prod.mk.inj (Except.ok.inj h)).2.symm
  | cons rule rules ih =>
    obtain ⟨hrule, hrules⟩ := List.forall_mem_cons.mp hstocks
    obtain ⟨pattern, hget⟩ := Option.isSome_iff_exists.mp hrule
    have hmatch : cache.matchText? rule.pattern source position =
        .ok (PatternEngine.matchText? pattern source position, cache) := by
      simp [PatternCache.matchText?, PatternCache.compile_of_get? hget, bind, Except.bind, pure,
        Except.pure]
    simp only [firstMatch?, hmatch, bind, Except.bind] at h
    generalize PatternEngine.matchText? pattern source position = text? at h
    rcases text? with _ | _ | _
    · exact ih hrules h
    · exact ih hrules h
    · exact (Prod.mk.inj (Except.ok.inj h)).2.symm

theorem next_keeps {result : Option Token × Nat} (hstocks : cache.Stocks lexer.rules)
    (h : lexer.next cache = .ok (result, after)) : after = cache := by
  simp only [Lexer.next] at h
  split at h
  · cases h
  · next hfirst =>
    obtain ⟨-, rfl⟩ := Prod.mk.inj (Except.ok.inj h)
    exact firstMatch?_keeps hstocks hfirst
  · next hfirst =>
    split at h
    · obtain ⟨-, rfl⟩ := Prod.mk.inj (Except.ok.inj h)
      exact firstMatch?_keeps hstocks hfirst
    · cases h

theorem tokensFrom_keeps {bound : Nat} {result : List Token × Lexer}
    (hstocks : cache.Stocks lexer.rules) (h : tokensFrom bound lexer cache = .ok (result, after)) :
    after = cache := by
  induction bound generalizing lexer result after with
  | zero => exact (Prod.mk.inj (Except.ok.inj h)).2.symm
  | succ bound ih =>
    rw [tokensFrom] at h
    split at h
    · obtain ⟨⟨⟨token?, length⟩, tried⟩, hnext, hbehind⟩ := exists_of_bind_eq_ok h
      obtain ⟨⟨rest, filled⟩, hrest, hresult⟩ := exists_of_bind_eq_ok hbehind
      obtain rfl := next_keeps hstocks hnext
      have hadvance : tried.Stocks (lexer.advance length).rules := hstocks
      obtain ⟨-, rfl⟩ := Prod.mk.inj (Except.ok.inj hresult)
      exact ih hadvance hrest
    · exact (Prod.mk.inj (Except.ok.inj h)).2.symm

theorem tokenize_keeps {final : Lexer} (hstocks : cache.Stocks lexer.rules)
    (h : lexer.tokenize cache = .ok (final, after)) : after = cache := by
  have hrestart : cache.Stocks lexer.restart.rules := hstocks
  obtain ⟨⟨result, filled⟩, hrun, hresult⟩ := exists_of_bind_eq_ok h
  obtain ⟨-, rfl⟩ := Prod.mk.inj (Except.ok.inj hresult)
  exact tokensFrom_keeps hrestart hrun

-- The only thing that can be wrong with a step is that there is nothing left.
theorem eq_pastEnd_of_next {fault : Fault} (hcache : cache.Sound) (hrules : Readable α lexer.rules)
    (h : lexer.next cache = .error fault) : fault = .pastEnd := by
  obtain ⟨after, hfirst, -⟩ :=
    exists_firstMatch? lexer.source lexer.position hcache hrules
  simp only [Lexer.next, hfirst] at h
  split at h
  · cases ‹Except.ok _ = Except.error _›
  · cases h
  · split at h
    · cases h
    · exact (Except.error.inj h).symm

end Work

section Outcome

variable (hcache : cache.Sound) (hother : other.Sound) (hrules : Readable α lexer.rules)

include hcache hother hrules

-- The next token does not depend on the cache, nor on whether there is one.
theorem next_congr : (lexer.next cache).map Prod.fst = (lexer.next other).map Prod.fst := by
  obtain ⟨after, hfirst, -⟩ := exists_firstMatch? lexer.source lexer.position hcache hrules
  obtain ⟨after', hfirst', -⟩ := exists_firstMatch? lexer.source lexer.position hother hrules
  unfold Lexer.next
  simp only [hfirst, hfirst']
  rcases firstTaken? α lexer.rules lexer.source lexer.position with _ | ⟨rule, text⟩
  · dsimp only
    split <;> rfl
  · rfl

theorem tokenize_congr :
    (lexer.tokenize cache).map Prod.fst = (lexer.tokenize other).map Prod.fst := by
  obtain ⟨segments, after, hcuts, htokenize, -⟩ := exists_tokenize lexer hcache hrules
  obtain ⟨segments', after', hcuts', htokenize', -⟩ := exists_tokenize lexer hother hrules
  obtain rfl := hcuts.unique hcuts'
  rw [htokenize, htokenize']
  rfl

end Outcome

end Lexer

-- What comes of a source is what comes of it with a cache of its own, and the cache
-- gets the patterns of the language.
theorem tokenizeWith_eq (source file : String) {cache : PatternCache α} (hcache : cache.Sound) :
    tokenizeWith source file cache =
      (cache.filled (Rule.patterns Rule.defaults),
        (tokenizeWith source file (.empty : PatternCache α)).2) := by
  have hempty : (PatternCache.empty : PatternCache α).Sound := PatternCache.sound_empty
  have hnew := Lexer.new_eq source file Rule.defaults hcache
  have hfresh := Lexer.new_eq source file Rule.defaults hempty
  simp only [tokenizeWith, hnew, hfresh]
  cases hfault : (Rule.patterns Rule.defaults).findSome? (PatternEngine.fault? α) with
  | some fault => rfl
  | none =>
    have hrules := Lexer.findSome?_fault?_eq_none.mp hfault
    have hfilled := hcache.filled (Rule.patterns Rule.defaults)
    obtain ⟨segments, after, hcuts, hrun, -⟩ :=
      Lexer.exists_tokenize (.start source file Rule.defaults) hfilled hrules
    obtain ⟨segments', after', hcuts', hrun', -⟩ := Lexer.exists_tokenize
      (.start source file Rule.defaults) (hempty.filled (Rule.patterns Rule.defaults)) hrules
    have hafter : after = cache.filled (Rule.patterns Rule.defaults) :=
      Lexer.tokenize_keeps (PatternCache.stocks_filled hcache hrules) hrun
    obtain rfl := hcuts'.unique hcuts
    simp only [hrun, hrun', hafter]

end ExprLang
