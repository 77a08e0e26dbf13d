import ExprLang.Pattern.Cache

-- Caches that have only been filled by compiling patterns. What such a cache
-- answers is what compiling the pattern anew would.

namespace ExprLang.PatternCache

open PatternEngine

variable {α : Type} [PatternEngine α] {cache after : PatternCache α} {text : String} {pattern : α}

def Sound (cache : PatternCache α) : Prop :=
  ∀ entry ∈ cache.entries, ofText α entry.1 = .ok entry.2

theorem sound_empty : (empty : PatternCache α).Sound := by simp [Sound, empty]

theorem Sound.ofText_of_get? (h : cache.Sound) (hget : cache.get? text = some pattern) :
    ofText α text = .ok pattern := by
  obtain ⟨before, rest, hentries, -⟩ := List.lookup_eq_some_iff.mp hget
  exact h (text, pattern) (by simp [hentries])

-- Compiling through a cache compiles the text, or finds what has been made of it.
theorem Sound.exists_compile (h : cache.Sound) (hread : ofText α text = .ok pattern) :
    ∃ after, cache.compile text = .ok (pattern, after) ∧ after.Sound := by
  cases hget : cache.get? text with
  | some known =>
    have hknown := h.ofText_of_get? hget
    obtain rfl := Except.ok.inj (hknown.symm.trans hread)
    exact ⟨cache, compile_of_get? hget, h⟩
  | none =>
    refine ⟨⟨cache.entries ++ [(text, pattern)]⟩, ?_, ?_⟩
    · simp [compile, hget, hread, bind, Except.bind, pure, Except.pure]
    · intro entry hentry
      rcases List.mem_append.mp hentry with hold | hnew
      · exact h entry hold
      · rw [List.mem_singleton.mp hnew]
        exact hread

theorem Sound.exists_compileAll (h : cache.Sound) {texts : List String}
    (hread : ∀ text ∈ texts, ∃ pattern, ofText α text = .ok pattern) :
    ∃ after, cache.compileAll texts = (after, none) ∧ after.Sound := by
  induction texts generalizing cache with
  | nil => exact ⟨cache, rfl, h⟩
  | cons text texts ih =>
    obtain ⟨pattern, hpattern⟩ := hread text (by simp)
    obtain ⟨filled, hcompile, hfilled⟩ := h.exists_compile hpattern
    obtain ⟨after, hall, hafter⟩ := ih hfilled fun other hother => hread other (by simp [hother])
    exact ⟨after, by simp [compileAll, hcompile, hall], hafter⟩

theorem Sound.exists_matchText? (h : cache.Sound) (hread : ofText α text = .ok pattern)
    (subject : List Char) (position : Nat) :
    ∃ after, cache.matchText? text subject position =
      .ok (PatternEngine.matchText? pattern subject position, after) ∧ after.Sound := by
  obtain ⟨after, hcompile, hafter⟩ := h.exists_compile hread
  refine ⟨after, ?_, hafter⟩
  simp [PatternCache.matchText?, hcompile, bind, Except.bind, pure, Except.pure]

theorem Sound.of_compile (h : cache.Sound)
    (hcompile : cache.compile text = .ok (pattern, after)) :
    ofText α text = .ok pattern ∧ after.Sound := by
  cases hread : ofText α text with
  | ok read =>
    obtain ⟨other, hother, hsound⟩ := h.exists_compile hread
    cases hcompile.symm.trans hother
    exact ⟨rfl, hsound⟩
  | error fault =>
    cases hget : cache.get? text with
    | some known => cases hread.symm.trans (h.ofText_of_get? hget)
    | none => simp [compile, hget, hread, bind, Except.bind] at hcompile

theorem Sound.compileAll (h : cache.Sound) (texts : List String) :
    (cache.compileAll texts).1.Sound ∧ ((cache.compileAll texts).2 = none →
      ∀ text ∈ texts, ∃ pattern, ofText α text = .ok pattern) := by
  induction texts generalizing cache with
  | nil => exact ⟨h, by simp⟩
  | cons text texts ih =>
    rw [PatternCache.compileAll]
    cases hcompile : cache.compile text with
    | error fault => exact ⟨h, by simp⟩
    | ok compiled =>
      obtain ⟨pattern, filled⟩ := compiled
      obtain ⟨hread, hfilled⟩ := h.of_compile hcompile
      obtain ⟨hsound, hall⟩ := ih hfilled
      exact ⟨hsound, fun hnone => List.forall_mem_cons.mpr ⟨⟨pattern, hread⟩, hall hnone⟩⟩

theorem Sound.of_matchText? {subject : List Char} {position : Nat} {text? : Option (List Char)}
    (h : cache.Sound) (hmatch : cache.matchText? text subject position = .ok (text?, after)) :
    after.Sound := by
  cases hcompile : cache.compile text with
  | error fault => simp [PatternCache.matchText?, hcompile, bind, Except.bind] at hmatch
  | ok compiled =>
    obtain ⟨pattern, filled⟩ := compiled
    simp only [PatternCache.matchText?, hcompile, bind, Except.bind, pure, Except.pure,
      Except.ok.injEq, Prod.mk.injEq] at hmatch
    exact hmatch.2 ▸ (h.of_compile hcompile).2

end ExprLang.PatternCache
