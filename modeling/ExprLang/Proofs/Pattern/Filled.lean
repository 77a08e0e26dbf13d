import ExprLang.Proofs.Pattern.Sound
import Mathlib.Data.Finset.Card
import Mathlib.Data.Finset.Dedup

-- What compiling does to a cache: each text that is compiled comes to be at hand,
-- once, behind what the cache had before. What compiling answers is a matter of
-- the text alone.

namespace ExprLang

namespace PatternEngine

variable (α : Type) [PatternEngine α]

-- What comes of a text that is not compiled.
def fault? (text : String) : Option PatternFault :=
  match ofText α text with
  | .ok _ => none
  | .error fault => some fault

def compiles (text : String) : Bool := (fault? α text).isNone

variable {α} {text : String} {texts : List String} {pattern : α} {fault : PatternFault}

theorem ofText_of_error {reason : CompileFault}
    (h : (compile text : Except CompileFault α) = .error reason) :
    ofText α text = .error (reason.report text) := by
  rw [ofText, h, Except.mapError]

theorem fault?_of_ok (h : ofText α text = .ok pattern) : fault? α text = none := by
  simp only [fault?, h]

theorem fault?_of_error (h : ofText α text = .error fault) :
    fault? α text = some fault := by
  simp only [fault?, h]

theorem compiles_iff : compiles α text = true ↔ ∃ pattern, ofText α text = .ok pattern := by
  unfold compiles
  cases htext : ofText α text with
  | ok pattern => simp [fault?_of_ok htext]
  | error fault => simp [fault?_of_error htext]

theorem all_compiles_iff : texts.all (compiles α) = true ↔ texts.findSome? (fault? α) = none := by
  simp only [List.all_eq_true, List.findSome?_eq_none_iff, compiles, Option.isNone_iff_eq_none]

end PatternEngine

namespace PatternCache

open PatternEngine

variable {α : Type} {cache after : PatternCache α} {text other : String}
  {texts more : List String} {pattern : α} {fault : PatternFault}

-- The texts whose patterns are at hand.
def known (cache : PatternCache α) : List String := cache.entries.map (·.1)

theorem length_known (cache : PatternCache α) : cache.known.length = cache.size := List.length_map _

theorem contains_iff : cache.contains text = true ↔ text ∈ cache.known := by
  simp only [contains, get?, known, List.lookup_isSome_iff, List.mem_map, beq_iff_eq]
  exact exists_congr fun entry => and_congr_right fun _ => eq_comm

variable [PatternEngine α]

-- The cache behind these texts, compiled up to the first that cannot be.
def filled (cache : PatternCache α) (texts : List String) : PatternCache α :=
  (cache.compileAll texts).1

@[simp] theorem filled_nil : cache.filled [] = cache := rfl

theorem filled_of_compile (h : cache.compile text = .ok (pattern, after)) :
    cache.filled (text :: more) = after.filled more := by
  simp only [filled, compileAll, h]

-- Nothing that is at hand changes or goes.
theorem entries_prefix_filled (cache : PatternCache α) (texts : List String) :
    cache.entries <+: (cache.filled texts).entries := by
  induction texts generalizing cache with
  | nil => exact List.prefix_rfl
  | cons text texts ih =>
    cases hcompile : cache.compile text with
    | error fault => simp only [filled, compileAll, hcompile, List.prefix_rfl]
    | ok compiled =>
      obtain ⟨pattern, after⟩ := compiled
      rw [filled_of_compile hcompile]
      exact (entries_prefix_compile hcompile).trans (ih after)

theorem contains_filled_of_contains (h : cache.contains text = true) :
    (cache.filled texts).contains text = true := by
  obtain ⟨rest, hrest⟩ := entries_prefix_filled cache texts
  rw [contains_iff] at h ⊢
  simp only [known, ← hrest, List.map_append, List.mem_append]
  exact .inl h

-- A text that is at hand is found, and one that is not comes last.
theorem known_compile (h : cache.compile text = .ok (pattern, after)) :
    after.known = if text ∈ cache.known then cache.known else cache.known ++ [text] := by
  cases hget : cache.get? text with
  | some found =>
    have hmem : text ∈ cache.known := contains_iff.mp (by simp [contains, hget])
    rw [compile_of_get? hget] at h
    obtain ⟨-, rfl⟩ := Prod.mk.inj (Except.ok.inj h)
    rw [if_pos hmem]
  | none =>
    have hmem : text ∉ cache.known := fun hmem => by
      have hcontains := contains_iff.mpr hmem
      simp [contains, hget] at hcontains
    rw [if_neg hmem]
    cases hread : ofText α text with
    | error fault => simp [compile, hget, hread, bind, Except.bind] at h
    | ok read =>
      simp only [compile, hget, hread, bind, Except.bind, pure, Except.pure] at h
      obtain ⟨-, rfl⟩ := Prod.mk.inj (Except.ok.inj h)
      exact List.map_append

theorem nodup_filled (h : cache.known.Nodup) (texts : List String) :
    (cache.filled texts).known.Nodup := by
  induction texts generalizing cache with
  | nil => exact h
  | cons text texts ih =>
    cases hcompile : cache.compile text with
    | error fault => simpa only [filled, compileAll, hcompile] using h
    | ok compiled =>
      obtain ⟨pattern, after⟩ := compiled
      rw [filled_of_compile hcompile]
      refine ih ?_
      rw [known_compile hcompile]
      split
      · exact h
      · next hnew =>
        refine List.nodup_append.mpr ⟨h, List.nodup_singleton text, ?_⟩
        rintro other hother last hlast rfl
        exact hnew (List.mem_singleton.mp hlast ▸ hother)

namespace Sound

section Compile

variable (h : cache.Sound)

include h

theorem filled (texts : List String) : (cache.filled texts).Sound := (h.compileAll texts).1

-- Compiling answers with what reading gives, whatever is at hand.
theorem compile_eq (text : String) :
    cache.compile text =
      (ofText α text).map fun pattern => (pattern, cache.filled [text]) := by
  cases hread : ofText α text with
  | ok pattern =>
    obtain ⟨after, hcompile, -⟩ := h.exists_compile hread
    rw [hcompile, filled_of_compile hcompile]
    rfl
  | error fault =>
    cases hget : cache.get? text with
    | some found => cases hread.symm.trans (h.ofText_of_get? hget)
    | none => simp [compile, hget, hread, bind, Except.bind, Except.map]

theorem filled_of_error (hread : ofText α text = .error fault) :
    cache.filled (text :: more) = cache := by
  have hcompile := h.compile_eq text
  rw [hread] at hcompile
  simp only [PatternCache.filled, PatternCache.compileAll, hcompile, Except.map]

theorem filled_cons (hread : ofText α text = .ok pattern) (more : List String) :
    cache.filled (text :: more) = (cache.filled [text]).filled more := by
  have hcompile := h.compile_eq text
  rw [hread] at hcompile
  exact filled_of_compile hcompile

theorem matchText?_eq (text : String) (subject : List Char) (position : Nat) :
    cache.matchText? text subject position = (ofText α text).map fun pattern =>
      (PatternEngine.matchText? pattern subject position, cache.filled [text]) := by
  rw [PatternCache.matchText?, h.compile_eq]
  cases ofText α text <;> rfl

end Compile

section Texts

-- The first text that is not compiled is what is reported.
theorem compileAll_eq (h : cache.Sound) (texts : List String) :
    cache.compileAll texts = (cache.filled texts, texts.findSome? (fault? α)) := by
  refine Prod.ext rfl ?_
  induction texts generalizing cache with
  | nil => rfl
  | cons text texts ih =>
    rw [PatternCache.compileAll, h.compile_eq]
    cases hread : ofText α text with
    | ok pattern =>
      rw [List.findSome?_cons, fault?_of_ok hread]
      exact ih (h.filled [text])
    | error fault =>
      rw [List.findSome?_cons, fault?_of_error hread]
      rfl

theorem filled_append (h : cache.Sound) (hcompiles : ∀ text ∈ texts, compiles α text = true) :
    cache.filled (texts ++ more) = (cache.filled texts).filled more := by
  induction texts generalizing cache with
  | nil => rfl
  | cons text texts ih =>
    obtain ⟨hread, hcompiles⟩ := List.forall_mem_cons.mp hcompiles
    obtain ⟨pattern, hpattern⟩ := compiles_iff.mp hread
    rw [List.cons_append, h.filled_cons hpattern (texts ++ more), h.filled_cons hpattern texts]
    exact ih (h.filled [text]) hcompiles

-- Only the texts before the first that is not compiled count.
theorem filled_takeWhile (h : cache.Sound) (texts : List String) :
    cache.filled (texts.takeWhile (compiles α)) = cache.filled texts := by
  induction texts generalizing cache with
  | nil => rfl
  | cons text texts ih =>
    cases hread : ofText α text with
    | ok pattern =>
      rw [List.takeWhile_cons_of_pos (compiles_iff.mpr ⟨pattern, hread⟩),
        h.filled_cons hread (texts.takeWhile (compiles α)), h.filled_cons hread texts]
      exact ih (h.filled [text])
    | error fault =>
      have hcompiles : ¬ compiles α text = true := by
        simp [compiles, fault?_of_error hread]
      rw [List.takeWhile_cons_of_neg hcompiles, h.filled_of_error hread, filled_nil]

theorem contains_filled (h : cache.Sound) (hcompiles : ∀ text ∈ texts, compiles α text = true) :
    (cache.filled texts).contains other = true ↔
      cache.contains other = true ∨ other ∈ texts := by
  induction texts generalizing cache with
  | nil => simp
  | cons text texts ih =>
    obtain ⟨hread, hcompiles⟩ := List.forall_mem_cons.mp hcompiles
    obtain ⟨pattern, hpattern⟩ := compiles_iff.mp hread
    have hcompile := h.compile_eq text
    rw [hpattern] at hcompile
    have hone : (cache.filled [text]).contains other = true ↔
        cache.contains other = true ∨ other = text := by
      simp only [contains_iff, known_compile hcompile]
      split
      · exact ⟨.inl, fun hother => hother.elim id fun heq => heq ▸ ‹_›⟩
      · simp
    rw [h.filled_cons hpattern texts, ih (h.filled [text]) hcompiles, hone, List.mem_cons, or_assoc]

-- A cache that has begun empty holds each text that it was given once.
theorem size_filled_empty (hcompiles : ∀ text ∈ texts, compiles α text = true) :
    ((empty : PatternCache α).filled texts).size = texts.toFinset.card := by
  have hempty : (empty : PatternCache α).known.Nodup := List.nodup_nil
  have hnodup := nodup_filled hempty texts
  have hsame : ((empty : PatternCache α).filled texts).known.toFinset = texts.toFinset := by
    ext text
    rw [List.mem_toFinset, List.mem_toFinset, ← contains_iff,
      sound_empty.contains_filled hcompiles]
    exact or_iff_right (by simp [contains, get?, empty])
  rw [← length_known, ← List.toFinset_card_of_nodup hnodup, hsame]

end Texts

end Sound

end PatternCache

end ExprLang
