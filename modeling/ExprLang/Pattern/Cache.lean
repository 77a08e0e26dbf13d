import ExprLang.Pattern.Engine

-- Patterns that have been compiled once and need not be compiled again.

namespace ExprLang

-- In the order in which they came. No entry ever changes or goes.
structure PatternCache (α : Type) where
  entries : List (String × α)
deriving DecidableEq

namespace PatternCache

variable {α : Type}

def empty : PatternCache α := ⟨[]⟩

instance : Inhabited (PatternCache α) := ⟨empty⟩

def size (cache : PatternCache α) : Nat := cache.entries.length

def get? (cache : PatternCache α) (text : String) : Option α := cache.entries.lookup text

def contains (cache : PatternCache α) (text : String) : Bool := (cache.get? text).isSome

variable [PatternEngine α]

-- A text that is not compiled leaves nothing behind.
def compile (cache : PatternCache α) (text : String) :
    Except PatternFault (α × PatternCache α) :=
  match cache.get? text with
  | some pattern => .ok (pattern, cache)
  | none => do
    let pattern ← PatternEngine.ofText α text
    return (pattern, ⟨cache.entries ++ [(text, pattern)]⟩)

-- What has been compiled once is at hand.
theorem compile_of_get? {cache : PatternCache α} {text : String} {pattern : α}
    (h : cache.get? text = some pattern) : cache.compile text = .ok (pattern, cache) := by
  simp [compile, h]

-- Entries are only ever added, at the end.
theorem entries_prefix_compile {cache after : PatternCache α} {text : String} {pattern : α}
    (h : cache.compile text = .ok (pattern, after)) : cache.entries <+: after.entries := by
  unfold compile at h
  split at h
  · simp only [Except.ok.injEq, Prod.mk.injEq] at h
    exact h.2 ▸ List.prefix_rfl
  · cases hp : PatternEngine.ofText α text with
    | error e => simp [hp, bind, Except.bind] at h
    | ok p =>
      simp only [hp, bind, Except.bind, pure, Except.pure, Except.ok.injEq, Prod.mk.injEq] at h
      exact h.2 ▸ List.prefix_append _ _

-- Stops at the first text that is not compiled and keeps those before it.
def compileAll (cache : PatternCache α) : List String → PatternCache α × Option PatternFault
  | [] => (cache, none)
  | text :: rest =>
    match cache.compile text with
    | .ok (_, cache) => cache.compileAll rest
    | .error e => (cache, some e)

def matchText? (cache : PatternCache α) (text : String) (subject : List Char) (position : Nat) :
    Except PatternFault (Option (List Char) × PatternCache α) := do
  let (pattern, cache) ← cache.compile text
  return (PatternEngine.matchText? pattern subject position, cache)

end PatternCache

end ExprLang
