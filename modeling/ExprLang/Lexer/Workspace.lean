import ExprLang.Lexer.Basic

-- Many lexers and caches at work side by side, some of them sharing.

namespace ExprLang

-- Every cache has a number, which a name may come to refer to. A lexer holds
-- on to the number of its cache, also when the name is given to another one.
structure Workspace (α : Type) where
  caches : List (PatternCache α)
  cacheNames : List (String × Nat)
  lexers : List (String × Lexer × Nat)

namespace Workspace

def empty {α : Type} : Workspace α := ⟨[], [], []⟩

inductive Command where
  | newCache (name : String) (patterns : List String)
  | compile (cache pattern : String)
  | matchText (cache pattern subject : String) (position : Nat)
  | contains (cache pattern : String)
  -- Without a cache to share the lexer gets one of its own.
  | newLexer (name source file : String) (rules : List Rule) (cache? : Option String)
  | tokenizeText (cache source : String)
  | tokenize (lexer : String)
  | next (lexer : String)
  | advance (lexer : String) (count : Nat)
  | inspect (lexer : String)
deriving DecidableEq

-- Sizes are those of the cache concerned after the command.
inductive Answer where
  | size (size : Nat)
  | compiled (cachedBefore : Bool) (size : Nat)
  | matched (text? : Option String) (size : Nat)
  | contained (isMember : Bool) (size : Nat)
  | created (lexer : Lexer) (size : Nat)
  | tokens (tokens : List Token) (size : Nat)
  | tokenized (lexer : Lexer)
  | next (token? : Option Token) (length : Nat) (lexer : Lexer)
  | lexer (lexer : Lexer)
  | badPattern (fault : PatternFault)
  -- A shared cache keeps what it got from a lexer that could not be made.
  | badRule (fault : PatternFault) (size? : Option Nat)
  | pastEnd
  | unknownName
deriving DecidableEq

def assign {α : Type} (entries : List (String × α)) (name : String) (value : α) :
    List (String × α) :=
  (name, value) :: entries.filter fun entry => entry.1 ≠ name

variable {α : Type}

def cache? (w : Workspace α) (name : String) : Option (Nat × PatternCache α) := do
  let number ← w.cacheNames.lookup name
  return (number, ← w.caches[number]?)

def lexer? (w : Workspace α) (name : String) : Option (Lexer × Nat × PatternCache α) := do
  let (lexer, number) ← w.lexers.lookup name
  return (lexer, number, ← w.caches[number]?)

def setCache (w : Workspace α) (number : Nat) (cache : PatternCache α) : Workspace α :=
  { w with caches := w.caches.set number cache }

def setLexer (w : Workspace α) (name : String) (lexer : Lexer) (number : Nat) : Workspace α :=
  { w with lexers := assign w.lexers name (lexer, number) }

def addCache (w : Workspace α) (cache : PatternCache α) : Workspace α × Nat :=
  ({ w with caches := w.caches ++ [cache] }, w.caches.length)

def faultAnswer : Lexer.Fault → Answer
  | .badPattern fault => .badPattern fault
  | .pastEnd => .pastEnd

-- Does something with a named cache.
def withCache (w : Workspace α) (name : String)
    (act : PatternCache α → PatternCache α × Answer) : Workspace α × Answer :=
  match w.cache? name with
  | none => (w, .unknownName)
  | some (number, cache) =>
    let (cache, answer) := act cache
    (w.setCache number cache, answer)

-- Does something with a named lexer and the cache it uses. A failure leaves
-- both as they were.
def withLexer (w : Workspace α) (name : String)
    (act : Lexer → PatternCache α → Except Lexer.Fault ((Lexer × Answer) × PatternCache α)) :
    Workspace α × Answer :=
  match w.lexer? name with
  | none => (w, .unknownName)
  | some (lexer, number, cache) =>
    match act lexer cache with
    | .error fault => (w, faultAnswer fault)
    | .ok ((lexer, answer), cache) =>
      ((w.setCache number cache).setLexer name lexer number, answer)

variable [PatternEngine α]

def newCache (w : Workspace α) (name : String) (patterns : List String) :
    Workspace α × Answer :=
  match (PatternCache.empty : PatternCache α).compileAll patterns with
  | (_, some fault) => (w, .badPattern fault)
  | (cache, none) =>
    let (w, number) := w.addCache cache
    ({ w with cacheNames := assign w.cacheNames name number }, .size cache.size)

def newLexer (w : Workspace α) (name source file : String) (rules : List Rule)
    (cache? : Option String) : Workspace α × Answer :=
  let (w, place?) := match cache? with
    | some cache => (w, w.cache? cache)
    | none =>
      let (w, number) := w.addCache .empty
      (w, some (number, .empty))
  match place? with
  | none => (w, .unknownName)
  | some (number, cache) =>
    match Lexer.new source file rules cache with
    | (cache, .ok lexer) =>
      ((w.setCache number cache).setLexer name lexer number, .created lexer cache.size)
    | (cache, .error fault) =>
      (w.setCache number cache, .badRule fault (cache?.map fun _ => cache.size))

def step (w : Workspace α) : Command → Workspace α × Answer
  | .newCache name patterns => w.newCache name patterns
  | .compile cache pattern =>
    w.withCache cache fun cache =>
      match cache.compile pattern with
      | .error fault => (cache, .badPattern fault)
      | .ok (_, after) => (after, .compiled (cache.contains pattern) after.size)
  | .matchText cache pattern subject position =>
    w.withCache cache fun cache =>
      match cache.matchText? pattern subject.toList position with
      | .error fault => (cache, .badPattern fault)
      | .ok (text?, after) => (after, .matched (text?.map String.ofList) after.size)
  | .contains cache pattern =>
    w.withCache cache fun cache => (cache, .contained (cache.contains pattern) cache.size)
  | .newLexer name source file rules cache? => w.newLexer name source file rules cache?
  | .tokenizeText cache source =>
    w.withCache cache fun cache =>
      match tokenizeWith source "<string>" cache with
      | (cache, .error fault) => (cache, faultAnswer fault)
      | (cache, .ok tokens) => (cache, .tokens tokens cache.size)
  | .tokenize name =>
    w.withLexer name fun lexer cache => do
      let (lexer, cache) ← lexer.tokenize cache
      return ((lexer, .tokenized lexer), cache)
  | .next name =>
    w.withLexer name fun lexer cache => do
      let ((token?, length), cache) ← lexer.next cache
      return ((lexer, .next token? length lexer), cache)
  | .advance name count =>
    w.withLexer name fun lexer cache =>
      let lexer := lexer.advance count
      .ok ((lexer, .lexer lexer), cache)
  | .inspect name => w.withLexer name fun lexer cache => .ok ((lexer, .lexer lexer), cache)

def run (w : Workspace α) : List Command → Workspace α × List Answer
  | [] => (w, [])
  | command :: rest =>
    let (w, answer) := w.step command
    let (w, answers) := w.run rest
    (w, answer :: answers)

end Workspace

end ExprLang
