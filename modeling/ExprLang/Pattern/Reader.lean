import ExprLang.Pattern.Engine
import ExprLang.Pattern.Match

-- Patterns from their texts.

namespace ExprLang.Pattern

-- What can be wrong with a pattern.
inductive Fault where
  | unclosedGroup
  | unopenedGroup
  | unclosedSet
  | nothingToRepeat
  | repeatedTwice
  | reversedBounds
  | badRange (first last : String)
  | badEscape (escape : String)
  | shortEscape (escape : String)
  | octalTooLarge (escape : String)
  | escapeAtEnd
  | endOfPattern
  | unknownGroup (mark : String)
  | missingName
  | unclosedName
  | badName (name : String)
  | nameTaken (name : String) (group earlier : Nat)
deriving DecidableEq

def Fault.text : Fault → String
  | unclosedGroup => "missing ), unterminated subpattern"
  | unopenedGroup => "unbalanced parenthesis"
  | unclosedSet => "unterminated character set"
  | nothingToRepeat => "nothing to repeat"
  | repeatedTwice => "multiple repeat"
  | reversedBounds => "min repeat greater than max repeat"
  | badRange first last => "bad character range " ++ first ++ "-" ++ last
  | badEscape escape => "bad escape " ++ escape
  | shortEscape escape => "incomplete escape " ++ escape
  | octalTooLarge escape => "octal escape value " ++ escape ++ " outside of range 0-0o377"
  | escapeAtEnd => "bad escape (end of pattern)"
  | endOfPattern => "unexpected end of pattern"
  | unknownGroup mark => "unknown extension ?" ++ mark
  | missingName => "missing group name"
  | unclosedName => "missing >, unterminated name"
  | badName name => "bad character in group name " ++ Text.quoted name
  | nameTaken name group earlier =>
    "redefinition of group name " ++ Text.quoted name ++ " as group " ++ toString group ++
      "; was group " ++ toString earlier

-- Why a text is not read to its end. What is not supported are anchors other than
-- those for start and end, lazy and possessive quantifiers, characters by name,
-- references to groups, groups with a question mark other than plain ones and those
-- with a name, and names beyond ASCII.
inductive Stop where
  | fault (fault : Fault) (position : Nat)
  | numberTooLarge
  | numberTooLong
  | unsupported
deriving DecidableEq

-- A pattern of several lines has its line and column told as well.
def placeText (pattern : String) (position : Nat) : String :=
  let before := pattern.toList.take position
  let place := if pattern.toList.contains '\n' then
      " (line " ++ toString (before.count '\n' + 1) ++ ", column " ++
        toString ((before.reverse.takeWhile (· ≠ '\n')).length + 1) ++ ")"
    else ""
  " at position " ++ toString position ++ place

def Stop.report (pattern : String) : Stop → CompileFault
  | fault what position => .malformed (what.text ++ placeText pattern position)
  | numberTooLarge => .raised "OverflowError"
  | numberTooLong => .raised "ValueError"
  | unsupported => .raised "NotImplementedError"

-- A character of the pattern, or one behind a backslash. A backslash with
-- nothing behind it is cut off.
inductive Mark where
  | plain (c : Char)
  | escaped (c : Char)
  | cut
deriving DecidableEq

def Mark.text : Mark → String
  | plain c => String.singleton c
  | escaped c => String.ofList ['\\', c]
  | cut => "\\"

-- The marks of a text, each with its position.
def marks (position : Nat) : List Char → List (Nat × Mark)
  | [] => []
  | ['\\'] => [(position, .cut)]
  | '\\' :: c :: rest => (position, .escaped c) :: marks (position + 2) rest
  | c :: rest => (position, .plain c) :: marks (position + 1) rest

def digit? (base : Nat) (c : Char) : Option Nat :=
  let value? :=
    if c.isDigit then some (c.toNat - '0'.toNat)
    else if 'a' ≤ c ∧ c ≤ 'f' then some (c.toNat - 'a'.toNat + 10)
    else if 'A' ≤ c ∧ c ≤ 'F' then some (c.toNat - 'A'.toNat + 10)
    else none
  value?.filter (· < base)

def numberOf (base : Nat) (digits : List Char) : Nat :=
  (digits.filterMap (digit? base)).foldl (fun number digit => number * base + digit) 0

-- What a mark says. Some escapes name a character by the number behind them.
inductive Meaning where
  | code (code : Nat)
  | ranges (ranges : Text.Ranges)
  | numbered (head : Char)
  | unsupported
  | nothing

-- Letters behind a backslash have a meaning of their own or none at all, and so
-- have digits; every other character stands for itself.
private def escapeMeaning (inSet : Bool) (c : Char) : Meaning :=
  match c with
  | 'a' => .code 0x07
  | 'f' => .code 0x0C
  | 'n' => .code 0x0A
  | 'r' => .code 0x0D
  | 't' => .code 0x09
  | 'v' => .code 0x0B
  | 'd' => .ranges CharSet.digits
  | 'D' => .ranges (Text.Ranges.gaps 0 CharSet.digits)
  | 's' => .ranges CharSet.blanks
  | 'S' => .ranges (Text.Ranges.gaps 0 CharSet.blanks)
  | 'w' => .ranges CharSet.wordCharacters
  | 'W' => .ranges (Text.Ranges.gaps 0 CharSet.wordCharacters)
  | 'x' | 'u' | 'U' => .numbered c
  | 'N' => .unsupported
  | 'b' => if inSet then .code 0x08 else .unsupported
  | 'A' | 'B' | 'Z' => if inSet then .nothing else .unsupported
  | '8' | '9' => if inSet then .nothing else .unsupported
  | c => if c.isDigit then .numbered c else if c.isAlpha then .nothing else .code c.toNat

def Mark.meaning (inSet : Bool) : Mark → Meaning
  | plain c => .code c.toNat
  | escaped c => escapeMeaning inSet c
  | cut => .nothing

-- An escape that names a character by its number, and the digits that have come.
structure Numbered where
  start : Nat
  head : Char
  digits : List Char

namespace Numbered

-- The first digit of an octal number is what the escape begins with.
def base (n : Numbered) : Nat := if n.head.isDigit then 8 else 16

def width (n : Numbered) : Nat :=
  match n.head with
  | 'u' => 4
  | 'U' => 8
  | _ => 2

def text (n : Numbered) : String := String.ofList ('\\' :: n.head :: n.digits)

def code (n : Numbered) : Nat :=
  numberOf n.base (if n.head.isDigit then n.head :: n.digits else n.digits)

def goesOn (n : Numbered) : Option Mark → Bool
  | some (.plain c) => (digit? n.base c).isSome
  | _ => false

-- Digits of an octal number may be missing where it is no reference to a group.
def finish (n : Numbered) (inSet : Bool) : Except Stop Nat :=
  let isShort := n.digits.length < n.width
  if n.head.isDigit then
    if isShort ∧ ¬ inSet ∧ n.head ≠ '0' then .error .unsupported
    else if 0o377 < n.code then .error (.fault (.octalTooLarge n.text) n.start)
    else .ok n.code
  else if isShort then .error (.fault (.shortEscape n.text) n.start)
  else if 0x7FFFFFFF < n.code then .error .numberTooLarge
  else if 0x10FFFF < n.code then .error (.fault (.badEscape n.text) n.start)
  else .ok n.code

end Numbered

-- What has come of the bounds of a repetition behind their opening brace.
structure Bounds where
  start : Nat
  least : List Char
  most? : Option (List Char)

namespace Bounds

-- Braces with nothing between them are no bounds.
def goesOn (b : Bounds) : Option Mark → Bool
  | some (.plain ',') => b.most?.isNone
  | some (.plain '}') => b.least ≠ [] || b.most?.isSome
  | some (.plain c) => c.isDigit
  | _ => false

-- What is not closed as bounds stands for itself.
def literals (b : Bounds) : List Char :=
  '{' :: b.least ++ (b.most?.map (',' :: ·)).getD []

private def bound (digits : List Char) : Except Stop Nat :=
  if 4300 < digits.length then .error .numberTooLong
  else if 4294967295 ≤ numberOf 10 digits then .error .numberTooLarge
  else .ok (numberOf 10 digits)

def finish (b : Bounds) : Except Stop (Nat × Option Nat) := do
  let least ← bound b.least
  let most? ← match b.most? with
    | none => pure (some least)
    | some [] => pure none
    | some digits => some <$> bound digits
  if most?.any (· < least) then throw (.fault .reversedBounds (b.start + 1))
  return (least, most?)

end Bounds

-- Only a plain item may take a quantifier.
inductive ItemKind where
  | plain
  | anchor
  | repeated
deriving DecidableEq

structure Item where
  pattern : Pattern
  kind : ItemKind

-- The alternatives of a group that are complete, and the items of the one that
-- is not, both last first.
structure Group where
  branches : List Pattern
  items : List Item

namespace Group

def new : Group := ⟨[], []⟩

def push (g : Group) (pattern : Pattern) (kind : ItemKind) : Group :=
  { g with items := ⟨pattern, kind⟩ :: g.items }

def endBranch (g : Group) : Group :=
  ⟨sequenceOf (g.items.reverse.map (·.pattern)) :: g.branches, []⟩

def pattern (g : Group) : Pattern := choiceOf g.endBranch.branches.reverse

def endsRepeated (g : Group) : Bool := g.items.head?.any (·.kind = .repeated)

-- Puts a quantifier on the last item.
def quantify (g : Group) (quantifier : Pattern → Pattern) : Except Fault Group :=
  match g.items with
  | [] => .error .nothingToRepeat
  | item :: items =>
    match item.kind with
    | .anchor => .error .nothingToRepeat
    | .repeated => .error .repeatedTwice
    | .plain => .ok { g with items := ⟨quantifier item.pattern, .repeated⟩ :: items }

end Group

-- An element of a set, and the mark with which it begins.
structure Element where
  text : String
  ranges : Text.Ranges
  code? : Option Nat

-- The last element of a set may turn out to start a range.
inductive Pending where
  | nothing
  | element (element : Element)
  | range (first : Element)

-- What is pending if nothing more comes of it. A hyphen with nothing behind it is
-- itself.
def Pending.ranges : Pending → Text.Ranges
  | nothing => []
  | element e => e.ranges
  | range first => first.ranges ++ [('-'.toNat, '-'.toNat)]

-- A set of which the closing bracket has not come yet.
structure OpenSet where
  start : Nat
  fresh : Bool
  negated : Bool
  ranges : Text.Ranges
  pending : Pending
  number? : Option Numbered

inductive Mode where
  | items
  -- Behind the parenthesis that opens a group, behind a question mark there, and in
  -- the name that it is given.
  | groupOpened
  | groupMarked (question : Nat) (extension? : Option Char)
  | groupName (start : Nat) (name : List Char)
  | number (n : Numbered)
  | bounds (b : Bounds)
  | set (set : OpenSet)

-- `outer` holds the groups around the innermost one, that one's parenthesis
-- beside the group in which it stands. Groups that could be referred to have
-- numbers, and some of them names.
structure State where
  outer : List (Nat × Group)
  group : Group
  numbered : Nat
  names : List (String × Nat)
  mode : Mode

def State.start : State := ⟨[], .new, 0, [], .items⟩

private def codeSet (code : Nat) : CharSet := ⟨false, [(code, code)]⟩

private def State.push (s : State) (pattern : Pattern) (kind : ItemKind) : State :=
  { s with group := s.group.push pattern kind, mode := .items }

private def State.quantify (s : State) (position : Nat) (quantifier : Pattern → Pattern) :
    Except Stop State :=
  match s.group.quantify quantifier with
  | .ok group => .ok { s with group, mode := .items }
  | .error fault => .error (.fault fault position)

-- Behind a quantifier these would change it.
private def State.quantifyOnce (s : State) (position : Nat) (quantifier : Pattern → Pattern) :
    Except Stop State :=
  if s.group.endsRepeated then .error .unsupported else s.quantify position quantifier

private def State.takeItem (s : State) (position : Nat) (mark : Mark) : Except Stop State :=
  match mark with
  | .plain '(' =>
    .ok { s with outer := (position, s.group) :: s.outer, group := .new, mode := .groupOpened }
  | .plain ')' =>
    match s.outer with
    | [] => .error (.fault .unopenedGroup position)
    | (_, enclosing) :: outer =>
      .ok { s with outer, group := enclosing.push s.group.pattern .plain, mode := .items }
  | .plain '|' => .ok { s with group := s.group.endBranch, mode := .items }
  | .plain '[' => .ok { s with mode := .set ⟨position, true, false, [], .nothing, none⟩ }
  | .plain '*' => s.quantify position star
  | .plain '+' => s.quantifyOnce position plus
  | .plain '?' => s.quantifyOnce position optional
  | .plain '{' => .ok { s with mode := .bounds ⟨position, [], none⟩ }
  | .plain '^' => .ok (s.push .textStart .anchor)
  | .plain '$' => .ok (s.push .textEnd .anchor)
  | .plain '.' => .ok (s.push (.oneOf .notNewline) .plain)
  | mark =>
    match mark.meaning false with
    | .code code => .ok (s.push (.oneOf (codeSet code)) .plain)
    | .ranges ranges => .ok (s.push (.oneOf ⟨false, ranges⟩) .plain)
    | .numbered head => .ok { s with mode := .number ⟨position, head, []⟩ }
    | .unsupported => .error .unsupported
    | .nothing => .error (.fault (.badEscape mark.text) position)

-- A colon makes a plain group without a number. Comments, flags and conditions on
-- what is around are not supported.
private def State.takeGroupMark (s : State) (question : Nat) (extension? : Option Char)
    (mark : Mark) : Except Stop State :=
  let unknown := Stop.fault
    (.unknownGroup ((extension?.map String.singleton).getD "" ++ mark.text)) question
  match extension?, mark with
  | none, .plain ':' => .ok { s with mode := .items }
  | none, .plain 'P' | none, .plain '<' =>
    .ok { s with mode := .groupMarked question (mark.text.toList.head?) }
  | none, .plain c => .error (if "#=!(>-iLmsxatu".toList.contains c then .unsupported else unknown)
  | some 'P', .plain '<' => .ok { s with mode := .groupName (question + 3) [] }
  | some 'P', .plain '=' => .error .unsupported
  | some 'P', .plain _ => .error unknown
  | some _, .plain c => .error (if "=!".toList.contains c then .unsupported else unknown)
  | _, _ => .error unknown

private def isName : List Char → Bool
  | [] => false
  | c :: rest => (c.isAlpha || c = '_') && rest.all fun c => c.isAlphanum || c = '_'

private def State.nameGroup (s : State) (position start : Nat) (name : List Char) :
    Except Stop State :=
  let text := String.ofList name
  let group := s.numbered + 1
  if name = [] then .error (.fault .missingName position)
  else if name.any (0x7F < ·.toNat) then .error .unsupported
  else if ¬ isName name then .error (.fault (.badName text) start)
  else
    match s.names.lookup text with
    | some earlier => .error (.fault (.nameTaken text group earlier) start)
    | none => .ok { s with numbered := group, names := (text, group) :: s.names, mode := .items }

private def State.takeInName (s : State) (start : Nat) (name : List Char) (position : Nat) :
    Mark → Except Stop State
  | .plain '>' => s.nameGroup position start name
  | mark => .ok { s with mode := .groupName start (name ++ mark.text.toList) }

private def State.takeDigit (s : State) (n : Numbered) (c : Char) : Except Stop State := do
  let n := { n with digits := n.digits ++ [c] }
  if n.digits.length < n.width then return { s with mode := .number n }
  return s.push (.oneOf (codeSet (← n.finish false))) .plain

private def State.takeBound (s : State) (b : Bounds) : Char → Except Stop State
  | '}' => do
    let (least, most?) ← b.finish
    s.quantify b.start (.repeated least most?)
  | ',' => .ok { s with mode := .bounds { b with most? := some [] } }
  | c =>
    match b.most? with
    | none => .ok { s with mode := .bounds { b with least := b.least ++ [c] } }
    | some digits => .ok { s with mode := .bounds { b with most? := some (digits ++ [c]) } }

namespace OpenSet

-- An element has come that ends before this position.
private def add (set : OpenSet) (stop : Nat) (e : Element) : Except Stop OpenSet :=
  match set.pending with
  | .range first =>
    let bad := Stop.fault (.badRange first.text e.text)
      (stop - (first.text.length + 1 + e.text.length))
    match first.code?, e.code? with
    | some low, some high =>
      if low ≤ high then
        .ok { set with ranges := set.ranges ++ [(low, high)], pending := .nothing, number? := none }
      else .error bad
    | _, _ => .error bad
  | pending =>
    .ok { set with
      fresh := false, ranges := set.ranges ++ pending.ranges, pending := .element e,
      number? := none }

private def addNumber (set : OpenSet) (stop : Nat) (n : Numbered) : Except Stop OpenSet := do
  let code ← n.finish true
  set.add stop ⟨(Mark.escaped n.head).text, [(code, code)], some code⟩

private def takeDigit (set : OpenSet) (position : Nat) (n : Numbered) (c : Char) :
    Except Stop OpenSet :=
  let n := { n with digits := n.digits ++ [c] }
  if n.digits.length < n.width then .ok { set with number? := some n }
  else set.addNumber (position + 1) n

private def takeElement (set : OpenSet) (position : Nat) (mark : Mark) : Except Stop OpenSet :=
  let stop := position + mark.text.length
  match mark.meaning true with
  | .code code => set.add stop ⟨mark.text, [(code, code)], some code⟩
  | .ranges ranges => set.add stop ⟨mark.text, ranges, none⟩
  | .numbered head => .ok { set with number? := some ⟨position, head, []⟩ }
  | .unsupported => .error .unsupported
  | .nothing => .error (.fault (.badEscape mark.text) position)

end OpenSet

-- The first element may be a closing bracket, and a hyphen at either end is
-- itself.
private def State.takeInSet (s : State) (set : OpenSet) (position : Nat) (mark : Mark) :
    Except Stop State :=
  let goOn (result : Except Stop OpenSet) := result.map fun set => { s with mode := .set set }
  match set.number?, mark, set.pending with
  | some n, .plain c, _ => goOn (set.takeDigit position n c)
  | none, .plain '-', .element first => goOn (.ok { set with pending := .range first })
  | _, mark, _ =>
    if mark = .plain ']' ∧ ¬ set.fresh then
      .ok (s.push (.oneOf ⟨set.negated, set.ranges ++ set.pending.ranges⟩) .plain)
    else if mark = .plain '^' ∧ set.fresh ∧ ¬ set.negated then
      goOn (.ok { set with negated := true })
    else goOn (set.takeElement position mark)

def State.take (s : State) (position : Nat) (mark : Mark) : Except Stop State :=
  match s.mode, mark with
  | .set set, mark => s.takeInSet set position mark
  | .number n, .plain c => s.takeDigit n c
  | .bounds b, .plain c => s.takeBound b c
  | .groupMarked question extension?, mark => s.takeGroupMark question extension? mark
  | .groupName start name, mark => s.takeInName start name position mark
  | .groupOpened, .plain '?' => .ok { s with mode := .groupMarked position none }
  | .groupOpened, mark => { s with numbered := s.numbered + 1 }.takeItem position mark
  | _, mark => s.takeItem position mark

-- Whether a number or bounds go on is told by the mark that comes next, before it
-- is taken.
private def State.settleNumber (s : State) (position : Nat) (next? : Option Mark) :
    Except Stop State :=
  match s.mode with
  | .number n =>
    if n.goesOn next? then .ok s
    else (n.finish false).map fun code => s.push (.oneOf (codeSet code)) .plain
  | .bounds b =>
    if b.goesOn next? then .ok s
    else .ok (b.literals.foldl (fun s c => s.push (literal c) .plain) s)
  | .set set =>
    match set.number? with
    | some n =>
      if n.goesOn next? then .ok s
      else (set.addNumber position n).map fun set => { s with mode := .set set }
    | none => .ok s
  | _ => .ok s

-- Nor is a parenthesis taken that closes no group.
def State.settle (s : State) (position : Nat) (next? : Option Mark) : Except Stop State := do
  let s ← s.settleNumber position next?
  match s.mode, s.outer, next? with
  | .items, [], some (.plain ')') => .error (.fault .unopenedGroup position)
  | _, _, _ => return s

-- The innermost open group is the one reported.
def State.finish (s : State) (length : Nat) : Except Stop Pattern := do
  let s ← s.settle length none
  match s.mode, s.outer with
  | .set set, _ => .error (.fault .unclosedSet set.start)
  | .groupMarked .., _ => .error (.fault .endOfPattern length)
  | .groupName _ [], _ => .error (.fault .missingName length)
  | .groupName start _, _ => .error (.fault .unclosedName start)
  | _, (start, _) :: _ => .error (.fault .unclosedGroup start)
  | _, [] => .ok s.group.pattern

-- A backslash that is cut off comes to light as soon as the mark before it is
-- taken, whatever that mark would lead to.
def State.steps (s : State) (length : Nat) : List (Nat × Mark) → Except Stop Pattern
  | [] => s.finish length
  | (position, .cut) :: _ => .error (.fault .escapeAtEnd position)
  | (position, mark) :: (cutAt, .cut) :: _ => do
    let _ ← s.settle position (some mark)
    throw (.fault .escapeAtEnd cutAt)
  | (position, mark) :: rest => do
    (← (← s.settle position (some mark)).take position mark).steps length rest

def read (text : String) : Except Stop Pattern :=
  State.start.steps text.length (marks 0 text.toList)

end ExprLang.Pattern

namespace ExprLang

instance : PatternEngine Pattern where
  compile text := (Pattern.read text).mapError (·.report text)
  matchText? pattern subject position := pattern.matchText? (.ofPosition subject position)
  prefix_of_matchText? h := by
    obtain ⟨length, -, rfl⟩ := Option.map_eq_some_iff.mp h
    exact List.take_prefix _ _

theorem Pattern.matchText?_eq (pattern : Pattern) (subject : List Char) (position : Nat) :
    PatternEngine.matchText? pattern subject position =
      pattern.matchText? (.ofPosition subject position) := rfl

end ExprLang
