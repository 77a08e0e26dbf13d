import ExprLang.CommandLine.Log
import ExprLang.Text.DecimalDigit
import ExprLang.Text.Quoted

-- What the arguments of the command ask for.

namespace ExprLang.CommandLine

-- The level is missing if it was asked for without being named.
structure Options where
  file? : Option String
  showTokens : Bool
  level? : Option LogLevel
deriving DecidableEq

def Options.defaults : Options := ⟨none, false, some .warning⟩

-- What ends the command before anything is read.
inductive Stop where
  | help
  | version
  | misuse (message : String)
deriving DecidableEq

inductive Flag where
  | help
  | version
  | tokens
  | logLevel
deriving DecidableEq

namespace Flag

def spellings : List (String × Flag) :=
  [("-h", help), ("--help", help), ("--version", version), ("--tokens", tokens),
   ("--log-level", logLevel)]

-- A short flag has one hyphen and one letter.
def isShort (spelling : String) : Bool := spelling.length = 2

def title : Flag → String
  | help => "-h/--help"
  | version => "--version"
  | tokens => "--tokens"
  | logLevel => "--log-level"

end Flag

-- What follows the spelling of a flag within an argument: a value behind the
-- equals sign of a long one, or more letters behind a short one.
inductive Tail where
  | none
  | value (text : String)
  | letters (text : String)
deriving DecidableEq

-- An argument by itself, before its neighbours are looked at.
inductive Argument where
  | plain (text : String)
  | separator
  | flag (flag : Flag) (tail : Tail)
  | unknown (text : String)
deriving DecidableEq

-- The parts before and behind the first equals sign.
private def splitAtEquals? (cs : List Char) : Option (String × String) :=
  match cs.dropWhile (· ≠ '=') with
  | [] => none
  | _ :: value => some (String.ofList (cs.takeWhile (· ≠ '=')), String.ofList value)

private def isDigits (cs : List Char) : Bool :=
  !cs.isEmpty && cs.all fun c => (Text.decimalDigit? c).isSome

-- A number below zero is no flag, and a line feed behind it changes nothing.
private def isNegativeNumber (cs : List Char) : Bool :=
  let cs := if cs.getLast? = some '\n' then cs.dropLast else cs
  match cs with
  | '-' :: number =>
    let whole := number.takeWhile (· ≠ '.')
    match number.dropWhile (· ≠ '.') with
    | [] => isDigits whole
    | _ :: fraction => (whole.isEmpty || isDigits whole) && isDigits fraction
  | _ => false

-- The spellings that a text may stand for, and what follows them: long ones may
-- be cut short, and a short one may have more letters behind it.
private def candidates (text : String) : List (String × Flag) × Tail :=
  match text.toList with
  | '-' :: '-' :: _ =>
    let (start, tail) : String × Tail := match splitAtEquals? text.toList with
      | some (start, value) => (start, .value value)
      | none => (text, .none)
    (Flag.spellings.filter fun (spelling, _) => start.toList.isPrefixOf spelling.toList, tail)
  | dash :: letter :: rest =>
    (Flag.spellings.filter fun (spelling, _) => spelling.toList = [dash, letter],
      .letters (String.ofList rest))
  | _ => ([], .none)

private def wholeFlag? (text : String) : Option Argument :=
  match Flag.spellings.lookup text with
  | some flag => some (.flag flag .none)
  | none => do
    let (spelling, value) ← splitAtEquals? text.toList
    let flag ← Flag.spellings.lookup spelling
    return .flag flag (if Flag.isShort spelling then .letters value else .value value)

def classify (text : String) : Except Stop Argument :=
  match text.toList with
  | '-' :: rest@(_ :: _) =>
    match wholeFlag? text, candidates text with
    | some argument, _ => .ok argument
    | none, ([(_, flag)], tail) => .ok (.flag flag tail)
    | none, ([], _) =>
      .ok (if isNegativeNumber ('-' :: rest) || rest.contains ' ' then .plain text
        else .unknown text)
    | none, (several, _) =>
      .error (.misuse ("ambiguous option: " ++ text ++ " could match " ++
        ", ".intercalate (several.map (·.1))))
  | _ => .ok (.plain text)

-- Whatever follows two hyphens is plain.
def classifyAll : List String → Except Stop (List Argument)
  | [] => .ok []
  | "--" :: rest => .ok (.separator :: rest.map .plain)
  | text :: rest => do return (← classify text) :: (← classifyAll rest)

-- The options so far, and the arguments for which there is no use.
structure Scan where
  options : Options
  fileTaken : Bool
  strays : List String

namespace Scan

private def stray (s : Scan) (text : String) : Scan := { s with strays := s.strays ++ [text] }

private def take (s : Scan) (file? : Option String) : Scan :=
  { s with options := { s.options with file? }, fileTaken := true }

private def misuse (flag : Flag) (message : String) : Stop :=
  .misuse ("argument " ++ flag.title ++ ": " ++ message)

private def refuseTail (flag : Flag) (tail : String) : Stop :=
  misuse flag ("ignored explicit argument " ++ Text.quoted tail)

-- Two hyphens, which otherwise separate arguments, are no name at all.
private def setLevel (s : Scan) (name : String) : Except Stop Scan :=
  match LogLevel.ofName? name with
  | some level => .ok { s with options := { s.options with level? := some level } }
  | none =>
    if name = "--" then .ok { s with options := { s.options with level? := none } }
    else
      let choices := ", ".intercalate (LogLevel.all.map fun level => Text.quoted level.name)
      .error (misuse .logLevel
        ("invalid choice: " ++ Text.quoted name ++ " (choose from " ++ choices ++ ")"))

-- A flag without a value takes effect where it stands.
private def perform (s : Scan) : Flag → Except Stop Scan
  | .help => .error .help
  | .version => .error .version
  | .tokens => .ok { s with options := { s.options with showTokens := true } }
  | .logLevel => .error (misuse .logLevel "expected one argument")

-- Letters behind the short flag for help, the only short one there is. They ask
-- for help again and again, and must ask for nothing else.
private def stopAtLetters (letters : String) : Stop :=
  let left := letters.toList.dropWhile (· = 'h')
  if letters ≠ "" ∧ left = [] then .help else refuseTail .help (String.ofList left)

-- The first plain argument is the file. The separator goes with it, before it
-- or behind it, and may also stand for it.
def scan (s : Scan) : List Argument → Except Stop Scan
  | [] => .ok s
  | .plain text :: .separator :: rest =>
    if s.fileTaken then (s.stray text |>.stray "--").scan rest else (s.take (some text)).scan rest
  | .plain text :: rest =>
    if s.fileTaken then (s.stray text).scan rest else (s.take (some text)).scan rest
  | .separator :: .plain text :: rest =>
    if s.fileTaken then (s.stray "--" |>.stray text).scan rest else (s.take (some text)).scan rest
  | .separator :: rest =>
    if s.fileTaken then (s.stray "--").scan rest else (s.take none).scan rest
  | .unknown text :: rest => (s.stray text).scan rest
  | .flag .logLevel (.value value) :: rest => do (← s.setLevel value).scan rest
  | .flag .logLevel .none :: .plain value :: rest => do (← s.setLevel value).scan rest
  | .flag flag (.value value) :: _ => .error (refuseTail flag value)
  | .flag _ (.letters letters) :: _ => .error (stopAtLetters letters)
  | .flag flag .none :: rest => do (← s.perform flag).scan rest

end Scan

-- Every argument is looked at by itself first; those for which there is no use
-- are reported last.
def Options.ofArguments (arguments : List String) : Except Stop Options := do
  let scan ← Scan.scan ⟨.defaults, false, []⟩ (← classifyAll arguments)
  if scan.strays = [] then return scan.options
  else throw (.misuse ("unrecognized arguments: " ++ " ".intercalate scan.strays))

def usage : String :=
  "usage: " ++ Release.program ++ " [-h] [--version] [--tokens]\n" ++
  "                    [--log-level \x7bDEBUG,INFO,WARNING,ERROR\x7d]\n" ++
  "                    [file]\n"

def help : String :=
  usage ++ "\n" ++
  "Tokenize and parse Kaleidoscope source\n" ++
  "\n" ++
  "positional arguments:\n" ++
  "  file                  Source file, '-' for stdin (default: built-in demo\n" ++
  "                        program)\n" ++
  "\n" ++
  "options:\n" ++
  "  -h, --help            show this help message and exit\n" ++
  "  --version             show program's version number and exit\n" ++
  "  --tokens              Print the token list before the tree\n" ++
  "  --log-level \x7bDEBUG,INFO,WARNING,ERROR\x7d\n" ++
  "                        Logging level (default: WARNING)\n"

end ExprLang.CommandLine
