import ExprLang.CommandLine.Options
import ExprLang.Source
import ExprLang.Tree.Printer

-- The command: from its arguments to its output and exit code.

namespace ExprLang.CommandLine

structure Outcome where
  exitCode : Nat
  stdout : String
  stderr : String
deriving DecidableEq

-- What the command finds around it. `logger` is the name under which its own
-- records are logged.
structure Environment where
  stdin : ByteArray
  openFile : String → Opened
  logger : String

-- What the command does not deal with: a log level that is not named, a file or
-- an input that holds no UTF-8, and a lexer that fails.
inductive Crash where
  | noLevel
  | notUtf8
  | lexer (fault : Lexer.Fault)
deriving DecidableEq

def Crash.message : Crash → String
  | noLevel => "no log level is named"
  | notUtf8 => "the input is not UTF-8"
  | lexer _ => "the lexer fails"

def Stop.outcome : Stop → Outcome
  | help => ⟨0, CommandLine.help, ""⟩
  | version => ⟨0, Release.program ++ " " ++ Release.version ++ "\n", ""⟩
  | misuse message => ⟨2, "", usage ++ Release.program ++ ": error: " ++ message ++ "\n"⟩

-- The text to work on and the name that locations give it.
def Environment.source (env : Environment) : Option String → Except ReadFault (String × String)
  | none => .ok (Release.demo, "<demo>")
  | some "-" => return (← decodeText env.stdin, "<stdin>")
  | some path => return (← (env.openFile path).text, path)

private def unreadable (path : String) : ReadFault → Except Crash Outcome
  | .missing => .ok ⟨1, "", "File not found: " ++ path ++ "\n"⟩
  | .directory => .ok ⟨1, "", "Cannot read " ++ path ++ ": Is a directory\n"⟩
  | .refused reason => .ok ⟨1, "", "Cannot read " ++ path ++ ": " ++ reason ++ "\n"⟩
  | .notUtf8 => .error .notUtf8

def lexerRecords (file : String) (tokens : List Token) : List LogRecord :=
  (Rule.defaults.map fun rule =>
    ⟨.debug, Release.program ++ ".lexer.patterns",
      "compiled lexer pattern " ++ Text.quoted rule.pattern⟩) ++
  [⟨.debug, Release.program ++ ".lexer.lexer",
    file ++ ": produced " ++ toString tokens.length ++ " tokens"⟩]

def parserRecords (definitions : List Definition) : List LogRecord :=
  definitions.map fun d =>
    ⟨.debug, Release.program ++ ".parser.parser",
      "parsed top-level " ++ d.prototype.name.nameOrAnonymous⟩

def summaryRecord (logger file : String) (tokens : List Token) (definitions : List Definition) :
    LogRecord :=
  ⟨.info, logger, file ++ ": " ++ toString tokens.length ++ " tokens, " ++
    toString definitions.length ++ " top-level nodes"⟩

def tokenLine (tokens : List Token) : String :=
  "[" ++ ", ".intercalate (tokens.map Token.text) ++ "]\n"

def treeText (definitions : List Definition) : String :=
  String.join (((Printer.new "  ").renderAll (definitions.map Definition.node)).1.map (· ++ "\n"))

-- What the command makes of the tokens of a source.
def report (showTokens : Bool) (level : LogLevel) (logger file : String) (tokens : List Token) :
    Outcome :=
  let progress := Parser.progress ⟨tokens.toArray, .defaults⟩
  let shown := if showTokens then tokenLine tokens else ""
  let records := lexerRecords file tokens ++ parserRecords progress.definitions
  match progress.fault? with
  | some fault =>
    ⟨1, shown, logText level records ++ fault.report.diagnostic.text⟩
  | none =>
    let summary := summaryRecord logger file tokens progress.definitions
    ⟨0, shown ++ treeText progress.definitions, logText level (records ++ [summary])⟩

def run (env : Environment) (arguments : List String) : Except Crash Outcome :=
  match Options.ofArguments arguments with
  | .error stop => .ok stop.outcome
  | .ok ⟨_, _, none⟩ => .error .noLevel
  | .ok ⟨file?, showTokens, some level⟩ =>
    match env.source file? with
    | .error fault => unreadable (file?.getD "") fault
    | .ok (text, file) =>
      match tokenize text file with
      | .error fault => .error (.lexer fault)
      | .ok tokens => .ok (report showTokens level env.logger file tokens)

end ExprLang.CommandLine
