import ExprLang.Release

-- Log records.

namespace ExprLang.CommandLine

inductive LogLevel where
  | debug
  | info
  | warning
  | error
deriving DecidableEq, Inhabited

namespace LogLevel

def all : List LogLevel := [debug, info, warning, error]

def name : LogLevel → String
  | debug => "DEBUG"
  | info => "INFO"
  | warning => "WARNING"
  | error => "ERROR"

def ofName? (name : String) : Option LogLevel := all.find? (·.name = name)

def severity : LogLevel → Nat
  | debug => 10
  | info => 20
  | warning => 30
  | error => 40

end LogLevel

structure LogRecord where
  level : LogLevel
  logger : String
  message : String

def LogRecord.line (r : LogRecord) : String :=
  r.level.name ++ " " ++ r.logger ++ ": " ++ r.message ++ "\n"

-- The records that a threshold lets through.
def logText (threshold : LogLevel) (records : List LogRecord) : String :=
  String.join ((records.filter fun r => threshold.severity ≤ r.level.severity).map (·.line))

end ExprLang.CommandLine
