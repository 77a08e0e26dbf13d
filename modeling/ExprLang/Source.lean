import ExprLang.Lexer.Basic
import ExprLang.Parser.Basic
import ExprLang.Text.LineEnding

-- Programs in texts and in files.

namespace ExprLang

-- What comes of opening a file. Its path is a name that the system can have: what
-- holds a NUL character is none, and nothing is opened by it.
inductive Opened where
  | bytes (content : ByteArray)
  | missing
  | directory
  -- The reason is the one that the system gives.
  | refused (reason : String)

-- Why there is no text.
inductive ReadFault where
  | missing
  | directory
  | refused (reason : String)
  | notUtf8
deriving DecidableEq

-- The text in bytes that hold UTF-8, every line of it ended by a line feed.
def decodeText (content : ByteArray) : Except ReadFault String :=
  match String.fromUTF8? content with
  | some text => .ok (String.ofList (Text.unifyLineEndings text.toList))
  | none => .error .notUtf8

def Opened.text : Opened → Except ReadFault String
  | bytes content => decodeText content
  | missing => .error .missing
  | directory => .error .directory
  | refused reason => .error (.refused reason)

-- All that can keep a program from being read.
inductive Failure where
  | file (fault : ReadFault)
  | lexer (fault : Lexer.Fault)
  | syntaxFault (fault : SyntaxFault)

def tokenizeText (source file : String) : Except Failure (List Token) :=
  (tokenize source file).mapError .lexer

def parseText (source file : String) : Except Failure (List Definition) := do
  let tokens ← tokenizeText source file
  (parseTokens tokens .defaults).mapError .syntaxFault

-- Locations name the file by the path under which it was asked for.
def tokenizeFile (path : String) (opened : Opened) : Except Failure (List Token) := do
  tokenizeText (← opened.text.mapError .file) path

def parseFile (path : String) (opened : Opened) : Except Failure (List Definition) := do
  let tokens ← tokenizeFile path opened
  (parseTokens tokens .defaults).mapError .syntaxFault

end ExprLang
