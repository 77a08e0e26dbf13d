import ExprLang.Location
import ExprLang.Text.UpperCase

-- Reports about a place in a source.

namespace ExprLang

-- Absent advice and empty advice are told apart in the record and look the
-- same in the report. A place that is not known is reported as such.
structure Diagnostic where
  message : String
  location? : Option Location
  severity : String
  code? : Option String
  help? : Option String
  suggestions? : Option (List String)
deriving DecidableEq, Inhabited

namespace Diagnostic

def text (d : Diagnostic) : String :=
  let place := match d.location? with
    | none => "None"
    | some location => location.text
  let help := match d.help? with
    | none | some "" => ""
    | some help => "  help: " ++ help ++ "\n"
  let suggestions := match d.suggestions? with
    | none | some [] => ""
    | some suggestions =>
      "  suggestions:\n" ++ String.join (suggestions.map fun s => "    - " ++ s ++ "\n")
  Text.upperCase d.severity ++ ": " ++ d.message ++ "\n" ++
    "  --> " ++ place ++ "\n" ++ help ++ suggestions

private def shownText? : Option String → String
  | none => "None"
  | some s => Text.quoted s

private def shownTexts? : Option (List String) → String
  | none => "None"
  | some texts => "[" ++ ", ".intercalate (texts.map Text.quoted) ++ "]"

def fullText (d : Diagnostic) : String :=
  let location := match d.location? with
    | none => "None"
    | some location => location.fullText
  "Diagnostic(message=" ++ Text.quoted d.message ++ ", location=" ++ location ++
    ", severity=" ++ Text.quoted d.severity ++ ", code=" ++ shownText? d.code? ++
    ", help_text=" ++ shownText? d.help? ++ ", suggestions=" ++ shownTexts? d.suggestions? ++ ")"

end Diagnostic

end ExprLang
