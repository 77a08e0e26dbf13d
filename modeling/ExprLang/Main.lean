import ExprLang.CommandLine.Run

-- The command in a terminal.

section

open ExprLang ExprLang.CommandLine

private def loggerName : String := Release.program ++ ".cli"

private def openFile (path : String) : IO Opened := do
  try
    return .bytes (← IO.FS.readBinFile path)
  catch
    | .noFileOrDirectory .. => return .missing
    | .inappropriateType _ _ reason => return .refused reason
    | .permissionDenied _ _ reason => return .refused reason
    | e => return .refused (toString e)

-- Only what the arguments name is read.
private def environment (arguments : List String) : IO Environment := do
  match Options.ofArguments arguments with
  | .ok { file? := some "-", .. } =>
    return ⟨← (← IO.getStdin).readBinToEnd, fun _ => .missing, loggerName⟩
  | .ok { file? := some path, .. } =>
    let opened ← openFile path
    return ⟨.empty, fun _ => opened, loggerName⟩
  | _ => return ⟨.empty, fun _ => .missing, loggerName⟩

def main (arguments : List String) : IO UInt32 := do
  match run (← environment arguments) arguments with
  | .ok outcome =>
    IO.print outcome.stdout
    IO.eprint outcome.stderr
    return outcome.exitCode.toUInt32
  | .error crash =>
    IO.eprintln crash.message
    return 1

end
