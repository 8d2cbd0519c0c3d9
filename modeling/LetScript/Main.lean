import LetScript.Shell.Command

/-! The command line program. Lines are read and answered one at a time, so a session
can be held with a person at a terminal. -/
namespace LetScript.Main

open Shell

def callDepth : Nat := 100000

/-- The system's own words, with the number of the error. Some errors come with the number negated
and the first word in lower case. -/
def systemReason (error : IO.Error) : String :=
  let numbered (code : UInt32) (details : String) : String :=
    details.capitalize ++ " (os error " ++ Text.Decimal.encode code.toInt32.toInt.natAbs ++ ")"
  match error with
  | .noFileOrDirectory _ code details | .interrupted _ code details => numbered code details
  | .permissionDenied _ code details | .inappropriateType _ code details => numbered code details
  | .invalidArgument _ code details | .resourceExhausted _ code details => numbered code details
  | .otherError code details | .hardwareFault code details => numbered code details
  | error => error.toString

def report (result : Result) : IO UInt32 := do
  let output ← IO.getStdout
  output.putStr result.output
  output.flush
  (← IO.getStderr).putStr result.errorOutput
  return result.status.toUInt32

def tooDeep : Result := ⟨1, "", line "calls nest too deeply"⟩

def runPath (mode : Mode) (path : String) : IO UInt32 := do
  let contents ←
    try
      let bytes ← IO.FS.readBinFile path
      pure (.ok bytes.toList)
    catch error => pure (.error (systemReason error))
  report (((runFile callDepth mode path contents).map Result.ofResponse).getD tooDeep)

/-- The next line of the input in reverse, with its newline. -/
partial def readLine (input : IO.FS.Stream) (read : List UInt8) : IO (List UInt8) := do
  match (← input.read 1).toList with
  | [byte] => if byte = newline then return byte :: read else readLine input (byte :: read)
  | _ => return read

partial def converse (session : Session) : IO UInt32 := do
  let output ← IO.getStdout
  output.putStr prompt
  output.flush
  let bytes := (← readLine (← IO.getStdin) []).reverse
  if bytes.isEmpty then return 0
  match decode bytes with
  | none => report (.ofTranscript ⟨"", .invalidText, session⟩)
  | some text =>
    match session.respond callDepth text with
    | none => report tooDeep
    | some (response, session) =>
      output.putStr response
      converse session

end LetScript.Main

def main (arguments : List String) : IO UInt32 :=
  match LetScript.Shell.Config.ofArguments arguments with
  | .error error => LetScript.Main.report (.ofArgumentError error)
  | .ok ⟨mode, some path⟩ => LetScript.Main.runPath mode path
  | .ok ⟨mode, none⟩ => LetScript.Main.converse (.new mode)
