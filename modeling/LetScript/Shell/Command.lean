import LetScript.Shell.Session

/-! The command: arguments decide between a session on the standard input and a single
file, and what came of it decides the exit status. -/
namespace LetScript.Shell

inductive CommandError where
  | input (reason : String)
  | readFile (path reason : String)
  deriving DecidableEq

def CommandError.message : CommandError → String
  | input reason => reason
  | readFile path reason => "could not read `" ++ Text.Quoted.encode path ++ "`: " ++ reason

/-- Why bytes cannot be read as text. -/
def invalidTextReason : String := "stream did not contain valid UTF-8"

def Ending.error? : Ending → Option CommandError
  | .endOfInput => none
  | .invalidText => some (.input invalidTextReason)

/-- Processes a whole file, given its contents or the reason why there are none. -/
def runFile (depth : Nat) (mode : Mode) (path : String) (contents : Except String (List UInt8)) :
    Option (Except CommandError Response) :=
  match contents with
  | .error reason => some (.error (.readFile path reason))
  | .ok bytes =>
    match decode bytes with
    | none => some (.error (.readFile path invalidTextReason))
    | some text =>
      ((Session.new mode).process depth text).map fun (response, _) => .ok response

structure Result where
  status : UInt8
  output : String
  errorOutput : String
  deriving DecidableEq

namespace Result

def usage : String := "usage: monkey [--lex | --parse] [path]"

def ofArgumentError (error : ArgumentError) : Result :=
  ⟨2, "", line error.message ++ line usage⟩

def ofResponse : Except CommandError Response → Result
  | .ok response => ⟨if response.outcome.isSuccess then 0 else 1, response.output, ""⟩
  | .error error => ⟨1, "", line error.message⟩

def ofTranscript (transcript : Transcript) : Result :=
  match transcript.ending.error? with
  | none => ⟨0, transcript.output, ""⟩
  | some error => ⟨1, transcript.output, line error.message⟩

end Result

/-- Runs the command, with calls nested at most `depth` deep. -/
def runCommand (depth : Nat) (arguments : List String)
    (readFile : String → Except String (List UInt8)) (input : List UInt8) : Option Result :=
  match Config.ofArguments arguments with
  | .error error => some (.ofArgumentError error)
  | .ok ⟨mode, some path⟩ => (runFile depth mode path (readFile path)).map .ofResponse
  | .ok ⟨mode, none⟩ => ((Session.new mode).interact depth input).map .ofTranscript

end LetScript.Shell
