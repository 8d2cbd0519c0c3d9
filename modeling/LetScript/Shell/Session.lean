import LetScript.Interpreter
import LetScript.Shell.Arguments
import LetScript.Text.Quoted
import LetScript.Text.WhiteSpace

/-! Sessions: texts processed one after another on one interpreter, and what is written
in response. An interactive session takes its texts from the lines of its input, each
after a prompt. -/
namespace LetScript

/-- The kind, then the literal in quotes. -/
def Token.render (token : Token) : String :=
  token.kind.displayName ++ " " ++ Text.Quoted.encode token.literal

namespace Shell

inductive Outcome where
  | ok
  | parseFailed
  | runtimeError
  deriving DecidableEq

def Outcome.isSuccess (outcome : Outcome) : Bool :=
  outcome = .ok

/-- How a text was processed and what was written. -/
structure Response where
  outcome : Outcome
  output : String
  deriving DecidableEq

def line (text : String) : String :=
  text ++ "\n"

def banner : String :=
  "  /~\\ \n C oo \n _( ^) \n/   ~\\ \n" ++
    line "Woops! We ran into some monkey business here!" ++ line " parser errors:"

namespace Response

def ofTokens (tokens : List Token) : Response :=
  ⟨.ok, String.join (tokens.map fun token => line token.render)⟩

def ofProgram (program : Program) : Response :=
  ⟨.ok, line program.render⟩

def ofValue (value : Value) : Response :=
  ⟨if value.isError then .runtimeError else .ok, line value.render⟩

def ofDiagnostics (diagnostics : List Diagnostic) : Response :=
  ⟨.parseFailed,
    banner ++ String.join (diagnostics.map fun diagnostic => line ("\t" ++ diagnostic.message))⟩

end Response

structure Session where
  mode : Mode
  interpreter : Interpreter
  deriving DecidableEq

namespace Session

def new (mode : Mode) : Session :=
  ⟨mode, .new⟩

/-- Processes a text, with calls nested at most `depth` deep. -/
def process (depth : Nat) (session : Session) (text : String) : Option (Response × Session) :=
  match session.mode with
  | .lex => some (.ofTokens (tokenize text), session)
  | .parse =>
    match Program.parse text with
    | .ok program => some (.ofProgram program, session)
    | .error diagnostics => some (.ofDiagnostics diagnostics, session)
  | .eval =>
    (session.interpreter.run depth text).map fun (result, interpreter) =>
      match result with
      | .ok value => (.ofValue value, { session with interpreter })
      | .error diagnostics => (.ofDiagnostics diagnostics, { session with interpreter })

end Session

/-! ### Lines -/

def newline : UInt8 := 10

/-- The pieces of the input that end with a newline, and what is left after the last of them unless
it is empty. -/
def lines : List UInt8 → List (List UInt8)
  | [] => []
  | byte :: rest =>
    if byte = newline then [byte] :: lines rest
    else
      match lines rest with
      | [] => [[byte]]
      | first :: others => (byte :: first) :: others

def decode (bytes : List UInt8) : Option String :=
  String.fromUTF8? ⟨bytes.toArray⟩

def isLineEnd (c : Char) : Bool :=
  c = '\n' || c = '\r'

def withoutLineEnd (text : String) : String :=
  String.ofList (text.toList.reverse.dropWhile isLineEnd).reverse

/-! ### Interactive sessions -/

def prompt : String := ">> "

namespace Session

/-- What is written in response to a line. A blank line gets no response. -/
def respond (depth : Nat) (session : Session) (text : String) : Option (String × Session) :=
  let text := withoutLineEnd text
  if Text.isBlankText text then some ("", session)
  else (session.process depth text).map fun (response, session) => (response.output, session)

end Session

/-- How an interactive session came to its end. -/
inductive Ending where
  | endOfInput
  /-- A line that is not text. -/
  | invalidText
  deriving DecidableEq

structure Transcript where
  output : String
  ending : Ending
  session : Session
  deriving DecidableEq

namespace Session

/-- Responds to lines until one of them is not text. -/
def respondAll (depth : Nat) (session : Session) : List (List UInt8) → Option Transcript
  | [] => some ⟨prompt, .endOfInput, session⟩
  | line :: rest =>
    match decode line with
    | none => some ⟨prompt, .invalidText, session⟩
    | some text => do
      let (output, session) ← session.respond depth text
      let transcript ← respondAll depth session rest
      return { transcript with output := prompt ++ output ++ transcript.output }

/-- An interactive session on an input. -/
def interact (depth : Nat) (session : Session) (input : List UInt8) : Option Transcript :=
  respondAll depth session (lines input)

end Session

end Shell

end LetScript
