import LetScript.Token

/-! What can be wrong with a text that is not a program. -/
namespace LetScript

inductive Diagnostic where
  /-- Another token is required next. -/
  | unexpectedToken (expected found : TokenKind)
  /-- No expression starts with the token. -/
  | noExpression (found : TokenKind)
  /-- The number does not fit in 64 bits. -/
  | integerTooLarge (literal : String)
  deriving DecidableEq

namespace Diagnostic

def message : Diagnostic → String
  | unexpectedToken expected found =>
    "expected next token to be " ++ expected.displayName ++ ", got " ++ found.displayName ++
      " instead"
  | noExpression found => "no prefix parse function for " ++ found.displayName ++ " found"
  | integerTooLarge literal => "could not parse " ++ literal ++ " as integer"

/-- All messages, one a line, the last line left open. -/
def messages (diagnostics : List Diagnostic) : String :=
  "\n".intercalate (diagnostics.map message)

end Diagnostic

end LetScript
