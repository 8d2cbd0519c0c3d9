import LetScript.Token

/-! How tightly operators bind. -/
namespace LetScript

/-- Levels of binding, loosest first. -/
inductive Precedence where
  | lowest
  | equality
  | comparison
  | sum
  | product
  | unary
  | call
  deriving DecidableEq

namespace Precedence

def rank : Precedence → Nat
  | lowest => 0
  | equality => 1
  | comparison => 2
  | sum => 3
  | product => 4
  | unary => 5
  | call => 6

/-- How tightly a token binds what stands before it. One that joins nothing does not bind. -/
def ofKind : TokenKind → Precedence
  | .equalEqual | .bangEqual => equality
  | .less | .greater => comparison
  | .plus | .minus => sum
  | .star | .slash => product
  | .parenLeft => call
  | _ => lowest

end Precedence

end LetScript
