import LetScript.Evaluation
import LetScript.Parser

/-! Running one text after another on the same top level scope, so that what one binds
the next can use. -/
namespace LetScript

structure Interpreter where
  store : Store
  /-- The top level scope. -/
  scope : ScopeId
  deriving DecidableEq

namespace Interpreter

/-- A new top level, beside whatever scopes there are. -/
def within (store : Store) : Interpreter :=
  let (scope, store) := store.addScope none
  ⟨store, scope⟩

def new : Interpreter := within .empty

def lookup (interpreter : Interpreter) (name : String) : Option Value :=
  interpreter.store.lookup interpreter.scope name

/-- Evaluates a program, with calls nested at most `depth` deep. -/
def eval (depth : Nat) (interpreter : Interpreter) (program : Program) :
    Option (Value × Interpreter) :=
  (program.eval (applyWithin depth) interpreter.scope interpreter.store).map
    fun (value, store) => (value, { interpreter with store })

/-- Parses and evaluates a text. Nothing is evaluated of one that is not a program. -/
def run (depth : Nat) (interpreter : Interpreter) (text : String) :
    Option (Except (List Diagnostic) Value × Interpreter) :=
  match Program.parse text with
  | .ok program =>
    (interpreter.eval depth program).map fun (value, interpreter) => (.ok value, interpreter)
  | .error diagnostics => some (.error diagnostics, interpreter)

end Interpreter

end LetScript
