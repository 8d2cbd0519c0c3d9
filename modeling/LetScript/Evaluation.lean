import LetScript.Store
import LetScript.Value.Operators

/-! Running a tree. Evaluation follows the tree and leaves calls to a function of its
own, which in turn evaluates the body of what is called with one level of calls less to
go. So every evaluation ends; one whose calls nest deeper than allowed ends without a
result, and allowing more calls changes no result. -/
namespace LetScript

/-- A computation on the scopes. It has no result if calls nest too deeply. -/
abbrev Eval (α : Type) := StateT Store Option α

/-- Goes on with the value, unless it is an error or a `return`, which stands for the whole. -/
def Eval.proceed (eval : Eval Value) (next : Value → Eval Value) : Eval Value := do
  let value ← eval
  if value.isAbrupt then return value else next value

/-- How a value is called. -/
abbrev Caller := Value → List Value → Eval Value

mutual

def Expr.eval (call : Caller) (scope : ScopeId) : Expr → Eval Value
  | .name name => do
    return ((← get).lookup scope name).getD (.error (.identifierNotFound name))
  | .int value => return .int value
  | .bool value => return .bool value
  | .unary op operand =>
    (operand.eval call scope).proceed fun operand => return op.apply operand
  | .binary op left right =>
    (left.eval call scope).proceed fun left =>
    (right.eval call scope).proceed fun right => return op.apply left right
  | .ifElse condition consequence alternative =>
    (condition.eval call scope).proceed fun condition =>
      if condition.isTruthy then evalStatements call scope .nil consequence
      else evalElse call scope alternative
  | .function parameters body => do
    return .function (← modifyGet (·.addFunction parameters body scope))
  | .call callee arguments =>
    (callee.eval call scope).proceed fun callee => do
      match ← evalArguments call scope arguments with
      | .ok arguments => call callee arguments
      | .error value => return value
termination_by structural expr => expr

def Stmt.eval (call : Caller) (scope : ScopeId) : Stmt → Eval Value
  | .bind name value =>
    (value.eval call scope).proceed fun value => do
      modify (·.define scope name value)
      return .nil
  | .ret value => (value.eval call scope).proceed fun value => return .returned value
  | .expr expr => expr.eval call scope
  | .block statements => evalStatements call scope .nil statements
termination_by structural stmt => stmt

/-- Statements in order. The value is that of the last one, or `last` if there is none. -/
def evalStatements (call : Caller) (scope : ScopeId) (last : Value) : List Stmt → Eval Value
  | [] => return last
  | stmt :: rest =>
    (stmt.eval call scope).proceed fun value => evalStatements call scope value rest
termination_by structural statements => statements

def evalElse (call : Caller) (scope : ScopeId) : Option (List Stmt) → Eval Value
  | none => return .nil
  | some statements => evalStatements call scope .nil statements
termination_by structural alternative => alternative

/-- The values of arguments from left to right, or the first result that is an error or `return`. -/
def evalArguments (call : Caller) (scope : ScopeId) :
    List Expr → Eval (Except Value (List Value))
  | [] => return .ok []
  | argument :: rest => do
    let value ← argument.eval call scope
    if value.isAbrupt then return .error value
    match ← evalArguments call scope rest with
    | .ok values => return .ok (value :: values)
    | .error value => return .error value
termination_by structural arguments => arguments

end

/-- Calls a value, with calls nested at most `depth` deep. The parameters of a function are bound in
a new scope inside the one that the function was written in. -/
def applyWithin : Nat → Caller
  | 0, _, _ => failure
  | depth + 1, .function f, arguments => do
    if f.parameters.length ≠ arguments.length then
      return .error (.wrongArgumentCount f.parameters.length arguments.length)
    let scope ← modifyGet (·.addScope (some f.scope))
    modify (·.setAll scope (f.parameters.zip arguments))
    return (← evalStatements (applyWithin depth) scope .nil f.body).arrived
  | _ + 1, callee, _ => return .error (.notAFunction callee.typeName)

/-- A `return` outside of all calls ends the program with its value. -/
def Program.eval (call : Caller) (scope : ScopeId) (program : Program) : Eval Value := do
  return (← evalStatements call scope .nil program.statements).arrived

end LetScript
