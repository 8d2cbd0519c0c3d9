import LetScript.Integer
import LetScript.Text.CommaSeparated
import LetScript.Tree

/-! The source text of a tree. Every operator application stands in parentheses, so the
text does not depend on how tightly operators bind, and an expression statement ends
with a semicolon where another statement follows, so neighbours stay apart. -/
namespace LetScript

/-- An operator application, which brings its own parentheses. -/
def Expr.isOperation : Expr → Bool
  | .unary _ _ | .binary _ _ _ => true
  | _ => false

/-- What has to stand between a statement and the next one. -/
def Stmt.terminator : Stmt → String
  | .expr _ => ";"
  | _ => ""

/-- A block whose statements read `inner`, with blanks inside the braces. -/
def braced (statements : List Stmt) (inner : String) : String :=
  if statements.isEmpty then "\x7b \x7d" else "\x7b " ++ inner ++ " \x7d"

mutual

def Expr.render : Expr → String
  | .name name => name
  | .int value => Integer.text value
  | .bool value => (Keyword.ofBool value).spelling
  | .unary op operand => "(" ++ op.symbol ++ operand.render ++ ")"
  | .binary op left right => "(" ++ left.render ++ " " ++ op.symbol ++ " " ++ right.render ++ ")"
  | .ifElse condition consequence alternative =>
    "if" ++ (if condition.isOperation then condition.render else "(" ++ condition.render ++ ")") ++
      " " ++ braced consequence (renderStatements consequence) ++ renderElse alternative
  | .function parameters body =>
    "fn (" ++ Text.commaSeparated parameters ++ ") " ++ braced body (renderStatements body)
  | .call callee arguments => callee.render ++ "(" ++ Text.commaSeparated (renderEach arguments) ++ ")"
termination_by structural expr => expr

def Stmt.render : Stmt → String
  | .bind name value => "let " ++ name ++ " = " ++ value.render ++ ";"
  | .ret value => "return " ++ value.render ++ ";"
  | .expr expr => expr.render
  | .block statements => braced statements (renderStatements statements)
termination_by structural stmt => stmt

def renderStatements : List Stmt → String
  | [] => ""
  | [stmt] => stmt.render
  | stmt :: next :: rest => stmt.render ++ stmt.terminator ++ renderStatements (next :: rest)
termination_by structural statements => statements

def renderElse : Option (List Stmt) → String
  | none => ""
  | some statements => " else " ++ braced statements (renderStatements statements)
termination_by structural alternative => alternative

def renderEach : List Expr → List String
  | [] => []
  | expr :: rest => expr.render :: renderEach rest
termination_by structural exprs => exprs

end

def renderBlock (statements : List Stmt) : String :=
  braced statements (renderStatements statements)

theorem renderEach_eq_map (exprs : List Expr) : renderEach exprs = exprs.map Expr.render := by
  induction exprs with
  | nil => rfl
  | cons expr rest ih => rw [renderEach, ih, List.map_cons]

def Program.render (program : Program) : String :=
  renderStatements program.statements

end LetScript
