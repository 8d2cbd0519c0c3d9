import LetScript.Tree.Render

/-! The values that programs compute with, and the errors that running one can end in.
An error, and the value of a `return` statement that has not reached its call yet, are
values of their own: they travel through an evaluation in place of the value that was
wanted. -/
namespace LetScript

/-- Types are given by name, operators by themselves. -/
inductive RuntimeError where
  | identifierNotFound (name : String)
  | notAFunction (type : String)
  | unknownUnary (op : UnaryOp) (operand : String)
  /-- Both operands are of one type, and the operator is not for it. -/
  | unknownBinary (left : String) (op : BinaryOp) (right : String)
  | typeMismatch (left : String) (op : BinaryOp) (right : String)
  | divisionByZero (left : Int64)
  /-- The result of the operation spelled out does not fit in 64 bits. -/
  | overflow (operation : String)
  | wrongArgumentCount (expected found : Nat)
  deriving DecidableEq

def RuntimeError.message : RuntimeError → String
  | identifierNotFound name => "identifier not found: " ++ name
  | notAFunction type => "not a function: " ++ type
  | unknownUnary op operand => "unknown operator: " ++ op.symbol ++ operand
  | unknownBinary left op right => "unknown operator: " ++ left ++ " " ++ op.symbol ++ " " ++ right
  | typeMismatch left op right => "type mismatch: " ++ left ++ " " ++ op.symbol ++ " " ++ right
  | divisionByZero left => "division by zero: " ++ Integer.text left ++ " / 0"
  | overflow operation => "integer overflow: " ++ operation
  | wrongArgumentCount expected found =>
    "wrong number of arguments: expected " ++ Text.Decimal.encode expected ++ ", got " ++
      Text.Decimal.encode found

/-- Scopes are numbered in the order in which they come to be. -/
abbrev ScopeId := Nat

/-- A function with the scope that it was written in. Each evaluation of a function literal makes a
function of its own, told apart by `id` from all others. -/
structure Closure where
  id : Nat
  parameters : List String
  body : List Stmt
  scope : ScopeId
  deriving DecidableEq

/-- The body stands between blanks even when it is empty. -/
def Closure.render (f : Closure) : String :=
  "fn (" ++ Text.commaSeparated f.parameters ++ ") \x7b " ++ renderStatements f.body ++ " \x7d"

inductive Value where
  | int (value : Int64)
  | bool (value : Bool)
  /-- What a statement or block without a value yields. -/
  | nil
  /-- On its way to the call that it ends. -/
  | returned (value : Value)
  | error (cause : RuntimeError)
  | function (closure : Closure)
  deriving DecidableEq

namespace Value

def typeName : Value → String
  | int _ => "INT"
  | bool _ => "BOOL"
  | nil => "NIL"
  | returned _ => "RETURN"
  | error _ => "EXCEPT"
  | function _ => "FUNCTION"

def isTruthy : Value → Bool
  | nil | bool false => false
  | _ => true

def isError : Value → Bool
  | error _ => true
  | _ => false

/-- Ends what is being evaluated: an error or a `return` on its way. -/
def isAbrupt : Value → Bool
  | error _ | returned _ => true
  | _ => false

/-- The value that a `return` brings to its call; any other value is there already. -/
def arrived : Value → Value
  | returned value => value
  | value => value

def render : Value → String
  | int value => Integer.text value
  | bool value => (Keyword.ofBool value).spelling
  | nil => "nil"
  | returned value => value.render
  | error cause => "Error! " ++ cause.message
  | function closure => closure.render

/-- Functions are identical only to themselves; errors and returns to nothing. -/
def isIdentical : Value → Value → Bool
  | int m, int n => m = n
  | bool a, bool b => a = b
  | nil, nil => true
  | function f, function g => f.id = g.id
  | _, _ => false

/-- Identity, extended to errors by what they say and to returns by what they bring. -/
def isEqual : Value → Value → Bool
  | returned v, returned w => v.isEqual w
  | error e, error f => e = f
  | v, w => v.isIdentical w

end Value

end LetScript
