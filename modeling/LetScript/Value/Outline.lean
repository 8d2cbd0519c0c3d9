import LetScript.Tree.Outline
import LetScript.Value

/-! The outlines of values. That of a function leaves its scope out, in which the
function itself may be bound. -/
namespace LetScript

open Text (Quoted.encode Decimal.encode)
open Text.Outline

def RuntimeError.outline : RuntimeError → String
  | identifierNotFound name => variant "IdentifierNotFound" (Quoted.encode name)
  | notAFunction type => variant "NotAFunction" (Quoted.encode type)
  | unknownUnary op operand =>
    record "UnknownPrefixOperator"
      [field "op" op.label, field "operand" (Quoted.encode operand)]
  | unknownBinary left op right =>
    record "UnknownInfixOperator" [field "left" (Quoted.encode left), field "op" op.label,
      field "right" (Quoted.encode right)]
  | typeMismatch left op right =>
    record "TypeMismatch" [field "left" (Quoted.encode left), field "op" op.label,
      field "right" (Quoted.encode right)]
  | divisionByZero left => record "DivisionByZero" [field "left" (Integer.text left)]
  | overflow operation => record "Overflow" [field "expr" (Quoted.encode operation)]
  | wrongArgumentCount expected found =>
    record "WrongArgumentCount"
      [field "expected" (Decimal.encode expected), field "found" (Decimal.encode found)]

def Closure.outline (f : Closure) : String :=
  record "Function" [field "parameters" (list (f.parameters.map nameOutline)),
    field "body" (blockOutline (statementOutlines f.body)), ".."]

def Value.outline : Value → String
  | int value => variant "Int" (Integer.text value)
  | bool value => variant "Bool" (Keyword.ofBool value).spelling
  | nil => "Nil"
  | returned value => variant "Return" value.outline
  | error cause => variant "Error" cause.outline
  | function closure => variant "Function" closure.outline

end LetScript
