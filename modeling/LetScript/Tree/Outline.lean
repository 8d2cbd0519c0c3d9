import LetScript.Integer
import LetScript.Text.Outline
import LetScript.Text.Quoted
import LetScript.Tree

/-! The outline of a tree. -/
namespace LetScript

open Text.Outline

def nameOutline (name : String) : String :=
  record "Identifier" [field "name" (Text.Quoted.encode name)]

def blockOutline (statements : List String) : String :=
  record "StmtBlock" [field "statements" (list statements)]

mutual

def Expr.outline : Expr → String
  | .name name => variant "Ident" (nameOutline name)
  | .int value =>
    variant "Literal" (variant "Int"
      (record "LitInt" [field "value" (Integer.text value)]))
  | .bool value =>
    variant "Literal" (variant "Bool"
      (record "LitBool" [field "value" (Keyword.ofBool value).spelling]))
  | .unary op operand =>
    variant "Prefix" (record "ExprPrefix" [field "op" op.label, field "operand" operand.outline])
  | .binary op left right =>
    variant "Infix" (record "ExprInfix"
      [field "op" op.label, field "left" left.outline, field "right" right.outline])
  | .ifElse condition consequence alternative =>
    variant "If" (record "ExprIf" [field "condition" condition.outline,
      field "consequence" (blockOutline (statementOutlines consequence)),
      field "alternative" (elseOutline alternative)])
  | .function parameters body =>
    variant "Function" (record "ExprFunction"
      [field "parameters" (list (parameters.map nameOutline)),
        field "body" (blockOutline (statementOutlines body))])
  | .call callee arguments =>
    variant "Call" (record "ExprCall"
      [field "callee" callee.outline, field "arguments" (list (exprOutlines arguments))])
termination_by structural expr => expr

def Stmt.outline : Stmt → String
  | .bind name value =>
    variant "Let" (record "StmtLet" [field "name" (nameOutline name), field "value" value.outline])
  | .ret value => variant "Return" (record "StmtReturn" [field "value" value.outline])
  | .expr expr => variant "Expr" (record "StmtExpr" [field "expr" expr.outline])
  | .block statements => variant "Block" (blockOutline (statementOutlines statements))
termination_by structural stmt => stmt

def statementOutlines : List Stmt → List String
  | [] => []
  | stmt :: rest => stmt.outline :: statementOutlines rest
termination_by structural statements => statements

def elseOutline : Option (List Stmt) → String
  | none => "None"
  | some statements => variant "Some" (blockOutline (statementOutlines statements))
termination_by structural alternative => alternative

def exprOutlines : List Expr → List String
  | [] => []
  | expr :: rest => expr.outline :: exprOutlines rest
termination_by structural exprs => exprs

end

end LetScript
