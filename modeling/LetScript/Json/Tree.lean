import LetScript.Json
import LetScript.Tree

/-! Trees as JSON. A tree of any shape has a JSON form; names are not checked on
reading. Of the parts of a record only the alternative of an `if` may be absent. -/
namespace LetScript

namespace UnaryOp

def toJson (op : UnaryOp) : Json := .text op.label

def ofJson? : Json → Option UnaryOp := Json.choice? all label

end UnaryOp

namespace BinaryOp

def toJson (op : BinaryOp) : Json := .text op.label

def ofJson? : Json → Option BinaryOp := Json.choice? all label

end BinaryOp

/-! ### Writing -/

def nameToJson (name : String) : Json :=
  .object [("name", .text name)]

mutual

def Expr.toJson : Expr → Json
  | .name name => .tagged "Ident" (nameToJson name)
  | .int value =>
    .tagged "Literal" (.tagged "Int" (.object [("value", .integer value.toInt)]))
  | .bool value => .tagged "Literal" (.tagged "Bool" (.object [("value", .bool value)]))
  | .unary op operand =>
    .tagged "Prefix" (.object [("op", op.toJson), ("operand", operand.toJson)])
  | .binary op left right =>
    .tagged "Infix"
      (.object [("op", op.toJson), ("left", left.toJson), ("right", right.toJson)])
  | .ifElse condition consequence alternative =>
    .tagged "If" (.object [("condition", condition.toJson),
      ("consequence", .object [("statements", .array (statementsToJson consequence))]),
      ("alternative", elseToJson alternative)])
  | .function parameters body =>
    .tagged "Function" (.object [("parameters", .array (parameters.map nameToJson)),
      ("body", .object [("statements", .array (statementsToJson body))])])
  | .call callee arguments =>
    .tagged "Call"
      (.object [("callee", callee.toJson), ("arguments", .array (exprsToJson arguments))])
termination_by structural expr => expr

def Stmt.toJson : Stmt → Json
  | .bind name value =>
    .tagged "Let" (.object [("name", nameToJson name), ("value", value.toJson)])
  | .ret value => .tagged "Return" (.object [("value", value.toJson)])
  | .expr expr => .tagged "Expr" (.object [("expr", expr.toJson)])
  | .block statements =>
    .tagged "Block" (.object [("statements", .array (statementsToJson statements))])
termination_by structural stmt => stmt

def statementsToJson : List Stmt → List Json
  | [] => []
  | stmt :: rest => stmt.toJson :: statementsToJson rest
termination_by structural statements => statements

def elseToJson : Option (List Stmt) → Json
  | none => .null
  | some statements => .object [("statements", .array (statementsToJson statements))]
termination_by structural alternative => alternative

def exprsToJson : List Expr → List Json
  | [] => []
  | expr :: rest => expr.toJson :: exprsToJson rest
termination_by structural exprs => exprs

end

def Program.toJson (program : Program) : Json :=
  .object [("statements", .array (statementsToJson program.statements))]

/-! ### Reading -/

def nameOfJson? (json : Json) : Option String := do
  let [some name] ← json.record? ["name"] | none
  name.1.text?

def literalOfJson? (json : Json) : Option Expr := do
  let (type, content) ← json.tagged?
  let [some value] ← content.1.record? ["value"] | none
  match type with
  | "Int" => .int <$> value.1.int64?
  | "Bool" => .bool <$> value.1.bool?
  | _ => none

mutual

def Expr.ofJson? (json : Json) : Option Expr := do
  let (name, ⟨content, _⟩) ← json.tagged?
  match name with
  | "Ident" => .name <$> nameOfJson? content
  | "Literal" => literalOfJson? content
  | "Prefix" =>
    let [some ⟨op, _⟩, some ⟨operand, _⟩] ← content.record? ["op", "operand"] | none
    return .unary (← UnaryOp.ofJson? op) (← Expr.ofJson? operand)
  | "Infix" =>
    let [some ⟨op, _⟩, some ⟨left, _⟩, some ⟨right, _⟩] ←
      content.record? ["op", "left", "right"] | none
    return .binary (← BinaryOp.ofJson? op) (← Expr.ofJson? left) (← Expr.ofJson? right)
  | "If" =>
    let [some ⟨condition, _⟩, some ⟨consequence, _⟩, alternative] ←
      content.record? ["condition", "consequence", "alternative"] | none
    let condition ← Expr.ofJson? condition
    let consequence ← blockOfJson? consequence
    match alternative with
    | none | some ⟨.null, _⟩ => return .ifElse condition consequence none
    | some ⟨alternative, _⟩ =>
      return .ifElse condition consequence (some (← blockOfJson? alternative))
  | "Function" =>
    let [some ⟨parameters, _⟩, some ⟨body, _⟩] ← content.record? ["parameters", "body"] | none
    let parameters ← (← parameters.items?).mapM fun parameter => nameOfJson? parameter.1
    return .function parameters (← blockOfJson? body)
  | "Call" =>
    let [some ⟨callee, _⟩, some ⟨arguments, _⟩] ← content.record? ["callee", "arguments"] | none
    let callee ← Expr.ofJson? callee
    return .call callee (← (← arguments.items?).mapM fun ⟨argument, _⟩ => Expr.ofJson? argument)
  | _ => none
termination_by json.size
decreasing_by all_goals omega

def Stmt.ofJson? (json : Json) : Option Stmt := do
  let (name, ⟨content, _⟩) ← json.tagged?
  match name with
  | "Let" =>
    let [some ⟨name, _⟩, some ⟨value, _⟩] ← content.record? ["name", "value"] | none
    return .bind (← nameOfJson? name) (← Expr.ofJson? value)
  | "Return" =>
    let [some ⟨value, _⟩] ← content.record? ["value"] | none
    return .ret (← Expr.ofJson? value)
  | "Expr" =>
    let [some ⟨expr, _⟩] ← content.record? ["expr"] | none
    return .expr (← Expr.ofJson? expr)
  | "Block" => .block <$> blockOfJson? content
  | _ => none
termination_by json.size
decreasing_by all_goals omega

def blockOfJson? (json : Json) : Option (List Stmt) := do
  let [some ⟨statements, _⟩] ← json.record? ["statements"] | none
  (← statements.items?).mapM fun ⟨stmt, _⟩ => Stmt.ofJson? stmt
termination_by json.size
decreasing_by all_goals omega

end

def Program.ofJson? (json : Json) : Option Program :=
  Program.mk <$> blockOfJson? json

end LetScript
