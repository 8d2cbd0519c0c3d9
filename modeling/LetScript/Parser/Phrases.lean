import LetScript.Integer
import LetScript.Parser.Precedence
import LetScript.Parser.Reading
import LetScript.Tree

/-! Reading the phrases of the language: expressions, blocks and statements. Each
function takes the tokens from where its phrase starts and leaves those after its end.
Where a required token is missing, that token's place is where reading goes on; a token
that no expression starts with is passed over. -/
namespace LetScript.Phrase

open Attempt (succeed giveUp)

def nextKind : List Token → TokenKind
  | [] => .eof
  | token :: _ => token.kind

/-- A token of the kind that is required here. -/
def expect (kind : TokenKind) (ts : List Token) : Attempt Token ts.length :=
  match ts with
  | [] => giveUp (.unexpectedToken kind .eof) []
  | token :: rest =>
    if token.kind = kind then Reading.after 1 (succeed token rest)
    else giveUp (.unexpectedToken kind token.kind) (token :: rest)

def integer (literal : String) (rest : List Token) : Attempt Expr rest.length :=
  match Integer.ofExact? (Text.Decimal.value literal.toList) with
  | some value => succeed (.int value) rest
  | none => giveUp (.integerTooLarge literal) rest

/-- A statement ends with a semicolon or without one. -/
def ended (stmt : Stmt) (ts : List Token) : Attempt Stmt ts.length :=
  match ts with
  | ⟨.semicolon, _⟩ :: rest => Reading.after 1 (succeed stmt rest)
  | ts => succeed stmt ts

/-- The parameters after one, to the closing parenthesis. -/
def moreParameters (ts : List Token) : Attempt (List String) ts.length :=
  match ts with
  | ⟨.comma, _⟩ :: ts =>
    Reading.after 1 <| (expect .identifier ts).andThen fun name rest _ =>
      (moreParameters rest).map (name.literal :: ·)
  | ts => (expect .parenRight ts).map fun _ => []
termination_by ts.length
decreasing_by
  simp only [List.length_cons]
  omega

/-- Parameters, after the opening parenthesis. -/
def parameters (ts : List Token) : Attempt (List String) ts.length :=
  match ts with
  | ⟨.parenRight, _⟩ :: ts => Reading.after 1 (succeed [] ts)
  | ts =>
    (expect .identifier ts).andThen fun name rest _ =>
      (moreParameters rest).map (name.literal :: ·)

mutual

def expr (min : Precedence) (ts : List Token) : Attempt Expr ts.length :=
  match ts with
  | [] => giveUp (.noExpression .eof) []
  | first :: ts => Reading.after 1 (exprFrom min first ts)
termination_by 4 * ts.length
decreasing_by
  simp only [List.length_cons]
  omega

/-- An expression that starts with the token `first`. -/
def exprFrom (min : Precedence) (first : Token) (ts : List Token) : Attempt Expr ts.length :=
  (operand first ts).andThen fun left rest _ => operators min left rest
termination_by 4 * ts.length + 2
decreasing_by all_goals omega

/-- What the token `first` starts, without the operators after it. -/
def operand (first : Token) (ts : List Token) : Attempt Expr ts.length :=
  match first.kind with
  | .identifier => succeed (.name first.literal) ts
  | .int => integer first.literal ts
  | .keyword .trueWord => succeed (.bool true) ts
  | .keyword .falseWord => succeed (.bool false) ts
  | .bang => (expr .unary ts).map (.unary .not)
  | .minus => (expr .unary ts).map (.unary .minus)
  | .parenLeft =>
    (expr .lowest ts).andThen fun inner rest _ =>
      (expect .parenRight rest).map fun _ => inner
  | .keyword .ifWord =>
    (expect .parenLeft ts).andThen fun _ ts _ =>
    (expr .lowest ts).andThen fun condition ts _ =>
    (expect .parenRight ts).andThen fun _ ts _ =>
    (expect .braceLeft ts).andThen fun _ ts _ =>
    (block ts).andThen fun consequence ts _ =>
      (alternative ts).map (.ifElse condition consequence)
  | .keyword .fnWord =>
    (expect .parenLeft ts).andThen fun _ ts _ =>
    (parameters ts).andThen fun parameters ts _ =>
    (expect .braceLeft ts).andThen fun _ ts _ =>
    (block ts).andThen fun body ts _ =>
      succeed (.function parameters body) ts
  | kind => giveUp (.noExpression kind) ts
termination_by 4 * ts.length + 1
decreasing_by all_goals omega

/-- Continues `left` with the operators that bind tighter than `min`. A token that binds and is no
binary operator is the opening parenthesis of a call. -/
def operators (min : Precedence) (left : Expr) (ts : List Token) : Attempt Expr ts.length :=
  match ts with
  | [] => succeed left []
  | token :: ts =>
    if min.rank < (Precedence.ofKind token.kind).rank then
      match BinaryOp.ofKind? token.kind with
      | some op =>
        Reading.after 1 <| (expr (.ofKind token.kind) ts).andThen fun right rest _ =>
          operators min (.binary op left right) rest
      | none =>
        Reading.after 1 <| (arguments ts).andThen fun arguments rest _ =>
          operators min (.call left arguments) rest
    else succeed left (token :: ts)
termination_by 4 * ts.length
decreasing_by all_goals (simp only [List.length_cons]; omega)

/-- Arguments, after the opening parenthesis. -/
def arguments (ts : List Token) : Attempt (List Expr) ts.length :=
  match ts with
  | ⟨.parenRight, _⟩ :: ts => Reading.after 1 (succeed [] ts)
  | ts =>
    (expr .lowest ts).andThen fun argument rest _ =>
      (moreArguments rest).map (argument :: ·)
termination_by 4 * ts.length + 1
decreasing_by all_goals omega

/-- The arguments after one, to the closing parenthesis. -/
def moreArguments (ts : List Token) : Attempt (List Expr) ts.length :=
  match ts with
  | ⟨.comma, _⟩ :: ts =>
    Reading.after 1 <| (expr .lowest ts).andThen fun argument rest _ =>
      (moreArguments rest).map (argument :: ·)
  | ts => (expect .parenRight ts).map fun _ => []
termination_by 4 * ts.length
decreasing_by all_goals (simp only [List.length_cons]; omega)

/-- The statements of a block, after its opening brace, and the closing brace unless the text ends
first. -/
def block (ts : List Token) : Reading (List Stmt) ts.length :=
  match ts with
  | [] => .done [] []
  | first :: ts =>
    if first.kind = .braceRight then Reading.after 1 (.done [] ts)
    else
      Reading.after 1 <| (statement first ts).settle.andThen fun stmts rest _ =>
        (block rest).map (stmts ++ ·)
termination_by 4 * ts.length
decreasing_by all_goals (simp only [List.length_cons]; omega)

/-- The block after `else`, where that word follows. -/
def alternative (ts : List Token) : Attempt (Option (List Stmt)) ts.length :=
  match ts with
  | ⟨.keyword .elseWord, _⟩ :: ts =>
    Reading.after 1 <| (expect .braceLeft ts).andThen fun _ ts _ =>
      (block ts).andThen fun stmts rest _ => succeed (some stmts) rest
  | ts => succeed none ts
termination_by 4 * ts.length
decreasing_by all_goals (simp only [List.length_cons]; omega)

/-- A statement that starts with the token `first`. -/
def statement (first : Token) (ts : List Token) : Attempt Stmt ts.length :=
  match first.kind with
  | .keyword .letWord =>
    (expect .identifier ts).andThen fun name ts _ =>
    (expect .equal ts).andThen fun _ ts _ =>
    (expr .lowest ts).andThen fun value ts _ =>
      ended (.bind name.literal value) ts
  | .keyword .returnWord =>
    (expr .lowest ts).andThen fun value ts _ => ended (.ret value) ts
  | _ => (exprFrom .lowest first ts).andThen fun value ts _ => ended (.expr value) ts
termination_by 4 * ts.length + 3
decreasing_by all_goals omega

end

/-- The statements of a whole text. -/
def statements (ts : List Token) : Reading (List Stmt) ts.length :=
  match ts with
  | [] => .done [] []
  | first :: ts =>
    Reading.after 1 <| (statement first ts).settle.andThen fun stmts rest _ =>
      (statements rest).map (stmts ++ ·)
termination_by ts.length
decreasing_by
  simp only [List.length_cons]
  omega

end LetScript.Phrase
