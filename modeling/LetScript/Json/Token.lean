import LetScript.Json
import LetScript.Diagnostic

/-! Tokens and diagnostics as JSON. What a diagnostic speaks of is always named. -/
namespace LetScript

namespace Keyword

def label : Keyword → String
  | fnWord => "Fn"
  | letWord => "Let"
  | trueWord => "True"
  | falseWord => "False"
  | ifWord => "If"
  | elseWord => "Else"
  | returnWord => "Return"

def toJson (word : Keyword) : Json := .text word.label

def ofJson? : Json → Option Keyword := Json.choice? all label

end Keyword

namespace TokenKind

/-- The kinds that are not a reserved word, with their labels. -/
def labels : List (TokenKind × String) :=
  [(illegal, "Illegal"), (eof, "Eof"), (identifier, "Identifier"), (int, "Int"), (equal, "Equal"),
    (plus, "Plus"), (minus, "Minus"), (bang, "Bang"), (star, "Star"), (slash, "SlashForward"),
    (less, "Less"), (greater, "Greater"), (equalEqual, "EqualEqual"), (bangEqual, "BangEqual"),
    (comma, "Comma"), (semicolon, "Semicolon"), (parenLeft, "ParenLeft"),
    (parenRight, "ParenRight"), (braceLeft, "BraceLeft"), (braceRight, "BraceRight")]

def toJson : TokenKind → Json
  | keyword word => .tagged "Keyword" word.toJson
  | kind => .text ((labels.lookup kind).getD "")

def ofJson? (json : Json) : Option TokenKind :=
  match json.tagged? with
  | some ("Keyword", word) => keyword <$> Keyword.ofJson? word
  | _ => Prod.fst <$> json.choice? labels Prod.snd

end TokenKind

namespace Token

def toJson (token : Token) : Json :=
  .object [("kind", token.kind.toJson), ("literal", .text token.literal)]

def ofJson? (json : Json) : Option Token := do
  let [some kind, some literal] ← json.record? ["kind", "literal"] | none
  return ⟨← TokenKind.ofJson? kind, ← literal.1.text?⟩

end Token

namespace Diagnostic

def toJson : Diagnostic → Json
  | unexpectedToken expected found =>
    .tagged "UnexpectedToken" (.object [("expected", expected.toJson), ("found", found.toJson)])
  | noExpression found => .tagged "NoPrefixRule" (.object [("found", found.toJson)])
  | integerTooLarge literal => .tagged "InvalidInteger" (.object [("literal", .text literal)])

def ofJson? (json : Json) : Option Diagnostic := do
  let (name, content) ← json.tagged?
  match name with
  | "UnexpectedToken" =>
    let [some expected, some found] ← content.1.named? ["expected", "found"] | none
    return unexpectedToken (← TokenKind.ofJson? expected) (← TokenKind.ofJson? found)
  | "NoPrefixRule" =>
    let [some found] ← content.1.named? ["found"] | none
    return noExpression (← TokenKind.ofJson? found)
  | "InvalidInteger" =>
    let [some literal] ← content.1.named? ["literal"] | none
    return integerTooLarge (← literal.1.text?)
  | _ => none

end Diagnostic

end LetScript
