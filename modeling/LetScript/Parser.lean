import LetScript.Parser.Phrases
import LetScript.Token.Lexer

/-! From text to tree. Parsing does not stop at what is wrong: the statements that could
be read make a tree in any case, and a text is a program only if nothing in it was
reported. -/
namespace LetScript

/-- A text part of the way to a tree: the tokens not read so far and what was reported. -/
structure Parser where
  tokens : List Token
  diagnostics : List Diagnostic

namespace Parser

def ofText (text : String) : Parser :=
  ⟨Lexer.tokens text.toList, []⟩

/-- Reads to the end of the text. -/
def program (parser : Parser) : Program × Parser :=
  let r := Phrase.statements parser.tokens
  (⟨r.value⟩, ⟨r.rest, parser.diagnostics ++ r.reports⟩)

end Parser

/-- The program that a text is, or all that is wrong with it. -/
def Program.parse (text : String) : Except (List Diagnostic) Program :=
  let (program, parser) := (Parser.ofText text).program
  if parser.diagnostics.isEmpty then .ok program else .error parser.diagnostics

end LetScript
