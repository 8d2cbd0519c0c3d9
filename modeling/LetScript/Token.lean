/-! Tokens: the reserved words, the kinds of token, and the names by which diagnostics
call them. -/
namespace LetScript

inductive Keyword where
  | fnWord
  | letWord
  | trueWord
  | falseWord
  | ifWord
  | elseWord
  | returnWord
  deriving DecidableEq

namespace Keyword

def all : List Keyword :=
  [fnWord, letWord, trueWord, falseWord, ifWord, elseWord, returnWord]

def spelling : Keyword → String
  | fnWord => "fn"
  | letWord => "let"
  | trueWord => "true"
  | falseWord => "false"
  | ifWord => "if"
  | elseWord => "else"
  | returnWord => "return"

/-- The reserved word so spelled. Case matters. -/
def ofSpelling? (word : String) : Option Keyword :=
  all.find? fun keyword => keyword.spelling = word

theorem ofSpelling?_eq_some_iff {word : String} {keyword : Keyword} :
    ofSpelling? word = some keyword ↔ keyword.spelling = word := by
  constructor
  · intro h
    simpa using List.find?_some h
  · rintro rfl
    cases keyword <;> rfl

/-- The word for a truth value. -/
def ofBool (value : Bool) : Keyword :=
  if value then trueWord else falseWord

def displayName : Keyword → String
  | fnWord => "FUNCTION"
  | letWord => "LET"
  | trueWord => "TRUE"
  | falseWord => "FALSE"
  | ifWord => "IF"
  | elseWord => "ELSE"
  | returnWord => "RETURN"

end Keyword

inductive TokenKind where
  | illegal
  | eof
  | identifier
  | int
  | equal
  | plus
  | minus
  | bang
  | star
  | slash
  | less
  | greater
  | equalEqual
  | bangEqual
  | comma
  | semicolon
  | parenLeft
  | parenRight
  | braceLeft
  | braceRight
  | keyword (word : Keyword)
  deriving DecidableEq

namespace TokenKind

/-- A word is the keyword so spelled, and otherwise an identifier. -/
def ofWord (word : String) : TokenKind :=
  match Keyword.ofSpelling? word with
  | some reserved => keyword reserved
  | none => identifier

def displayName : TokenKind → String
  | illegal => "ILLEGAL"
  | eof => "EOF"
  | identifier => "IDENT"
  | int => "INT"
  | equal => "ASSIGN"
  | plus => "PLUS"
  | minus => "MINUS"
  | bang => "BANG"
  | star => "ASTERISK"
  | slash => "SLASH"
  | less => "LT"
  | greater => "GT"
  | equalEqual => "EQ"
  | bangEqual => "NOT_EQ"
  | comma => "COMMA"
  | semicolon => "SEMICOLON"
  | parenLeft => "LPAREN"
  | parenRight => "RPAREN"
  | braceLeft => "LBRACE"
  | braceRight => "RBRACE"
  | keyword word => word.displayName

end TokenKind

/-- A kind with the text it stands for. -/
structure Token where
  kind : TokenKind
  literal : String
  deriving DecidableEq

/-- Stands after the last token of a text. -/
def Token.eof : Token := ⟨.eof, ""⟩

end LetScript
