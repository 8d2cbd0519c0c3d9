import LetScript.Text.Alphabetic
import LetScript.Token

/-! Cutting a text into tokens. Blanks only separate; every other character belongs to
the longest token that can start where the one before it ended. A word is a run of
letters and underscores, a number a run of digits, and a character that no token starts
with is an illegal token of its own. -/
namespace LetScript

namespace Lexer

def isBlank (c : Char) : Bool :=
  c = ' ' || c = '\t' || c = '\r' || c = '\n'

def isWordChar (c : Char) : Bool :=
  Text.isAlphabetic c || c = '_'

/-- The kind of a character that is a token by itself. -/
def symbol? : Char → Option TokenKind
  | '=' => some .equal
  | '+' => some .plus
  | '-' => some .minus
  | '!' => some .bang
  | '*' => some .star
  | '/' => some .slash
  | '<' => some .less
  | '>' => some .greater
  | ',' => some .comma
  | ';' => some .semicolon
  | '(' => some .parenLeft
  | ')' => some .parenRight
  | '{' => some .braceLeft
  | '}' => some .braceRight
  | _ => none

def word (letters : List Char) : Token :=
  let literal := String.ofList letters
  ⟨.ofWord literal, literal⟩

/-- The token that starts with `c` when `rest` follows, and what is left after it. -/
def tokenAt (c : Char) (rest : List Char) : Token × List Char :=
  match c, rest with
  | '=', '=' :: rest => (⟨.equalEqual, "=="⟩, rest)
  | '!', '=' :: rest => (⟨.bangEqual, "!="⟩, rest)
  | c, rest =>
    match symbol? c with
    | some kind => (⟨kind, String.singleton c⟩, rest)
    | none =>
      if isWordChar c then
        (word (c :: rest.takeWhile isWordChar), rest.dropWhile isWordChar)
      else if c.isDigit then
        (⟨.int, String.ofList (c :: rest.takeWhile Char.isDigit)⟩, rest.dropWhile Char.isDigit)
      else
        (⟨.illegal, String.singleton c⟩, rest)

theorem length_dropWhile_le (p : Char → Bool) (cs : List Char) :
    (cs.dropWhile p).length ≤ cs.length :=
  (List.dropWhile_suffix p).length_le

theorem length_tokenAt_le (c : Char) (rest : List Char) :
    (tokenAt c rest).2.length ≤ rest.length := by
  unfold tokenAt
  split
  · simp
  · simp
  · split
    · exact Nat.le_refl _
    · split
      · exact length_dropWhile_le _ _
      · split
        · exact length_dropWhile_le _ _
        · exact Nat.le_refl _

/-- The tokens of a text, the mark of its end left out. -/
def tokens (cs : List Char) : List Token :=
  match _h : cs.dropWhile isBlank with
  | [] => []
  | c :: rest => (tokenAt c rest).1 :: tokens (tokenAt c rest).2
termination_by cs.length
decreasing_by
  have := length_tokenAt_le c rest
  have := length_dropWhile_le isBlank cs
  simp_all only [List.length_cons]
  omega

end Lexer

/-- What is left to cut of a text. -/
structure Lexer where
  remaining : List Char

namespace Lexer

def ofText (text : String) : Lexer := ⟨text.toList⟩

/-- The next token. At the end of the text that is the mark of its end, however often asked. -/
def nextToken (lexer : Lexer) : Token × Lexer :=
  match lexer.remaining.dropWhile isBlank with
  | [] => (.eof, ⟨[]⟩)
  | c :: rest => ((tokenAt c rest).1, ⟨(tokenAt c rest).2⟩)

/-- The next token, or none at the end of the text. -/
def next? (lexer : Lexer) : Option Token × Lexer :=
  let (token, lexer) := lexer.nextToken
  (if token.kind = .eof then none else some token, lexer)

/-- All the tokens that are left. -/
def collect (lexer : Lexer) : List Token × Lexer :=
  (tokens lexer.remaining, ⟨[]⟩)

end Lexer

/-- The tokens of a text and, last, the mark of its end. -/
def tokenize (text : String) : List Token :=
  Lexer.tokens text.toList ++ [.eof]

end LetScript
