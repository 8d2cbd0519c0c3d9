import LetScript.Text.DefaultIgnorable
import LetScript.Text.GraphemeExtend
import LetScript.Text.Unprintable

/-! Quoted text: a text between double quotes in which nothing is invisible or
ambiguous. Quotes, backslashes and the common controls have short escapes; combining
marks, invisible characters and those that print as nothing definite are written by code
point. -/
namespace LetScript.Text.Quoted

/-- The code point in lower case hexadecimal without leading zeros. -/
def escapeByCode (c : Char) : List Char :=
  ['\\', 'u', '{'] ++ Nat.toDigits 16 c.toNat ++ ['}']

/-- The two halfwidth sound marks of Japanese have the property Grapheme_Extend, but take a place of
their own. -/
def isHalfwidthSoundMark (c : Char) : Bool :=
  c = '\uff9e' || c = '\uff9f'

/-- A mark that is drawn on the character before it. -/
def isCombining (c : Char) : Bool :=
  isGraphemeExtend c && !isHalfwidthSoundMark c

def escape (c : Char) : List Char :=
  if c = '"' then ['\\', '"']
  else if c = '\\' then ['\\', '\\']
  else if c = '\t' then ['\\', 't']
  else if c = '\r' then ['\\', 'r']
  else if c = '\n' then ['\\', 'n']
  else if c.toNat = 0 then ['\\', '0']
  else if isCombining c || isDefaultIgnorable c || isUnprintable c then escapeByCode c
  else [c]

def encode (s : String) : String :=
  String.ofList ('"' :: s.toList.flatMap escape ++ ['"'])

end LetScript.Text.Quoted
