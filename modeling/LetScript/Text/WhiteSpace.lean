import LetScript.Text.CharRanges

/-! White space: the characters with the Unicode property White_Space, and texts made of
them. -/
namespace LetScript.Text

/-- The White_Space code points. -/
def whiteSpace : CharRanges := ⟨#[
  (0x9, 0xD), (0x20, 0x20), (0x85, 0x85), (0xA0, 0xA0), (0x1680, 0x1680), (0x2000, 0x200A),
  (0x2028, 0x2029), (0x202F, 0x202F), (0x205F, 0x205F), (0x3000, 0x3000)]⟩

/-- Has the property White_Space. -/
def isWhiteSpace (c : Char) : Bool :=
  whiteSpace.contains c

def isBlankText (s : String) : Bool :=
  s.toList.all isWhiteSpace

end LetScript.Text
