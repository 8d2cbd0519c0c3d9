import LetScript.Text.CommaSeparated

/-! Outlines: texts that show how a piece of data is built, by the names of its types,
alternatives and fields. -/
namespace LetScript.Text.Outline

/-- An alternative with its content. -/
def variant (name content : String) : String :=
  name ++ "(" ++ content ++ ")"

def field (name content : String) : String :=
  name ++ ": " ++ content

def record (name : String) (fields : List String) : String :=
  name ++ " \x7b " ++ commaSeparated fields ++ " \x7d"

def list (items : List String) : String :=
  "[" ++ commaSeparated items ++ "]"

end LetScript.Text.Outline
