/-! Lists of texts with commas between them. -/
namespace LetScript.Text

def commaSeparated : List String → String
  | [] => ""
  | [item] => item
  | item :: next :: rest => item ++ ", " ++ commaSeparated (next :: rest)

end LetScript.Text
