/-! Sets of characters given by ranges of code points, as character properties are
published. -/
namespace LetScript.Text

/-- Closed ranges of code points, each written first to last. -/
structure CharRanges where
  ranges : Array (Nat × Nat)

def CharRanges.contains (table : CharRanges) (c : Char) : Bool :=
  table.ranges.any fun range => range.1 ≤ c.toNat && c.toNat ≤ range.2

end LetScript.Text
