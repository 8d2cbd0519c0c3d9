import LetScript.Text.Decimal

/-! The integers of the language, which are those of 64 bits. -/
namespace LetScript.Integer

/-- The integer that is exactly `exact`, if it fits in 64 bits. -/
def ofExact? (exact : Int) : Option Int64 :=
  if Int64.minValue.toInt ≤ exact ∧ exact ≤ Int64.maxValue.toInt then some (Int64.ofInt exact)
  else none

theorem ofExact?_eq_some_iff {exact : Int} {n : Int64} :
    ofExact? exact = some n ↔ n.toInt = exact := by
  unfold ofExact?
  constructor
  · intro h
    split at h
    · next bounds =>
      cases h
      exact Int64.toInt_ofInt_of_le bounds.1 (Int.lt_add_one_of_le bounds.2)
    · cases h
  · rintro rfl
    rw [if_pos ⟨Int64.minValue_le_toInt n, Int64.toInt_le n⟩, Int64.ofInt_toInt]

/-- What is not negative is too large if it does not fit. -/
theorem lt_of_ofExact?_eq_none {exact : Int} (h : ofExact? exact = none) (hsign : 0 ≤ exact) :
    Int64.maxValue.toInt < exact := by
  unfold ofExact? at h
  split at h
  · cases h
  · next hbounds =>
    have hleast : Int64.minValue.toInt ≤ exact := Int.le_trans (by decide) hsign
    exact Int.not_le.mp fun hle => hbounds ⟨hleast, hle⟩

def text (n : Int64) : String :=
  Text.Decimal.encode n.toInt

end LetScript.Integer
