import LetScript.Diagnostic

/-! The outcome of reading a phrase from the front of a list of tokens. A phrase may
have to be given up, with one diagnostic; a statement that is given up is dropped, and
what follows it is read as if it had not been there. -/
namespace LetScript

/-- What was read, the diagnostics of the statements dropped on the way, and the tokens that are
left, of which there are at most `n`. -/
structure Reading (α : Type) (n : Nat) where
  value : α
  reports : List Diagnostic
  rest : List Token
  length_rest_le : rest.length ≤ n

/-- Reading a phrase that may have to be given up. -/
abbrev Attempt (α : Type) (n : Nat) := Reading (Except Diagnostic α) n

variable {α β : Type} {m n : Nat}

namespace Reading

/-- Nothing is read. -/
def done (value : α) (rest : List Token) : Reading α rest.length :=
  ⟨value, [], rest, Nat.le_refl _⟩

/-- The same reading, of a list that holds `k` more tokens. -/
def after (k : Nat) (r : Reading α n) : Reading α (n + k) :=
  ⟨r.value, r.reports, r.rest, Nat.le_trans r.length_rest_le (Nat.le_add_right n k)⟩

def map (f : α → β) (r : Reading α n) : Reading β n :=
  ⟨f r.value, r.reports, r.rest, r.length_rest_le⟩

/-- Reads on from where `r` stopped. -/
def andThen (r : Reading α n)
    (next : α → (rest : List Token) → rest.length ≤ n → Reading β rest.length) : Reading β n :=
  let s := next r.value r.rest r.length_rest_le
  ⟨s.value, r.reports ++ s.reports, s.rest, Nat.le_trans s.length_rest_le r.length_rest_le⟩

end Reading

namespace Attempt

def succeed (value : α) (rest : List Token) : Attempt α rest.length :=
  .done (.ok value) rest

def giveUp (diagnostic : Diagnostic) (rest : List Token) : Attempt α rest.length :=
  .done (.error diagnostic) rest

def map (f : α → β) (r : Attempt α n) : Attempt β n :=
  Reading.map (Except.map f) r

/-- Reads on from where `r` stopped, unless `r` was given up. -/
def andThen (r : Attempt α n)
    (next : α → (rest : List Token) → rest.length ≤ n → Attempt β rest.length) : Attempt β n :=
  Reading.andThen r fun value rest h =>
    match value with
    | .ok value => next value rest h
    | .error diagnostic => giveUp diagnostic rest

/-- The phrase as a list of one, or of none and a report if it was given up. -/
def settle (r : Attempt α n) : Reading (List α) n :=
  match r.value with
  | .ok value => ⟨[value], r.reports, r.rest, r.length_rest_le⟩
  | .error diagnostic => ⟨[], r.reports ++ [diagnostic], r.rest, r.length_rest_le⟩

end Attempt

end LetScript
