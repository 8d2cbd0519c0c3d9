import LetScript.Integer

/-! JSON values, and how data is laid out in them. A record is an object with a field
for each part; one of several alternatives is an object with a single field named for
it, or just that name where there is nothing more to say. -/
namespace LetScript

inductive Json where
  | null
  | bool (value : Bool)
  | integer (value : Int)
  /-- A number that is not written as an integer, `mantissa` times ten to the `exponent`. -/
  | decimal (mantissa exponent : Int)
  | text (value : String)
  | array (items : List Json)
  | object (fields : List (String × Json))

namespace Json

/-! ### Parts of a value -/

mutual

def size : Json → Nat
  | array items => itemsSize items + 1
  | object fields => fieldsSize fields + 1
  | _ => 1
termination_by structural json => json

def itemsSize : List Json → Nat
  | [] => 0
  | item :: rest => item.size + itemsSize rest
termination_by structural items => items

def fieldsSize : List (String × Json) → Nat
  | [] => 0
  | (_, value) :: rest => value.size + fieldsSize rest
termination_by structural fields => fields

end

theorem size_le_itemsSize {item : Json} :
    ∀ {items : List Json}, item ∈ items → item.size ≤ itemsSize items
  | _ :: _, h => by
    rcases List.mem_cons.1 h with rfl | h
    · exact Nat.le_add_right _ _
    · exact Nat.le_trans (size_le_itemsSize h) (Nat.le_add_left _ _)

theorem size_le_fieldsSize {field : String × Json} :
    ∀ {fields : List (String × Json)}, field ∈ fields → field.2.size ≤ fieldsSize fields
  | _ :: _, h => by
    rcases List.mem_cons.1 h with rfl | h
    · exact Nat.le_add_right _ _
    · exact Nat.le_trans (size_le_fieldsSize h) (Nat.le_add_left _ _)

/-- A value inside of another. -/
abbrev Part (json : Json) := { part : Json // part.size < json.size }

def items? (json : Json) : Option (List json.Part) :=
  match json with
  | array items =>
    some <| items.attach.map fun ⟨item, h⟩ =>
      ⟨item, Nat.lt_succ_of_le (size_le_itemsSize h)⟩
  | _ => none

def fields? (json : Json) : Option (List (String × json.Part)) :=
  match json with
  | object fields =>
    some <| fields.attach.map fun ⟨field, h⟩ =>
      (field.1, ⟨field.2, Nat.lt_succ_of_le (size_le_fieldsSize h)⟩)
  | _ => none

/-! ### Writing -/

/-- The alternative `name` with its content. -/
def tagged (name : String) (content : Json) : Json :=
  object [(name, content)]

/-! ### Reading -/

def text? : Json → Option String
  | text value => some value
  | _ => none

def bool? : Json → Option Bool
  | bool value => some value
  | _ => none

/-- An integer of 64 bits. -/
def int64? : Json → Option Int64
  | integer value => Integer.ofExact? value
  | _ => none

/-- The fields `names` of an object, in that order; a field that is absent has no value. There may be
further fields, but none of these twice. -/
def named? (json : Json) (names : List String) : Option (List (Option json.Part)) := do
  let fields ← json.fields?
  names.mapM fun name =>
    match fields.filter fun field => field.1 = name with
    | [] => some none
    | [field] => some (some field.2)
    | _ => none

/-- The parts of a record with the fields `names`. They may also be given without names, as an
array. -/
def record? (json : Json) (names : List String) : Option (List (Option json.Part)) :=
  match json.items? with
  | some items => if items.length = names.length then some (items.map some) else none
  | none => json.named? names

/-- An alternative with its content. -/
def tagged? (json : Json) : Option (String × json.Part) :=
  match json.fields? with
  | some [field] => some field
  | _ => none

/-- The name of an alternative that has no content. -/
def bareTag? : Json → Option String
  | text name => some name
  | object [(name, null)] => some name
  | _ => none

/-- One of finitely many alternatives without content, each known by its label. -/
def choice? {α : Type} (choices : List α) (label : α → String) (json : Json) : Option α :=
  json.bareTag?.bind fun name => choices.find? fun choice => label choice = name

end Json

end LetScript
