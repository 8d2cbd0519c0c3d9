import LetScript.Json
import Mathlib.Data.List.Forall2
import Mathlib.Data.List.Perm.Basic

/-! Other JSON values with the same content: the fields of objects in another order, further
fields in records, no field `alternative` where it is null, and so on inside. Whoever looks
up the fields of a record by name finds in all of them what there was. -/
namespace LetScript.Json

/-- The names of all alternatives with content. -/
def alternatives : List String :=
  ["Let", "Return", "Expr", "Block", "Ident", "Literal", "Int", "Bool", "Prefix", "Infix", "If",
    "Function", "Call", "Keyword", "UnexpectedToken", "NoPrefixRule", "InvalidInteger"]

/-- The object is for one of the alternatives. All others are records. -/
def IsAlternative (fields : List (String × Json)) : Prop :=
  ∃ name ∈ alternatives, fields.map Prod.fst = [name]

/-- The fields have the same names, in order, and related values, except that `alternative` can be
left out where it is null. -/
inductive Keeps (R : Json → Json → Prop) : List (String × Json) → List (String × Json) → Prop where
  | nil : Keeps R [] []
  | keep {name value value' rest rest'} (h : R value value') (hrest : Keeps R rest rest') :
      Keeps R ((name, value) :: rest) ((name, value') :: rest')
  | leave {rest rest'} (hrest : Keeps R rest rest') :
      Keeps R (("alternative", null) :: rest) rest'

/-- The second value comes from the first by reordering fields, by adding fields to records under
names that these do not have, and by leaving out `alternative` where it is null. -/
inductive Reshapes : Json → Json → Prop where
  | same {json} : Reshapes json json
  | array {items items'} (h : List.Forall₂ Reshapes items items') :
      Reshapes (.array items) (.array items')
  | object {fields kept added fields'} (hkept : Keeps Reshapes fields kept)
      (hadded : ∀ field ∈ added, ¬ IsAlternative fields ∧ field.1 ∉ fields.map Prod.fst)
      (horder : fields'.Perm (kept ++ added)) : Reshapes (.object fields) (.object fields')

variable {fields fields' kept : List (String × Json)} {name : String} {value json : Json}

/-! ### Fields by name -/

/-- The fields with the name. -/
def fieldsOf (name : String) (fields : List (String × Json)) : List (String × Json) :=
  fields.filter fun field => field.1 = name

theorem fieldsOf_eq_nil (h : name ∉ fields.map Prod.fst) : fieldsOf name fields = [] := by
  refine List.filter_eq_nil_iff.mpr fun field hfield => ?_
  simpa using fun heq : field.1 = name => h (heq ▸ List.mem_map_of_mem hfield)

theorem fieldsOf_cons_self (h : name ∉ fields.map Prod.fst) :
    fieldsOf name ((name, value) :: fields) = [(name, value)] := by
  rw [fieldsOf, List.filter_cons_of_pos (by simp), ← fieldsOf, fieldsOf_eq_nil h]

theorem fieldsOf_cons_of_ne {other : String} (h : other ≠ name) :
    fieldsOf name ((other, value) :: fields) = fieldsOf name fields :=
  List.filter_cons_of_neg (by simpa using h)

namespace Keeps

variable {R : Json → Json → Prop}

theorem same (h : ∀ json, R json json) (fields : List (String × Json)) : Keeps R fields fields := by
  induction fields with
  | nil => exact .nil
  | cons field rest ih => exact .keep (h field.2) ih

theorem sublist_names (h : Keeps R fields kept) :
    (kept.map Prod.fst).Sublist (fields.map Prod.fst) := by
  induction h with
  | nil => exact .slnil
  | keep _ _ ih => exact ih.cons_cons _
  | leave _ ih => exact ih.cons _

/-- There is one field where there was one, unless it was an `alternative` that is null. -/
theorem fieldsOf (h : Keeps R fields kept) (hnames : (fields.map Prod.fst).Nodup)
    (hfield : (name, value) ∈ fields) :
    (∃ value', R value value' ∧ Json.fieldsOf name kept = [(name, value')]) ∨
      (name, value) = ("alternative", null) ∧ Json.fieldsOf name kept = [] := by
  induction h with
  | nil => cases hfield
  | @keep first _ value' rest rest' hvalue hrest ih =>
    obtain ⟨hfirst, hnames⟩ := List.nodup_cons.mp hnames
    cases hfield with
    | head => exact .inl ⟨value', hvalue,
        fieldsOf_cons_self fun hmem => hfirst (hrest.sublist_names.subset hmem)⟩
    | tail _ hmem =>
      have hne : first ≠ name := by
        rintro rfl
        exact hfirst (List.mem_map.mpr ⟨_, hmem, rfl⟩)
      rw [fieldsOf_cons_of_ne hne]
      exact ih hnames hmem
  | leave hrest ih =>
    obtain ⟨hfirst, hnames⟩ := List.nodup_cons.mp hnames
    cases hfield with
    | head => exact .inr ⟨rfl, fieldsOf_eq_nil fun hmem => hfirst (hrest.sublist_names.subset hmem)⟩
    | tail _ hmem => exact ih hnames hmem

end Keeps

/-- Look-ups go by the order of fields as little as by what is added under other names. -/
theorem fieldsOf_perm {added : List (String × Json)} (horder : fields'.Perm (kept ++ added))
    (hadded : name ∉ added.map Prod.fst) :
    (fieldsOf name fields').Perm (fieldsOf name kept) := by
  have hperm := horder.filter fun field => field.1 = name
  rwa [List.filter_append, ← fieldsOf, ← fieldsOf, ← fieldsOf, fieldsOf_eq_nil hadded,
    List.append_nil] at hperm

/-! ### Looking up parts -/

/-- What a look-up gives for a field: the part that the value was reshaped to, or nothing for an
`alternative` that is null. -/
inductive Finds (whole : Json) : String × Json → Option whole.Part → Prop where
  | present {name : String} {value : Json} {part : whole.Part} (h : value.Reshapes part.1) :
      Finds whole (name, value) (some part)
  | absent : Finds whole ("alternative", null) none

theorem Finds.exists_part {whole : Json} {part : Option whole.Part}
    (h : Finds whole (name, value) part) (hname : name ≠ "alternative") :
    ∃ found : whole.Part, part = some found ∧ value.Reshapes found.1 := by
  cases h with
  | present h => exact ⟨_, rfl, h⟩
  | absent => exact absurd rfl hname

theorem exists_eq_map_some {whole : Json} {found : List (Option whole.Part)}
    (h : List.Forall₂ (Finds whole) fields found)
    (halternative : "alternative" ∉ fields.map Prod.fst) :
    ∃ parts, found = parts.map some ∧
      List.Forall₂ (fun field part => field.2.Reshapes part.1) fields parts := by
  induction h with
  | nil => exact ⟨[], rfl, .nil⟩
  | cons hfirst _ ih =>
    obtain ⟨part, rfl, hpart⟩ := hfirst.exists_part (Ne.symm (List.ne_of_not_mem_cons halternative))
    obtain ⟨parts, rfl, hparts⟩ := ih (List.not_mem_of_not_mem_cons halternative)
    exact ⟨part :: parts, rfl, .cons hpart hparts⟩

/-- Parts that can be found one by one are found together. -/
theorem exists_mapM_eq_some {α β : Type} {f : α → Option β} {R : α → β → Prop} {as : List α}
    (h : ∀ a ∈ as, ∃ b, f a = some b ∧ R a b) :
    ∃ bs, as.mapM f = some bs ∧ List.Forall₂ R as bs := by
  induction as with
  | nil => exact ⟨[], rfl, .nil⟩
  | cons a as ih =>
    obtain ⟨⟨b, hb, hr⟩, h⟩ := List.forall_mem_cons.mp h
    obtain ⟨bs, hbs, hrs⟩ := ih h
    exact ⟨b :: bs, by simp [hb, hbs], .cons hr hrs⟩

theorem exists_fields?_eq_some (fields : List (String × Json)) :
    ∃ parts, (object fields).fields? = some parts ∧
      parts.map (fun part => (part.1, part.2.1)) = fields := by
  refine ⟨_, rfl, ?_⟩
  rw [List.map_map]
  exact List.attach_map_subtype_val fields

theorem exists_items?_eq_some (items : List Json) :
    ∃ parts, (array items).items? = some parts ∧ parts.unattach = items := by
  refine ⟨_, rfl, ?_⟩
  rw [List.unattach, List.map_map]
  exact List.attach_map_subtype_val items

/-- Reading an alternative goes on with its name and its content. -/
theorem tagged?_bind {α : Type} (name : String) (content : Json)
    (next : String × (tagged name content).Part → Option α) :
    ((tagged name content).tagged? >>= next) = next (name, ⟨content,
      Nat.lt_succ_of_le (@size_le_fieldsSize (name, content) _ List.mem_cons_self)⟩) :=
  rfl

theorem reshapes_object_iff : (object fields).Reshapes json ↔ ∃ kept added fields',
    json = object fields' ∧ Keeps Reshapes fields kept ∧
      (∀ field ∈ added, ¬ IsAlternative fields ∧ field.1 ∉ fields.map Prod.fst) ∧
      fields'.Perm (kept ++ added) := by
  constructor
  · intro h
    cases h with
    | same => exact ⟨fields, [], fields, rfl, .same (fun _ => .same) fields, nofun, by simp⟩
    | object hkept hadded horder => exact ⟨_, _, _, rfl, hkept, hadded, horder⟩
  · rintro ⟨kept, added, fields', rfl, hkept, hadded, horder⟩
    exact .object hkept hadded horder

namespace Reshapes

/-- An alternative stays that alternative. -/
theorem tagged {content : Json} (h : (tagged name content).Reshapes json)
    (hname : name ∈ alternatives) :
    ∃ content', json = Json.tagged name content' ∧ content.Reshapes content' := by
  obtain ⟨kept, added, fields', rfl, hkept, hadded, horder⟩ := reshapes_object_iff.mp h
  obtain rfl : added = [] :=
    List.eq_nil_iff_forall_not_mem.mpr fun field hfield =>
      (hadded field hfield).1 ⟨name, hname, rfl⟩
  cases hkept with
  | keep hcontent hrest =>
    cases hrest
    exact ⟨_, congrArg Json.object (List.perm_singleton.mp horder), hcontent⟩
  | leave => exact absurd hname (by decide)

theorem fieldsOf {added : List (String × Json)} (hkept : Keeps Reshapes fields kept)
    (hadded : ∀ field ∈ added, ¬ IsAlternative fields ∧ field.1 ∉ fields.map Prod.fst)
    (horder : fields'.Perm (kept ++ added)) (hnames : (fields.map Prod.fst).Nodup)
    (hfield : (name, value) ∈ fields) :
    (∃ value', value.Reshapes value' ∧ Json.fieldsOf name fields' = [(name, value')]) ∨
      (name, value) = ("alternative", null) ∧ Json.fieldsOf name fields' = [] := by
  have hother : name ∉ added.map Prod.fst := by
    intro hmem
    obtain ⟨field, hadd, rfl⟩ := List.mem_map.mp hmem
    exact (hadded field hadd).2 (List.mem_map.mpr ⟨_, hfield, rfl⟩)
  have hperm := fieldsOf_perm horder hother
  obtain ⟨value', hvalue, hone⟩ | ⟨halternative, hnone⟩ := hkept.fieldsOf hnames hfield
  · exact .inl ⟨value', hvalue, List.perm_singleton.mp (hone ▸ hperm)⟩
  · exact .inr ⟨halternative, List.perm_nil.mp (hnone ▸ hperm)⟩

/-- All fields are found by their names. -/
theorem named (h : (Json.object fields).Reshapes json) (names : List String)
    (hfields : fields.map Prod.fst = names) (hnames : names.Nodup) :
    ∃ parts, json.named? names = some parts ∧ List.Forall₂ (Finds json) fields parts := by
  subst hfields
  obtain ⟨kept, added, fields', rfl, hkept, hadded, horder⟩ := reshapes_object_iff.mp h
  obtain ⟨all, hall, hforget⟩ := exists_fields?_eq_some fields'
  rw [named?, hall]
  show ∃ parts, (fields.map Prod.fst).mapM _ = some parts ∧ _
  rw [List.mapM_map]
  refine exists_mapM_eq_some ?_
  rintro ⟨name, value⟩ hfield
  -- the parts with a name are the fields with it, each with its bound on the size
  have hparts : (all.filter fun field => field.1 = name).map (fun part => (part.1, part.2.1)) =
      Json.fieldsOf name fields' :=
    List.filter_map.symm.trans (congrArg (Json.fieldsOf name) hforget)
  obtain ⟨value', hvalue, hone⟩ | ⟨⟨⟩, hnone⟩ :=
    fieldsOf hkept hadded horder hnames hfield
  · rw [hone] at hparts
    obtain ⟨⟨_, part⟩, hfound, ⟨⟩⟩ := List.map_eq_singleton_iff.mp hparts
    exact ⟨some part, by simp only [Function.comp_apply, hfound], .present hvalue⟩
  · rw [hnone] at hparts
    have hfound := List.map_eq_nil_iff.mp hparts
    exact ⟨none, by simp only [Function.comp_apply, hfound], .absent⟩

/-- All fields are there, where none of them is `alternative`. -/
theorem named_complete (h : (Json.object fields).Reshapes json) (names : List String)
    (hfields : fields.map Prod.fst = names) (hnames : names.Nodup ∧ "alternative" ∉ names) :
    ∃ parts : List json.Part, json.named? names = some (parts.map some) ∧
      List.Forall₂ (fun field part => field.2.Reshapes part.1) fields parts := by
  obtain ⟨found, hfound, hfinds⟩ := h.named names hfields hnames.1
  obtain ⟨parts, rfl, hparts⟩ := exists_eq_map_some hfinds (hfields ▸ hnames.2)
  exact ⟨parts, hfound, hparts⟩

/-- A reshaped record is still read by the names of its fields. -/
theorem record?_eq_named? (h : (Json.object fields).Reshapes json) (names : List String) :
    json.record? names = json.named? names := by
  obtain ⟨_, _, _, rfl, _⟩ := reshapes_object_iff.mp h
  rfl

theorem record_complete (h : (Json.object fields).Reshapes json) (names : List String)
    (hfields : fields.map Prod.fst = names) (hnames : names.Nodup ∧ "alternative" ∉ names) :
    ∃ parts : List json.Part, json.record? names = some (parts.map some) ∧
      List.Forall₂ (fun field part => field.2.Reshapes part.1) fields parts := by
  rw [h.record?_eq_named?]
  exact h.named_complete names hfields hnames

/-- What reads the items that an array is reshaped to reads the array. -/
theorem items {α : Type} {read : Json → Option α} {items : List Json} {as : List α}
    (h : (Json.array items).Reshapes json)
    (hitems : ∀ items', List.Forall₂ Reshapes items items' → items'.mapM read = some as) :
    ∃ parts, json.items? = some parts ∧ parts.unattach.mapM read = some as := by
  obtain ⟨items', rfl, hitems'⟩ : ∃ items', json = .array items' ∧
      List.Forall₂ Reshapes items items' := by
    cases h with
    | same => exact ⟨items, rfl, List.forall₂_same.mpr fun _ _ => .same⟩
    | array h => exact ⟨_, rfl, h⟩
  obtain ⟨parts, hparts, heq⟩ := exists_items?_eq_some items'
  exact ⟨parts, hparts, (congrArg (List.mapM read) heq).trans (hitems items' hitems')⟩

/-- What has nothing inside stays as it is. -/
theorem eq_self {json json' : Json} (h : json.Reshapes json')
    (harray : ∀ items, json ≠ .array items) (hobject : ∀ fields, json ≠ .object fields) : json' = json := by
  cases h with
  | same => rfl
  | array => exact absurd rfl (harray _)
  | object => exact absurd rfl (hobject _)

end Reshapes

end LetScript.Json
