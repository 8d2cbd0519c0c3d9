import LetScript.Json.Token
import LetScript.Json.Tree
import LetScript.Proofs.Json.Reshaping

/-! Data is read back from its JSON form, and from all that this is reshaped to. -/
namespace LetScript

open Json (Reshapes)

/-- What is read from the form, however it is reshaped. -/
def Json.Recovers {α : Type} (form : Json) (read : Json → Option α) (a : α) : Prop :=
  ∀ json, form.Reshapes json → read json = some a

/-! ### Trees -/

theorem UnaryOp.recovers (op : UnaryOp) : op.toJson.Recovers ofJson? op := by
  intro json h
  obtain rfl := h.eq_self nofun nofun
  cases op <;> rfl

theorem BinaryOp.recovers (op : BinaryOp) : op.toJson.Recovers ofJson? op := by
  intro json h
  obtain rfl := h.eq_self nofun nofun
  cases op <;> rfl

theorem recovers_name (name : String) : (nameToJson name).Recovers nameOfJson? name := by
  intro json h
  obtain ⟨_, hrecord, _ | ⟨hname, _ | _⟩⟩ := h.record_complete ["name"] rfl (by decide)
  simp [nameOfJson?, hrecord, hname.eq_self nofun nofun, Json.text?]

theorem recovers_int (value : Int64) :
    (Json.tagged "Int" (.object [("value", .integer value.toInt)])).Recovers literalOfJson?
      (.int value) := by
  intro json h
  obtain ⟨content, rfl, hcontent⟩ := Reshapes.tagged h (by decide)
  obtain ⟨_, hrecord, _ | ⟨hvalue, _ | _⟩⟩ := hcontent.record_complete ["value"] rfl (by decide)
  have hexact := Integer.ofExact?_eq_some_iff.mpr (rfl : value.toInt = _)
  rw [literalOfJson?, Json.tagged?_bind]
  simp [hrecord, hvalue.eq_self nofun nofun, Json.int64?, hexact]

theorem recovers_bool (value : Bool) :
    (Json.tagged "Bool" (.object [("value", .bool value)])).Recovers literalOfJson?
      (.bool value) := by
  intro json h
  obtain ⟨content, rfl, hcontent⟩ := Reshapes.tagged h (by decide)
  obtain ⟨_, hrecord, _ | ⟨hvalue, _ | _⟩⟩ := hcontent.record_complete ["value"] rfl (by decide)
  rw [literalOfJson?, Json.tagged?_bind]
  simp [hrecord, hvalue.eq_self nofun nofun, Json.bool?]

/-- A block is read as soon as its statements are. -/
theorem recovers_block {ss : List Stmt} (hss : ∀ items,
      List.Forall₂ Reshapes (statementsToJson ss) items → items.mapM Stmt.ofJson? = some ss) :
    (Json.object [("statements", .array (statementsToJson ss))]).Recovers blockOfJson? ss := by
  intro json h
  obtain ⟨_, hrecord, _ | ⟨hstatements, _ | _⟩⟩ := h.record_complete ["statements"] rfl (by decide)
  obtain ⟨parts, hparts, hread⟩ := hstatements.items hss
  rw [blockOfJson?]
  simp [hrecord, hparts, hread]

theorem recovers_parameters (names : List String) (items : List Json)
    (h : List.Forall₂ Reshapes (names.map nameToJson) items) :
    items.mapM nameOfJson? = some names := by
  induction names generalizing items with
  | nil =>
    cases h
    rfl
  | cons name names ih =>
    obtain _ | ⟨hname, hnames⟩ := h
    simp [recovers_name name _ hname, ih _ hnames]

mutual

theorem Expr.recovers : ∀ e : Expr, e.toJson.Recovers Expr.ofJson? e
  | .name name, json, h => by
    obtain ⟨content, rfl, hcontent⟩ := Reshapes.tagged h (by decide)
    have hname := recovers_name name _ hcontent
    rw [Expr.ofJson?, Json.tagged?_bind]
    simp [hname]
  | .int value, json, h => by
    obtain ⟨content, rfl, hcontent⟩ := Reshapes.tagged h (by decide)
    have hvalue := recovers_int value _ hcontent
    rw [Expr.ofJson?, Json.tagged?_bind]
    simp [hvalue]
  | .bool value, json, h => by
    obtain ⟨content, rfl, hcontent⟩ := Reshapes.tagged h (by decide)
    have hvalue := recovers_bool value _ hcontent
    rw [Expr.ofJson?, Json.tagged?_bind]
    simp [hvalue]
  | .unary op operand, json, h => by
    obtain ⟨content, rfl, hcontent⟩ := Reshapes.tagged h (by decide)
    obtain ⟨_, hrecord, _ | ⟨hop, _ | ⟨hoperand, _ | _⟩⟩⟩ :=
      hcontent.record_complete ["op", "operand"] rfl (by decide)
    have hop := op.recovers _ hop
    have hoperand := operand.recovers _ hoperand
    rw [Expr.ofJson?, Json.tagged?_bind]
    simp [hrecord, hop, hoperand]
  | .binary op left right, json, h => by
    obtain ⟨content, rfl, hcontent⟩ := Reshapes.tagged h (by decide)
    obtain ⟨_, hrecord, _ | ⟨hop, _ | ⟨hleft, _ | ⟨hright, _ | _⟩⟩⟩⟩ :=
      hcontent.record_complete ["op", "left", "right"] rfl (by decide)
    have hop := op.recovers _ hop
    have hleft := left.recovers _ hleft
    have hright := right.recovers _ hright
    rw [Expr.ofJson?, Json.tagged?_bind]
    simp [hrecord, hop, hleft, hright]
  | .ifElse condition consequence alternative, json, h => by
    obtain ⟨content, rfl, hcontent⟩ := Reshapes.tagged h (by decide)
    obtain ⟨_, hnamed, _ | ⟨hcondition, _ | ⟨hconsequence, _ | ⟨halternative, _ | _⟩⟩⟩⟩ :=
      hcontent.named ["condition", "consequence", "alternative"] rfl (by decide)
    obtain ⟨_, rfl, hcondition'⟩ := hcondition.exists_part (by decide)
    obtain ⟨_, rfl, hconsequence'⟩ := hconsequence.exists_part (by decide)
    have hcondition := condition.recovers _ hcondition'
    have hconsequence := recovers_block (recovers_statements consequence) _ hconsequence'
    have hrecord := (hcontent.record?_eq_named? _).trans hnamed
    rw [Expr.ofJson?, Json.tagged?_bind]
    obtain ⟨rfl, rfl⟩ | ⟨rfl, _, rfl⟩ | ⟨ss, fields, _, rfl, rfl, hss⟩ :=
      finds_else alternative halternative
    · simp [hrecord, hcondition, hconsequence]
    · simp [hrecord, hcondition, hconsequence]
    · simp [hrecord, hcondition, hconsequence, hss]
  | .function parameters body, json, h => by
    obtain ⟨content, rfl, hcontent⟩ := Reshapes.tagged h (by decide)
    obtain ⟨_, hrecord, _ | ⟨hparameters, _ | ⟨hbody, _ | _⟩⟩⟩ :=
      hcontent.record_complete ["parameters", "body"] rfl (by decide)
    obtain ⟨parts, hparts, hread⟩ := hparameters.items (recovers_parameters parameters)
    have hbody := recovers_block (recovers_statements body) _ hbody
    rw [Expr.ofJson?, Json.tagged?_bind]
    simp [hrecord, hparts, hread, hbody]
  | .call callee arguments, json, h => by
    obtain ⟨content, rfl, hcontent⟩ := Reshapes.tagged h (by decide)
    obtain ⟨_, hrecord, _ | ⟨hcallee, _ | ⟨harguments, _ | _⟩⟩⟩ :=
      hcontent.record_complete ["callee", "arguments"] rfl (by decide)
    have hcallee := callee.recovers _ hcallee
    obtain ⟨parts, hparts, hread⟩ := harguments.items (recovers_each arguments)
    rw [Expr.ofJson?, Json.tagged?_bind]
    simp [hrecord, hcallee, hparts, hread]

theorem Stmt.recovers : ∀ s : Stmt, s.toJson.Recovers Stmt.ofJson? s
  | .bind name value, json, h => by
    obtain ⟨content, rfl, hcontent⟩ := Reshapes.tagged h (by decide)
    obtain ⟨_, hrecord, _ | ⟨hname, _ | ⟨hvalue, _ | _⟩⟩⟩ :=
      hcontent.record_complete ["name", "value"] rfl (by decide)
    have hname := recovers_name name _ hname
    have hvalue := value.recovers _ hvalue
    rw [Stmt.ofJson?, Json.tagged?_bind]
    simp [hrecord, hname, hvalue]
  | .ret value, json, h => by
    obtain ⟨content, rfl, hcontent⟩ := Reshapes.tagged h (by decide)
    obtain ⟨_, hrecord, _ | ⟨hvalue, _ | _⟩⟩ := hcontent.record_complete ["value"] rfl (by decide)
    have hvalue := value.recovers _ hvalue
    rw [Stmt.ofJson?, Json.tagged?_bind]
    simp [hrecord, hvalue]
  | .expr e, json, h => by
    obtain ⟨content, rfl, hcontent⟩ := Reshapes.tagged h (by decide)
    obtain ⟨_, hrecord, _ | ⟨he, _ | _⟩⟩ := hcontent.record_complete ["expr"] rfl (by decide)
    have he := e.recovers _ he
    rw [Stmt.ofJson?, Json.tagged?_bind]
    simp [hrecord, he]
  | .block ss, json, h => by
    obtain ⟨content, rfl, hcontent⟩ := Reshapes.tagged h (by decide)
    have hss := recovers_block (recovers_statements ss) _ hcontent
    rw [Stmt.ofJson?, Json.tagged?_bind]
    simp [hss]

theorem recovers_statements : ∀ (ss : List Stmt) (items : List Json),
    List.Forall₂ Reshapes (statementsToJson ss) items → items.mapM Stmt.ofJson? = some ss
  | [], _, h => by
    cases h
    rfl
  | s :: ss, _, h => by
    obtain _ | ⟨hs, hss⟩ := h
    simp [s.recovers _ hs, recovers_statements ss _ hss]

/-- An alternative is found to be absent, null or a block. -/
theorem finds_else : ∀ (alternative : Option (List Stmt)) {whole : Json} {part : Option whole.Part},
    Json.Finds whole ("alternative", elseToJson alternative) part →
      (alternative = none ∧ part = none) ∨
      (alternative = none ∧ ∃ h, part = some ⟨.null, h⟩) ∨
      ∃ ss fields h, alternative = some ss ∧ part = some ⟨.object fields, h⟩ ∧
        blockOfJson? (.object fields) = some ss
  | none, whole, part, h => by
    cases h with
    | @present _ _ part h =>
      obtain ⟨_, hsize⟩ := part
      obtain rfl := h.eq_self nofun nofun
      exact .inr (.inl ⟨rfl, hsize, rfl⟩)
    | absent => exact .inl ⟨rfl, rfl⟩
  | some ss, whole, part, h => by
    cases h with
    | @present _ _ part h =>
      obtain ⟨_, hsize⟩ := part
      have hss := recovers_block (recovers_statements ss) _ h
      obtain ⟨_, _, fields, rfl, -⟩ := Json.reshapes_object_iff.mp h
      exact .inr (.inr ⟨ss, fields, hsize, rfl, rfl, hss⟩)

theorem recovers_each : ∀ (es : List Expr) (items : List Json),
    List.Forall₂ Reshapes (exprsToJson es) items → items.mapM Expr.ofJson? = some es
  | [], _, h => by
    cases h
    rfl
  | e :: es, _, h => by
    obtain _ | ⟨he, hes⟩ := h
    simp [e.recovers _ he, recovers_each es _ hes]

end

theorem Program.recovers (p : Program) : p.toJson.Recovers Program.ofJson? p := by
  intro json h
  have hblock := recovers_block (recovers_statements p.statements) json h
  rw [Program.ofJson?, hblock]
  rfl

/-! ### Tokens and diagnostics -/

theorem Keyword.recovers (word : Keyword) : word.toJson.Recovers ofJson? word := by
  intro json h
  obtain rfl := h.eq_self nofun nofun
  cases word <;> rfl

theorem TokenKind.recovers (kind : TokenKind) : kind.toJson.Recovers ofJson? kind := by
  intro json h
  cases kind with
  | keyword word =>
    obtain ⟨content, rfl, hcontent⟩ := Reshapes.tagged h (by decide)
    have hword := word.recovers _ hcontent
    show keyword <$> Keyword.ofJson? content = _
    rw [hword]
    rfl
  | _ =>
    obtain rfl := h.eq_self nofun nofun
    rfl

theorem Token.recovers (token : Token) : token.toJson.Recovers ofJson? token := by
  intro json h
  obtain ⟨_, hrecord, _ | ⟨hkind, _ | ⟨hliteral, _ | _⟩⟩⟩ :=
    h.record_complete ["kind", "literal"] rfl (by decide)
  have hkind := token.kind.recovers _ hkind
  simp [ofJson?, hrecord, hkind, hliteral.eq_self nofun nofun, Json.text?]

theorem Diagnostic.recovers (d : Diagnostic) : d.toJson.Recovers ofJson? d := by
  intro json h
  cases d with
  | unexpectedToken expected found =>
    obtain ⟨content, rfl, hcontent⟩ := Reshapes.tagged h (by decide)
    obtain ⟨_, hnamed, _ | ⟨hexpected, _ | ⟨hfound, _ | _⟩⟩⟩ :=
      hcontent.named_complete ["expected", "found"] rfl (by decide)
    have hexpected := expected.recovers _ hexpected
    have hfound := found.recovers _ hfound
    rw [ofJson?, Json.tagged?_bind]
    simp [hnamed, hexpected, hfound]
  | noExpression found =>
    obtain ⟨content, rfl, hcontent⟩ := Reshapes.tagged h (by decide)
    obtain ⟨_, hnamed, _ | ⟨hfound, _ | _⟩⟩ := hcontent.named_complete ["found"] rfl (by decide)
    have hfound := found.recovers _ hfound
    rw [ofJson?, Json.tagged?_bind]
    simp [hnamed, hfound]
  | integerTooLarge literal =>
    obtain ⟨content, rfl, hcontent⟩ := Reshapes.tagged h (by decide)
    obtain ⟨_, hnamed, _ | ⟨hliteral, _ | _⟩⟩ := hcontent.named_complete ["literal"] rfl (by decide)
    rw [ofJson?, Json.tagged?_bind]
    simp [hnamed, hliteral.eq_self nofun nofun, Json.text?]

/-! ### All data -/

namespace Json

/-- Reading undoes writing: on the forms themselves, which therefore differ for different data, and
on all that they are reshaped to. -/
structure Faithful {α : Type} (write : α → Json) (read : Json → Option α) : Prop where
  own : ∀ a, read (write a) = some a
  injective : Function.Injective write
  reshaped : ∀ a json, (write a).Reshapes json → read json = some a

theorem faithful_of_recovers {α : Type} {write : α → Json} {read : Json → Option α}
    (h : ∀ a, (write a).Recovers read a) : Faithful write read where
  own a := h a (write a) .same
  injective a b heq := by
    have hread := h a (write b) (heq ▸ .same)
    rw [h b (write b) .same] at hread
    exact (Option.some.inj hread).symm
  reshaped := h

/-- Trees of all kinds, tokens and diagnostics are read back from their forms and from whatever has
these as its content. -/
theorem faithful_forms :
    Faithful Program.toJson Program.ofJson? ∧ Faithful Stmt.toJson Stmt.ofJson? ∧
      Faithful Expr.toJson Expr.ofJson? ∧ Faithful Token.toJson Token.ofJson? ∧
      Faithful Diagnostic.toJson Diagnostic.ofJson? :=
  ⟨faithful_of_recovers Program.recovers, faithful_of_recovers Stmt.recovers,
    faithful_of_recovers Expr.recovers, faithful_of_recovers Token.recovers,
    faithful_of_recovers Diagnostic.recovers⟩

/-- An `if` without its alternative, with the fields in another order and with further ones. -/
theorem faithful_forms_if :
    let e : Expr := .ifElse (.name "a") [] none
    let json := tagged "If" (.object [("line", .integer 1),
      ("consequence", .object [("statements", .array [])]),
      ("condition", tagged "Ident" (.object [("quoted", .bool false), ("name", .text "a")]))])
    e.toJson.Reshapes json ∧ Expr.ofJson? json = some e := by
  intro e json
  have hfields : (nameToJson "a").Reshapes
      (.object [("quoted", .bool false), ("name", .text "a")]) :=
    @Reshapes.object _ [("name", .text "a")] [("quoted", .bool false)] _ (.keep .same .nil)
      (by simp [IsAlternative, alternatives]) (.swap _ _ _)
  have hcondition : (Expr.name "a").toJson.Reshapes
      (tagged "Ident" (.object [("quoted", .bool false), ("name", .text "a")])) :=
    @Reshapes.object _ _ [] _ (.keep hfields .nil) nofun (.refl _)
  have hif := @Reshapes.object
    [("condition", (Expr.name "a").toJson), ("consequence", .object [("statements", .array [])]),
      ("alternative", .null)]
    _ [("line", .integer 1)] _ (.keep hcondition (.keep .same (.leave .nil))) (by simp [IsAlternative, alternatives])
    (List.reverse_perm _)
  have hreshapes : e.toJson.Reshapes json :=
    @Reshapes.object _ _ [] _ (.keep hif .nil) nofun (.refl _)
  exact ⟨hreshapes, faithful_forms.2.2.1.reshaped e json hreshapes⟩

end Json

end LetScript
