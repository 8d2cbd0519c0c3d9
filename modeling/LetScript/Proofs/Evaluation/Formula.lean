import LetScript.Proofs.Evaluation.Parts
import LetScript.Proofs.Value.Arithmetic

/-! Formulas: expressions made of integers, truth values and operators only. They have the
value that arithmetic without bounds gives them as long as every part of them has one that
fits, and otherwise end in the error of the first part, from the left and from within,
that has none. Nothing else happens. -/
namespace LetScript

inductive Formula where
  | int (value : Int64)
  | bool (value : Bool)
  | unary (op : UnaryOp) (operand : Formula)
  | binary (op : BinaryOp) (left right : Formula)

namespace Formula

def expr : Formula → Expr
  | int n => .int n
  | bool b => .bool b
  | unary op f => .unary op f.expr
  | binary op f g => .binary op f.expr g.expr

/-- What a formula should evaluate to. A part that fails does so for the whole, and the operand on
the right has its turn only if the one on the left does not fail. -/
inductive Yields : Formula → Value → Prop where
  | int (n : Int64) : Yields (int n) (.int n)
  | bool (b : Bool) : Yields (bool b) (.bool b)
  | unary {op f v result} (h : Yields f v) (hop : op.Yields v result) : Yields (unary op f) result
  | operandFails {op f cause} (h : Yields f (.error cause)) : Yields (unary op f) (.error cause)
  | binary {op f g v w result} (hf : Yields f v) (hg : Yields g w) (hop : op.Yields v w result) :
      Yields (binary op f g) result
  | leftFails {op f g cause} (hf : Yields f (.error cause)) :
      Yields (binary op f g) (.error cause)
  | rightFails {op f g v cause} (hf : Yields f v) (hv : v.IsDatum) (hg : Yields g (.error cause)) :
      Yields (binary op f g) (.error cause)

theorem Yields.isDatum_or_eq_error {f : Formula} {v : Value} (h : f.Yields v) :
    v.IsDatum ∨ ∃ cause, v = .error cause := by
  cases h with
  | int | bool => exact .inl trivial
  | unary _ hop => exact hop.eq_apply ▸ (UnaryOp.isComputed_apply _ _).isDatum_or_eq_error
  | binary _ _ hop => exact hop.eq_apply ▸ (BinaryOp.isComputed_apply _ _ _).isDatum_or_eq_error
  | operandFails | leftFails | rightFails => exact .inr ⟨_, rfl⟩

theorem Yields.unique {f : Formula} {v w : Value} (h : f.Yields v) (h' : f.Yields w) : v = w := by
  induction h generalizing w with
  | int | bool =>
    cases h'
    rfl
  | unary _ hop ih =>
    cases h' with
    | unary h' hop' =>
      cases ih h'
      exact hop.eq_apply.trans hop'.eq_apply.symm
    | operandFails h' =>
      cases ih h'
      cases hop.isDatum
  | operandFails _ ih =>
    cases h' with
    | unary h' hop' =>
      cases ih h'
      cases hop'.isDatum
    | operandFails h' => exact ih h'
  | binary _ _ hop ihf ihg =>
    cases h' with
    | binary hf hg hop' =>
      cases ihf hf
      cases ihg hg
      exact hop.eq_apply.trans hop'.eq_apply.symm
    | leftFails hf =>
      cases ihf hf
      cases hop.isDatum.1
    | rightFails _ _ hg =>
      cases ihg hg
      cases hop.isDatum.2
  | leftFails _ ih =>
    cases h' with
    | binary hf _ hop =>
      cases ih hf
      cases hop.isDatum.1
    | leftFails hf => exact ih hf
    | rightFails hf hv _ =>
      cases ih hf
      cases hv
  | rightFails _ hv _ ihf ihg =>
    cases h' with
    | binary _ hg hop =>
      cases ihg hg
      cases hop.isDatum.2
    | leftFails hf =>
      cases ihf hf
      cases hv
    | rightFails _ _ hg => exact ihg hg

/-- Evaluating a formula ends, does nothing to the scopes, and has a result as it should. -/
theorem exists_eval_eq_some (f : Formula) (call : Caller) (scope : ScopeId) (store : Store) :
    ∃ value, f.expr.eval call scope store = some (value, store) ∧ f.Yields value := by
  induction f with
  | int n => exact ⟨.int n, rfl, .int n⟩
  | bool b => exact ⟨.bool b, rfl, .bool b⟩
  | unary op f ih =>
    obtain ⟨v, heval, hv⟩ := ih
    obtain hdatum | ⟨cause, rfl⟩ := hv.isDatum_or_eq_error
    · exact ⟨op.apply v, Eval.proceed_of_eq_some heval hdatum.isAbrupt_eq_false,
        .unary hv (op.yields_apply hdatum)⟩
    · exact ⟨.error cause, Eval.proceed_of_isAbrupt heval rfl, .operandFails hv⟩
  | binary op f g ihf ihg =>
    obtain ⟨v, heval, hv⟩ := ihf
    obtain hdatum | ⟨cause, rfl⟩ := hv.isDatum_or_eq_error
    · have hleft : (binary op f g).expr.eval call scope store =
          ((g.expr.eval call scope).proceed fun right => return op.apply v right) store :=
        Eval.proceed_of_eq_some heval hdatum.isAbrupt_eq_false
      obtain ⟨w, heval', hw⟩ := ihg
      obtain hdatum' | ⟨cause, rfl⟩ := hw.isDatum_or_eq_error
      · exact ⟨op.apply v w,
          hleft.trans (Eval.proceed_of_eq_some heval' hdatum'.isAbrupt_eq_false),
          .binary hv hw (op.yields_apply hdatum hdatum')⟩
      · exact ⟨.error cause, hleft.trans (Eval.proceed_of_isAbrupt heval' rfl),
          .rightFails hv hdatum hw⟩
    · exact ⟨.error cause, Eval.proceed_of_isAbrupt heval rfl, .leftFails hv⟩

/-- In every scope and store a formula evaluates to just what it should, and the store stays. -/
theorem eval_eq_some_yields (f : Formula) (call : Caller) (scope : ScopeId) (store : Store) :
    ∃ value, f.expr.eval call scope store = some (value, store) ∧
      ∀ other, f.Yields other ↔ other = value := by
  obtain ⟨value, heval, hvalue⟩ := f.exists_eval_eq_some call scope store
  refine ⟨value, heval, fun other => ⟨fun hother => hother.unique hvalue, ?_⟩⟩
  rintro rfl
  exact hvalue

/-- The least integer by minus one comes first, so that the division by zero has no turn. -/
example : (binary .add (.binary .divide (.int Int64.minValue) (.unary .minus (.int 1)))
    (.binary .divide (.int 1) (.int 0))).expr.eval (applyWithin 0) 0 .empty =
      some (.error (.overflow "-9223372036854775808 / -1"), .empty) := by
  decide +kernel

end Formula

end LetScript
