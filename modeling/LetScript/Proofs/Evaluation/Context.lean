import LetScript.Proofs.Evaluation.Plain

/-! Errors and returns come out of whatever code they arise in. A context is code with a
place left open for an expression. Evaluation comes to the place after the parts before
it; if the expression put there then ends in an error or a `return`, the whole ends in it
with the same scopes, so that nothing after the place is evaluated, applied or bound. -/
namespace LetScript

theorem evalArguments_of_isAbrupt {call : Caller} {scope : ScopeId} {before after : List Expr}
    {e : Expr} {values : List Value} {a : Value} {store store' store'' : Store}
    (hbefore : evalArguments call scope before store = some (.ok values, store'))
    (he : e.eval call scope store' = some (a, store'')) (ha : a.isAbrupt = true) :
    evalArguments call scope (before ++ e :: after) store = some (.error a, store'') := by
  induction before generalizing store values with
  | nil =>
    cases hbefore
    refine Eval.bind_eq_some_iff.mpr ⟨a, store'', he, ?_⟩
    rw [ha]
    rfl
  | cons first rest ih =>
    obtain ⟨value, store₁, more, hfirst, hvalue, hrest, -⟩ :=
      evalArguments_cons_eq_some_iff.mp hbefore
    refine Eval.bind_eq_some_iff.mpr ⟨value, store₁, hfirst, ?_⟩
    rw [hvalue]
    exact Eval.bind_eq_some_iff.mpr ⟨.error a, store'', ih hrest, rfl⟩

/-- What code can be. -/
inductive Form where
  | expr
  | stmt
  | block

abbrev Form.Code : Form → Type
  | expr => Expr
  | stmt => Stmt
  | block => List Stmt

def Form.eval (call : Caller) (scope : ScopeId) : (form : Form) → form.Code → Eval Value
  | expr => Expr.eval call scope
  | stmt => Stmt.eval call scope
  | block => evalStatements call scope .nil

/-- Code of the form with one place left open for an expression, at any depth, but not in the body
of a function. -/
inductive Context : Form → Type where
  | hole : Context .expr
  | operand (op : UnaryOp) (inner : Context .expr) : Context .expr
  | left (op : BinaryOp) (inner : Context .expr) (right : Expr) : Context .expr
  | right (op : BinaryOp) (left : Expr) (inner : Context .expr) : Context .expr
  | condition (inner : Context .expr) (consequence : List Stmt)
      (alternative : Option (List Stmt)) : Context .expr
  | consequence (condition : Expr) (inner : Context .block)
      (alternative : Option (List Stmt)) : Context .expr
  | alternative (condition : Expr) (consequence : List Stmt) (inner : Context .block) :
      Context .expr
  | callee (inner : Context .expr) (arguments : List Expr) : Context .expr
  | argument (callee : Expr) (before : List Expr) (inner : Context .expr) (after : List Expr) :
      Context .expr
  | bind (name : String) (inner : Context .expr) : Context .stmt
  | ret (inner : Context .expr) : Context .stmt
  | expr (inner : Context .expr) : Context .stmt
  | block (inner : Context .block) : Context .stmt
  | statement (before : List Stmt) (inner : Context .stmt) (after : List Stmt) : Context .block

namespace Context

/-- The code with the expression put in the place left open. -/
def fill (e : Expr) : {form : Form} → Context form → form.Code
  | _, hole => e
  | _, operand op inner => .unary op (inner.fill e)
  | _, left op inner second => .binary op (inner.fill e) second
  | _, right op first inner => .binary op first (inner.fill e)
  | _, condition inner ss other => .ifElse (inner.fill e) ss other
  | _, consequence test inner other => .ifElse test (inner.fill e) other
  | _, alternative test ss inner => .ifElse test ss (some (inner.fill e))
  | _, callee inner arguments => .call (inner.fill e) arguments
  | _, argument f before inner after => .call f (before ++ inner.fill e :: after)
  | _, bind name inner => .bind name (inner.fill e)
  | _, ret inner => .ret (inner.fill e)
  | _, expr inner => .expr (inner.fill e)
  | _, block inner => .block (inner.fill e)
  | _, statement before inner after => before ++ inner.fill e :: after

/-- Evaluating the parts before the place in the scope leads from the one store to the other, with
plain values that let evaluation come to the place. -/
inductive Approaches (call : Caller) (scope : ScopeId) :
    {form : Form} → Context form → Store → Store → Prop where
  | hole {store} : Approaches call scope hole store store
  | operand {op inner store store'} (h : Approaches call scope inner store store') :
      Approaches call scope (operand op inner) store store'
  | left {op inner right store store'} (h : Approaches call scope inner store store') :
      Approaches call scope (left op inner right) store store'
  | right {op left inner store value store' store''}
      (hleft : left.eval call scope store = some (value, store')) (hvalue : value.IsPlain)
      (h : Approaches call scope inner store' store'') :
      Approaches call scope (right op left inner) store store''
  | condition {inner consequence alternative store store'}
      (h : Approaches call scope inner store store') :
      Approaches call scope (condition inner consequence alternative) store store'
  | consequence {condition inner alternative store value store' store''}
      (hcondition : condition.eval call scope store = some (value, store'))
      (hvalue : value.IsPlain) (htruthy : value.isTruthy = true)
      (h : Approaches call scope inner store' store'') :
      Approaches call scope (consequence condition inner alternative) store store''
  | alternative {condition consequence inner store value store' store''}
      (hcondition : condition.eval call scope store = some (value, store'))
      (hvalue : value.IsPlain) (htruthy : value.isTruthy = false)
      (h : Approaches call scope inner store' store'') :
      Approaches call scope (alternative condition consequence inner) store store''
  | callee {inner arguments store store'} (h : Approaches call scope inner store store') :
      Approaches call scope (callee inner arguments) store store'
  | argument {callee before inner after store value store' values store'' store'''}
      (hcallee : callee.eval call scope store = some (value, store')) (hvalue : value.IsPlain)
      (hbefore : evalArguments call scope before store' = some (.ok values, store''))
      (h : Approaches call scope inner store'' store''') :
      Approaches call scope (argument callee before inner after) store store'''
  | bind {name inner store store'} (h : Approaches call scope inner store store') :
      Approaches call scope (bind name inner) store store'
  | ret {inner store store'} (h : Approaches call scope inner store store') :
      Approaches call scope (ret inner) store store'
  | expr {inner store store'} (h : Approaches call scope inner store store') :
      Approaches call scope (expr inner) store store'
  | block {inner store store'} (h : Approaches call scope inner store store') :
      Approaches call scope (block inner) store store'
  | statement {before inner after store value store' store''}
      (hbefore : evalStatements call scope .nil before store = some (value, store'))
      (hvalue : value.IsPlain) (h : Approaches call scope inner store' store'') :
      Approaches call scope (statement before inner after) store store''

/-- The contexts have the same code before the place. All that has its turn after the place may
differ: other code, the operator that is applied, the name that a `let` binds. -/
inductive SameBefore : {form : Form} → Context form → Context form → Prop where
  | hole : SameBefore hole hole
  | operand {op op' inner inner'} (h : SameBefore inner inner') :
      SameBefore (operand op inner) (operand op' inner')
  | left {op op' inner inner' right right'} (h : SameBefore inner inner') :
      SameBefore (left op inner right) (left op' inner' right')
  | right {op op' left inner inner'} (h : SameBefore inner inner') :
      SameBefore (right op left inner) (right op' left inner')
  | condition {inner inner' consequence consequence' alternative alternative'}
      (h : SameBefore inner inner') : SameBefore (condition inner consequence alternative)
        (condition inner' consequence' alternative')
  | consequence {condition inner inner' alternative alternative'} (h : SameBefore inner inner') :
      SameBefore (consequence condition inner alternative)
        (consequence condition inner' alternative')
  | alternative {condition consequence consequence' inner inner'} (h : SameBefore inner inner') :
      SameBefore (alternative condition consequence inner)
        (alternative condition consequence' inner')
  | callee {inner inner' arguments arguments'} (h : SameBefore inner inner') :
      SameBefore (callee inner arguments) (callee inner' arguments')
  | argument {callee before inner inner' after after'} (h : SameBefore inner inner') :
      SameBefore (argument callee before inner after) (argument callee before inner' after')
  | bind {name name' inner inner'} (h : SameBefore inner inner') :
      SameBefore (bind name inner) (bind name' inner')
  | ret {inner inner'} (h : SameBefore inner inner') : SameBefore (ret inner) (ret inner')
  | expr {inner inner'} (h : SameBefore inner inner') : SameBefore (expr inner) (expr inner')
  | block {inner inner'} (h : SameBefore inner inner') : SameBefore (block inner) (block inner')
  | statement {before inner inner' after after'} (h : SameBefore inner inner') :
      SameBefore (statement before inner after) (statement before inner' after')

variable {call : Caller} {scope : ScopeId} {form : Form} {C D : Context form}
  {store store' store'' : Store} {e : Expr} {a : Value}

theorem SameBefore.approaches (h : C.SameBefore D) (hC : C.Approaches call scope store store') :
    D.Approaches call scope store store' := by
  induction h generalizing store with
  | hole => exact hC
  | operand _ ih => cases hC with | operand h => exact .operand (ih h)
  | left _ ih => cases hC with | left h => exact .left (ih h)
  | right _ ih => cases hC with | right hleft hvalue h => exact .right hleft hvalue (ih h)
  | condition _ ih => cases hC with | condition h => exact .condition (ih h)
  | consequence _ ih =>
    cases hC with
    | consequence hcondition hvalue htruthy h =>
      exact .consequence hcondition hvalue htruthy (ih h)
  | alternative _ ih =>
    cases hC with
    | alternative hcondition hvalue htruthy h =>
      exact .alternative hcondition hvalue htruthy (ih h)
  | callee _ ih => cases hC with | callee h => exact .callee (ih h)
  | argument _ ih =>
    cases hC with
    | argument hcallee hvalue hbefore h => exact .argument hcallee hvalue hbefore (ih h)
  | bind _ ih => cases hC with | bind h => exact .bind (ih h)
  | ret _ ih => cases hC with | ret h => exact .ret (ih h)
  | expr _ ih => cases hC with | expr h => exact .expr (ih h)
  | block _ ih => cases hC with | block h => exact .block (ih h)
  | statement _ ih =>
    cases hC with
    | statement hbefore hvalue h => exact .statement hbefore hvalue (ih h)

/-- Whatever ends the evaluation of the expression put in the place ends that of the whole. -/
theorem Approaches.eval_fill (h : C.Approaches call scope store store')
    (he : e.eval call scope store' = some (a, store'')) (ha : a.isAbrupt = true) :
    form.eval call scope (C.fill e) store = some (a, store'') := by
  induction h with
  | hole => exact he
  | operand _ ih | left _ ih | condition _ ih | callee _ ih | bind _ ih | ret _ ih =>
    exact Eval.proceed_of_isAbrupt (ih he) ha
  | expr _ ih | block _ ih => exact ih he
  | right hleft hvalue _ ih =>
    rw [← Value.isAbrupt_eq_false_iff] at hvalue
    exact (Eval.proceed_of_eq_some hleft hvalue).trans (Eval.proceed_of_isAbrupt (ih he) ha)
  | consequence hcondition hvalue htruthy _ ih | alternative hcondition hvalue htruthy _ ih =>
    rw [← Value.isAbrupt_eq_false_iff] at hvalue
    refine (Eval.proceed_of_eq_some hcondition hvalue).trans ?_
    rw [htruthy]
    exact ih he
  | argument hcallee hvalue hbefore _ ih =>
    rw [← Value.isAbrupt_eq_false_iff] at hvalue
    refine (Eval.proceed_of_eq_some hcallee hvalue).trans ?_
    exact Eval.bind_eq_some_iff.mpr ⟨_, _, evalArguments_of_isAbrupt hbefore (ih he) ha, rfl⟩
  | statement hbefore hvalue _ ih =>
    rw [← Value.isAbrupt_eq_false_iff] at hvalue
    refine (congrFun (evalStatements_append rfl _ _) _).trans ?_
    refine (Eval.proceed_of_eq_some hbefore hvalue).trans ?_
    exact Eval.proceed_of_isAbrupt (ih he) ha

/-- An error or a `return` that an expression ends in is what all the code around it ends in, with
the scopes as the expression left them, and this whatever comes after the expression: no operator
is applied to it, no `let` on the way binds its name, and nothing else is evaluated. -/
theorem eval_fill_of_not_isPlain (C : Context form)
    (hbefore : C.Approaches call scope store store')
    (he : e.eval call scope store' = some (a, store'')) (ha : ¬ a.IsPlain) :
    form.eval call scope (C.fill e) store = some (a, store'') ∧
      ∀ D, C.SameBefore D → form.eval call scope (D.fill e) store = some (a, store'') := by
  have habrupt : a.isAbrupt = true :=
    Bool.of_not_eq_false fun h => ha (Value.isAbrupt_eq_false_iff.mp h)
  exact ⟨hbefore.eval_fill he habrupt,
    fun D hD => (hD.approaches hbefore).eval_fill he habrupt⟩

/-- `let y = 1; let name = 2 op f(y, _, arguments); statements`, with the place among the
arguments. -/
def inCall (name : String) (op : BinaryOp) (arguments : List Expr) (statements : List Stmt) :
    Context .block :=
  .statement [.bind "y" (.int 1)]
    (.bind name (.right op (.int 2) (.argument (.name "f") [.name "y"] .hole arguments))) statements

/-- With `if (y) { return y }` in the place neither `x` nor another name is bound, and a name among
the arguments that means nothing does not matter. -/
theorem eval_fill_inCall :
    let e := Expr.ifElse (.name "y") [.ret (.name "y")] none
    let C := inCall "x" .add [.name "missing"] [.expr (.name "x")]
    let D := inCall "w" .divide [] []
    let store := Store.beforeAlias.define 0 "y" (.int 1)
    (C.Approaches (applyWithin 1) 0 .beforeAlias store ∧
      e.eval (applyWithin 1) 0 store = some (.returned (.int 1), store) ∧
      ¬ (Value.returned (.int 1)).IsPlain ∧ C.SameBefore D) ∧
    Form.block.eval (applyWithin 1) 0 (C.fill e) .beforeAlias =
      some (.returned (.int 1), store) ∧
    Form.block.eval (applyWithin 1) 0 (D.fill e) .beforeAlias =
      some (.returned (.int 1), store) := by
  intro e C D store
  have hy : (Expr.name "y").eval (applyWithin 1) 0 store = some (.int 1, store) := by decide +kernel
  have hf : (Expr.name "f").eval (applyWithin 1) 0 store = some (.function .reader, store) := by
    decide +kernel
  have hargument : evalArguments (applyWithin 1) 0 [.name "y"] store = some (.ok [.int 1], store) :=
    evalArguments_cons_eq_some_iff.mpr ⟨.int 1, store, [], hy, rfl, rfl, rfl⟩
  have hlet : evalStatements (applyWithin 1) 0 .nil [.bind "y" (.int 1)] .beforeAlias =
      some (.nil, store) := rfl
  have htwo : (Expr.int 2).eval (applyWithin 1) 0 store = some (.int 2, store) := rfl
  have hC : C.Approaches (applyWithin 1) 0 .beforeAlias store :=
    .statement hlet trivial (.bind (.right htwo trivial (.argument hf trivial hargument .hole)))
  have he : e.eval (applyWithin 1) 0 store = some (.returned (.int 1), store) := by decide +kernel
  have hD : C.SameBefore D := .statement (.bind (.right (.argument .hole)))
  obtain ⟨hfill, hsame⟩ := eval_fill_of_not_isPlain C hC he id
  exact ⟨⟨hC, he, id, hD⟩, hfill, hsame D hD⟩

end Context

end LetScript
