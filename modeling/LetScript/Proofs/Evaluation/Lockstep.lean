import LetScript.Proofs.Evaluation.Parts
import LetScript.Proofs.Value.Operators

/-! Two runs side by side. The same code is evaluated on two stores that go together, and
both runs take the same way: they end together with one value and with stores that go
together again, or neither has a result. What is asked of the stores and of the code is
open. Only code is run that was there: that of the program and of the functions in the
store, so that a property of code which is shared by its parts is all that can be asked. -/
namespace LetScript

/-- A property of code that all its parts have with it. -/
structure CodeProperty where
  expr : Expr → Prop
  stmt : Stmt → Prop
  statements : List Stmt → Prop
  alternative : Option (List Stmt) → Prop
  exprs : List Expr → Prop
  of_unary {op operand} : expr (.unary op operand) → expr operand
  of_binary {op left right} : expr (.binary op left right) → expr left ∧ expr right
  of_ifElse {condition consequence other} : expr (.ifElse condition consequence other) →
    expr condition ∧ statements consequence ∧ alternative other
  of_function {parameters body} : expr (.function parameters body) → statements body
  of_call {callee arguments} : expr (.call callee arguments) → expr callee ∧ exprs arguments
  of_bind {name value} : stmt (.bind name value) → expr value
  of_ret {value} : stmt (.ret value) → expr value
  of_expr {e} : stmt (.expr e) → expr e
  of_block {ss} : stmt (.block ss) → statements ss
  of_cons {s ss} : statements (s :: ss) → stmt s ∧ statements ss
  of_some {ss} : alternative (some ss) → statements ss
  of_argument {e es} : exprs (e :: es) → expr e ∧ exprs es

namespace CodeProperty

/-- The code of a function in the value has the property. -/
def InValue (p : CodeProperty) : Value → Prop
  | .function f => p.expr (.function f.parameters f.body)
  | .returned value => p.InValue value
  | .int _ | .bool _ | .nil | .error _ => True

variable {p : CodeProperty} {value : Value}

theorem inValue_nil : p.InValue .nil := trivial

theorem inValue_of_isComputed (h : value.IsComputed) : p.InValue value := by
  cases value with
  | int | bool | error => trivial
  | nil | returned | function => cases h

theorem InValue.arrived (h : p.InValue value) : p.InValue value.arrived := by
  cases value with
  | returned => exact h
  | int | bool | nil | error | function => exact h

end CodeProperty

/-- Stores that go together, and the code that is run on them. -/
structure Lockstep where
  code : CodeProperty
  related : Store → Store → Prop
  lookup {s t name} (scope : ScopeId) : related s t → code.expr (.name name) →
    s.lookup scope name = t.lookup scope name ∧
      ∀ value, s.lookup scope name = some value → code.InValue value
  /-- The next function is the same one in both. -/
  functions {s t} : related s t → s.functions = t.functions
  addFunction {s t} (parameters : List String) (body : List Stmt) (scope : ScopeId) :
    related s t →
      related (s.addFunction parameters body scope).2 (t.addFunction parameters body scope).2
  define {s t name e value} (scope : ScopeId) : related s t → code.stmt (.bind name e) →
    code.InValue value → related (s.define scope name value) (t.define scope name value)
  /-- The next scope is the same one in both. -/
  size {s t} : related s t → s.scopes.size = t.scopes.size
  enter {s t f arguments} : related s t → code.InValue (.function f) →
    (∀ value ∈ arguments, code.InValue value) → related (s.enter f arguments) (t.enter f arguments)

namespace Lockstep

variable {α β : Type}

/-- Computations that go on alike after ending alike. -/
theorem rel_bind {r : α → α → Prop} {r' : β → β → Prop} {a b : Option α} {f g : α → Option β}
    (h : Option.Rel r a b) (hnext : ∀ x y, r x y → Option.Rel r' (f x) (g y)) :
    Option.Rel r' (a.bind f) (b.bind g) := by
  cases h with
  | none => exact .none
  | some h => exact hnext _ _ h

open CodeProperty (inValue_nil inValue_of_isComputed)

variable (l : Lockstep)

/-- The evaluation runs alike on stores that go together, and a result has `post`. -/
def Follows (post : α → Prop) (eval : Eval α) : Prop :=
  ∀ s t, l.related s t →
    Option.Rel (fun r r' => r.1 = r'.1 ∧ post r.1 ∧ l.related r.2 r'.2) (eval s) (eval t)

/-- Calls run alike. -/
def Permits (call : Caller) : Prop :=
  ∀ callee arguments, l.code.InValue callee → (∀ value ∈ arguments, l.code.InValue value) →
    l.Follows l.code.InValue (call callee arguments)

def InResult : Except Value (List Value) → Prop
  | .ok values => ∀ value ∈ values, l.code.InValue value
  | .error value => l.code.InValue value

variable {l}

namespace Follows

variable {post : α → Prop} {post' : β → Prop} {eval : Eval α}

theorem pure {a : α} (h : post a) : l.Follows post (Pure.pure a) :=
  fun _ _ hrelated => .some ⟨rfl, h, hrelated⟩

theorem bind {next : α → Eval β} (h : l.Follows post eval)
    (hnext : ∀ a, post a → l.Follows post' (next a)) : l.Follows post' (eval >>= next) := by
  intro s t hrelated
  refine rel_bind (h s t hrelated) ?_
  rintro ⟨a, s'⟩ ⟨_, t'⟩ ⟨rfl, ha, hrelated'⟩
  exact hnext a ha s' t' hrelated'

theorem proceed {eval : Eval Value} {next : Value → Eval Value}
    (h : l.Follows l.code.InValue eval)
    (hnext : ∀ value, l.code.InValue value → l.Follows l.code.InValue (next value)) :
    l.Follows l.code.InValue (eval.proceed next) := by
  refine h.bind fun value hvalue => ?_
  split
  · exact pure hvalue
  · exact hnext value hvalue

end Follows

mutual

theorem follows_expr {call : Caller} (hcall : l.Permits call) {scope : ScopeId} :
    ∀ e : Expr, l.code.expr e → l.Follows l.code.InValue (e.eval call scope)
  | .name name, h => by
    intro s t hrelated
    obtain ⟨hlookup, hvalue⟩ := l.lookup scope hrelated h
    refine .some ⟨by rw [hlookup], ?_, hrelated⟩
    cases hfound : s.lookup scope name with
    | none => trivial
    | some value => exact hvalue value hfound
  | .int _, _ => .pure trivial
  | .bool _, _ => .pure trivial
  | .unary op operand, h =>
    (follows_expr hcall operand (l.code.of_unary h)).proceed fun value _ =>
      .pure (inValue_of_isComputed (op.isComputed_apply value))
  | .binary op left right, h =>
    have ⟨hleft, hright⟩ := l.code.of_binary h
    (follows_expr hcall left hleft).proceed fun value _ =>
      (follows_expr hcall right hright).proceed fun value' _ =>
        .pure (inValue_of_isComputed (op.isComputed_apply value value'))
  | .ifElse condition consequence alternative, h => by
    obtain ⟨hcondition, hconsequence, halternative⟩ := l.code.of_ifElse h
    refine (follows_expr hcall condition hcondition).proceed fun value _ => ?_
    split
    · exact follows_statements hcall inValue_nil consequence hconsequence
    · exact follows_else hcall alternative halternative
  | .function parameters body, h => by
    intro s t hrelated
    have hid := l.functions hrelated
    refine .some ⟨?_, h, l.addFunction parameters body scope hrelated⟩
    show Value.function ⟨s.functions, parameters, body, scope⟩ = _
    rw [hid]
  | .call callee arguments, h => by
    obtain ⟨hcallee, harguments⟩ := l.code.of_call h
    refine (follows_expr hcall callee hcallee).proceed fun value hvalue => ?_
    refine (follows_arguments hcall arguments harguments).bind fun result hresult => ?_
    cases result with
    | ok values => exact hcall value values hvalue hresult
    | error value => exact .pure hresult

theorem follows_stmt {call : Caller} (hcall : l.Permits call) {scope : ScopeId} :
    ∀ s : Stmt, l.code.stmt s → l.Follows l.code.InValue (s.eval call scope)
  | .bind _ value, h =>
    (follows_expr hcall value (l.code.of_bind h)).proceed fun _ hvalue _ _ hrelated =>
      .some ⟨rfl, trivial, l.define scope hrelated h hvalue⟩
  | .ret value, h =>
    (follows_expr hcall value (l.code.of_ret h)).proceed fun _ hvalue => .pure hvalue
  | .expr e, h => follows_expr hcall e (l.code.of_expr h)
  | .block ss, h => follows_statements hcall inValue_nil ss (l.code.of_block h)

theorem follows_statements {call : Caller} (hcall : l.Permits call) {scope : ScopeId}
    {last : Value} (hlast : l.code.InValue last) :
    ∀ ss : List Stmt, l.code.statements ss →
      l.Follows l.code.InValue (evalStatements call scope last ss)
  | [], _ => .pure hlast
  | s :: ss, h =>
    have ⟨hs, hss⟩ := l.code.of_cons h
    (follows_stmt hcall s hs).proceed fun _ hvalue => follows_statements hcall hvalue ss hss

theorem follows_else {call : Caller} (hcall : l.Permits call) {scope : ScopeId} :
    ∀ alternative : Option (List Stmt), l.code.alternative alternative →
      l.Follows l.code.InValue (evalElse call scope alternative)
  | none, _ => .pure trivial
  | some ss, h => follows_statements hcall inValue_nil ss (l.code.of_some h)

theorem follows_arguments {call : Caller} (hcall : l.Permits call) {scope : ScopeId} :
    ∀ es : List Expr, l.code.exprs es → l.Follows l.InResult (evalArguments call scope es)
  | [], _ => .pure nofun
  | e :: es, h => by
    obtain ⟨he, hes⟩ := l.code.of_argument h
    refine (follows_expr hcall e he).bind fun value hvalue => ?_
    split
    · exact .pure hvalue
    · refine (follows_arguments hcall es hes).bind fun result hresult => ?_
      cases result with
      | ok values => exact .pure (List.forall_mem_cons.mpr ⟨hvalue, hresult⟩)
      | error value => exact .pure hresult

end

theorem permits_applyWithin (depth : Nat) : l.Permits (applyWithin depth) := by
  induction depth with
  | zero => exact fun _ _ _ _ _ _ _ => .none
  | succ depth ih =>
    intro callee arguments hcallee harguments
    cases callee with
    | function f =>
      by_cases hlength : f.parameters.length = arguments.length
      · intro s t hrelated
        have hbody : l.Follows l.code.InValue
            (evalStatements (applyWithin depth) s.scopes.size .nil f.body) :=
          follows_statements ih inValue_nil f.body (l.code.of_function hcallee)
        rw [applyWithin_function hlength, applyWithin_function hlength, ← l.size hrelated,
          Option.map_eq_bind, Option.map_eq_bind]
        refine rel_bind (hbody _ _ (l.enter hrelated hcallee harguments)) ?_
        rintro ⟨value, s'⟩ ⟨_, t'⟩ ⟨rfl, hvalue, hrelated'⟩
        exact .some ⟨rfl, hvalue.arrived, hrelated'⟩
      · rw [applyWithin, if_pos hlength]
        exact .pure trivial
    | int | bool | nil | returned | error => exact .pure trivial

end Lockstep

end LetScript
