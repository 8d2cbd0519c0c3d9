import LetScript.Proofs.Evaluation.Continuation

/-! How deep calls may nest. A bound on it decides whether there is a result, not which:
what has a result has it with every greater bound too, as all that a call with one more
level does otherwise is to evaluate a body with one more level. So two runs of a text that
both have a result have the same one, whatever the bounds. -/
namespace LetScript

/-- Whatever the first computation results in, the second one does too. -/
def Eval.Extends {α : Type} (eval eval' : Eval α) : Prop :=
  ∀ store result, eval store = some result → eval' store = some result

/-- Whatever a call results in with `call`, it does with `call'` too. -/
def Caller.Extends (call call' : Caller) : Prop :=
  ∀ callee arguments, (call callee arguments).Extends (call' callee arguments)

namespace Eval.Extends

variable {α β : Type}

theorem refl (eval : Eval α) : eval.Extends eval :=
  fun _ _ h => h

theorem trans {eval eval' eval'' : Eval α} (h : eval.Extends eval') (h' : eval'.Extends eval'') :
    eval.Extends eval'' :=
  fun store result hresult => h' store result (h store result hresult)

theorem bind {eval eval' : Eval α} {next next' : α → Eval β} (h : eval.Extends eval')
    (hnext : ∀ a, (next a).Extends (next' a)) : (eval >>= next).Extends (eval' >>= next') := by
  rintro store ⟨b, store''⟩ hbind
  obtain ⟨a, store', heval, hrest⟩ := bind_eq_some_iff.mp hbind
  exact bind_eq_some_iff.mpr ⟨a, store', h _ _ heval, hnext a _ _ hrest⟩

theorem proceed {eval eval' : Eval Value} {next next' : Value → Eval Value}
    (h : eval.Extends eval') (hnext : ∀ value, (next value).Extends (next' value)) :
    (eval.proceed next).Extends (eval'.proceed next') := by
  refine h.bind fun value => ?_
  split
  · exact refl _
  · exact hnext value

end Eval.Extends

open Eval (Extends)

variable {call call' : Caller}

mutual

theorem Expr.extends_eval (hcall : call.Extends call') (scope : ScopeId) :
    ∀ e : Expr, (e.eval call scope).Extends (e.eval call' scope)
  | .name _ | .int _ | .bool _ | .function _ _ => .refl _
  | .unary _ operand => (operand.extends_eval hcall scope).proceed fun _ => .refl _
  | .binary _ left right =>
    (left.extends_eval hcall scope).proceed fun _ =>
      (right.extends_eval hcall scope).proceed fun _ => .refl _
  | .ifElse condition consequence alternative =>
    (condition.extends_eval hcall scope).proceed fun value => by
      split
      · exact extends_evalStatements hcall scope .nil consequence
      · exact extends_evalElse hcall scope alternative
  | .call callee arguments =>
    (callee.extends_eval hcall scope).proceed fun value => by
      refine (extends_evalArguments hcall scope arguments).bind fun result => ?_
      cases result with
      | ok values => exact hcall value values
      | error value => exact .refl _

theorem Stmt.extends_eval (hcall : call.Extends call') (scope : ScopeId) :
    ∀ s : Stmt, (s.eval call scope).Extends (s.eval call' scope)
  | .bind _ e | .ret e => (e.extends_eval hcall scope).proceed fun _ => .refl _
  | .expr e => e.extends_eval hcall scope
  | .block ss => extends_evalStatements hcall scope .nil ss

theorem extends_evalStatements (hcall : call.Extends call') (scope : ScopeId) (last : Value) :
    ∀ ss : List Stmt,
      (evalStatements call scope last ss).Extends (evalStatements call' scope last ss)
  | [] => .refl _
  | s :: ss =>
    (s.extends_eval hcall scope).proceed fun value => extends_evalStatements hcall scope value ss

theorem extends_evalElse (hcall : call.Extends call') (scope : ScopeId) :
    ∀ alternative : Option (List Stmt),
      (evalElse call scope alternative).Extends (evalElse call' scope alternative)
  | none => .refl _
  | some ss => extends_evalStatements hcall scope .nil ss

theorem extends_evalArguments (hcall : call.Extends call') (scope : ScopeId) :
    ∀ es : List Expr, (evalArguments call scope es).Extends (evalArguments call' scope es)
  | [] => .refl _
  | e :: es =>
    (e.extends_eval hcall scope).bind fun value => by
      split
      · exact .refl _
      · exact (extends_evalArguments hcall scope es).bind fun _ => .refl _

end

/-! ### Levels of calls -/

variable {depth depth' : Nat}

theorem extends_applyWithin_succ (depth : Nat) :
    (applyWithin depth).Extends (applyWithin (depth + 1)) := by
  induction depth with
  | zero => exact fun _ _ _ _ => nofun
  | succ depth ih =>
    intro callee arguments
    cases callee with
    | function f =>
      by_cases hlength : f.parameters.length = arguments.length
      · intro store result h
        rw [applyWithin_function hlength] at h ⊢
        obtain ⟨body, hbody, rfl⟩ := Option.map_eq_some_iff.mp h
        rw [extends_evalStatements ih store.scopes.size .nil f.body _ _ hbody, Option.map_some]
      · rw [applyWithin, applyWithin, if_pos hlength, if_pos hlength]
        exact .refl _
    | int | bool | nil | returned | error => exact .refl _

theorem extends_applyWithin (h : depth ≤ depth') :
    (applyWithin depth).Extends (applyWithin depth') := by
  induction h with
  | refl => exact fun callee arguments => .refl _
  | @step depth' _ ih =>
    intro callee arguments
    exact (ih callee arguments).trans (extends_applyWithin_succ depth' callee arguments)

/-- With more levels of calls an evaluation ends as it does with fewer, if it ends then. -/
theorem Activity.eval_mono {scope : ScopeId} {task : Task} {store : Store}
    {result : Value × Store} (hle : depth ≤ depth')
    (h : Activity.eval ⟨depth, scope, task, store⟩ = some result) :
    Activity.eval ⟨depth', scope, task, store⟩ = some result := by
  have hcall := extends_applyWithin hle
  cases task with
  | expr e => exact e.extends_eval hcall scope store result h
  | stmt s => exact s.extends_eval hcall scope store result h
  | block ss => exact extends_evalStatements hcall scope .nil ss store result h
  | call callee arguments => exact hcall callee arguments store result h

namespace Interpreter

variable {i : Interpreter} {text : String}

/-- A run that has a result has the same one with more levels of calls. -/
theorem run_mono {result : Except (List Diagnostic) Value × Interpreter} (hle : depth ≤ depth')
    (h : i.run depth text = some result) : i.run depth' text = some result := by
  cases hparse : Program.parse text with
  | error diagnostics =>
    rw [run, hparse] at h ⊢
    exact h
  | ok p =>
    rw [run_of_parse_eq_ok hparse] at h ⊢
    obtain ⟨ended, heval, rfl⟩ := Option.map_eq_some_iff.mp h
    rw [extends_evalStatements (extends_applyWithin hle) i.scope .nil p.statements _ _ heval,
      Option.map_some]

/-- Runs of a text that have results have the same one. -/
theorem run_unique {result result' : Except (List Diagnostic) Value × Interpreter}
    (h : i.run depth text = some result) (h' : i.run depth' text = some result') :
    result = result' := by
  obtain hle | hle := Nat.le_total depth depth'
  · exact Option.some.inj ((run_mono hle h).symm.trans h')
  · exact Option.some.inj (h.symm.trans (run_mono hle h'))

end Interpreter

end LetScript
