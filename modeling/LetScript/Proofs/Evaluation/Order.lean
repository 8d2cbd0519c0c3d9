import LetScript.Proofs.Evaluation.Parts
import Mathlib.Logic.Relation

/-! The evaluations that an evaluation consists of, in the order in which they end. Each
starts with the store that the one before it has left, and one that ends in an error or a
`return` is the last of its kind. -/
namespace LetScript.Activity

/-- The evaluation and what comes after it, if it has a value to go on with. -/
def andThen (a : Activity) (next : Value → Store → List Activity) : List Activity :=
  a :: match a.eval with
    | some (value, store) => if value.isAbrupt then [] else next value store
    | none => []

def argumentParts (depth : Nat) (scope : ScopeId) (next : List Value → Store → List Activity) :
    List Expr → Store → List Activity
  | [], store => next [] store
  | e :: es, store =>
    andThen ⟨depth, scope, .expr e, store⟩ fun value =>
      argumentParts depth scope (fun values => next (value :: values)) es

def statementParts (depth : Nat) (scope : ScopeId) : List Stmt → Store → List Activity
  | [], _ => []
  | s :: ss, store =>
    andThen ⟨depth, scope, .stmt s, store⟩ fun _ => statementParts depth scope ss

/-- The evaluations that are direct parts of the evaluation. -/
def parts : Activity → List Activity
  | ⟨depth, scope, .expr e, store⟩ =>
    match e with
    | .name _ | .int _ | .bool _ | .function _ _ => []
    | .unary _ operand => [⟨depth, scope, .expr operand, store⟩]
    | .binary _ left right =>
      andThen ⟨depth, scope, .expr left, store⟩ fun _ store => [⟨depth, scope, .expr right, store⟩]
    | .ifElse condition consequence alternative =>
      andThen ⟨depth, scope, .expr condition, store⟩ fun value store =>
        if value.isTruthy then [⟨depth, scope, .block consequence, store⟩]
        else (alternative.map fun ss => ⟨depth, scope, .block ss, store⟩).toList
    | .call callee arguments =>
      andThen ⟨depth, scope, .expr callee, store⟩ fun callee =>
        argumentParts depth scope (fun arguments store =>
          [⟨depth, scope, .call callee arguments, store⟩]) arguments
  | ⟨depth, scope, .stmt s, store⟩ =>
    match s with
    | .bind _ e | .ret e | .expr e => [⟨depth, scope, .expr e, store⟩]
    | .block ss => [⟨depth, scope, .block ss, store⟩]
  | ⟨depth, scope, .block ss, store⟩ => statementParts depth scope ss store
  | ⟨depth + 1, _, .call (.function f) arguments, store⟩ =>
    if f.parameters.length = arguments.length then
      [⟨depth, store.scopes.size, .block f.body, store.enter f arguments⟩]
    else []
  | ⟨_, _, .call _ _, _⟩ => []

/-! ### Parts as they are started -/

variable {a b : Activity} {depth : Nat} {scope : ScopeId} {store : Store}

theorem andThen_of_eq_some {next : Value → Store → List Activity} {value : Value}
    (h : a.eval = some (value, store)) (hvalue : value.isAbrupt = false) :
    a.andThen next = a :: next value store := by
  rw [andThen, h]
  simp [hvalue]

theorem andThen_of_forall_isAbrupt {next : Value → Store → List Activity}
    (h : ∀ value store, a.eval = some (value, store) → value.isAbrupt = true) :
    a.andThen next = [a] := by
  rw [andThen]
  split
  · next value store heval => simp [h value store heval]
  · rfl

theorem andThen_nil : a.andThen (fun _ _ => []) = [a] := by
  rw [andThen]
  split <;> simp

/-- Either there is a value to go on with, or the evaluation is where it all ends. -/
theorem exists_value_or_isAbrupt (a : Activity) :
    (∃ value store, a.eval = some (value, store) ∧ value.isAbrupt = false) ∨
      ∀ value store, a.eval = some (value, store) → value.isAbrupt = true := by
  cases heval : a.eval with
  | none => exact .inr nofun
  | some result =>
    obtain ⟨value, store⟩ := result
    cases hvalue : value.isAbrupt with
    | false => exact .inl ⟨value, store, rfl, hvalue⟩
    | true =>
      refine .inr ?_
      rintro _ _ ⟨⟩
      exact hvalue

theorem mem_andThen {next : Value → Store → List Activity} : b ∈ a.andThen next ↔
    b = a ∨ ∃ value store', a.eval = some (value, store') ∧ value.isAbrupt = false ∧
      b ∈ next value store' := by
  obtain ⟨value, store', heval, hvalue⟩ | habrupt := a.exists_value_or_isAbrupt
  · rw [andThen_of_eq_some heval hvalue, List.mem_cons]
    refine or_congr_right ⟨fun hb => ⟨value, store', heval, hvalue, hb⟩, ?_⟩
    rintro ⟨_, _, heq, -, hb⟩
    cases heval.symm.trans heq
    exact hb
  · rw [andThen_of_forall_isAbrupt habrupt, List.mem_singleton]
    refine (or_iff_left ?_).symm
    rintro ⟨value, store', heval, hvalue, -⟩
    cases hvalue.symm.trans (habrupt value store' heval)

theorem mem_argumentParts {next : List Value → Store → List Activity} {es : List Expr} :
    b ∈ argumentParts depth scope next es store ↔
      (∃ before e after values store', es = before ++ e :: after ∧
        evalArguments (applyWithin depth) scope before store = some (.ok values, store') ∧
        b = ⟨depth, scope, .expr e, store'⟩) ∨
      ∃ values store', evalArguments (applyWithin depth) scope es store =
        some (.ok values, store') ∧ b ∈ next values store' := by
  induction es generalizing next store with
  | nil =>
    constructor
    · exact fun h => .inr ⟨[], store, rfl, h⟩
    · rintro (⟨before, e, after, _, _, heq, -⟩ | ⟨_, _, ⟨⟩, h⟩)
      · cases before <;> cases heq
      · exact h
  | cons first rest ih =>
    rw [argumentParts, mem_andThen]
    constructor
    · rintro (rfl | ⟨value, store', hfirst, hvalue, h⟩)
      · exact .inl ⟨[], first, rest, [], store, rfl, rfl, rfl⟩
      · obtain ⟨before, e, after, values, store'', rfl, hbefore, rfl⟩ |
          ⟨values, store'', hrest, h⟩ := ih.mp h
        · exact .inl ⟨first :: before, e, after, value :: values, store'', rfl,
            evalArguments_cons_eq_some_iff.mpr
              ⟨value, store', values, hfirst, hvalue, hbefore, rfl⟩, rfl⟩
        · exact .inr ⟨value :: values, store'', evalArguments_cons_eq_some_iff.mpr
            ⟨value, store', values, hfirst, hvalue, hrest, rfl⟩, h⟩
    · rintro (⟨_ | ⟨_, before⟩, e, after, values, store'', ⟨⟩, hbefore, rfl⟩ |
        ⟨values, store'', hall, h⟩)
      · cases hbefore
        exact .inl rfl
      · obtain ⟨value, store', more, hfirst, hvalue, hmore, rfl⟩ :=
          evalArguments_cons_eq_some_iff.mp hbefore
        exact .inr ⟨value, store', hfirst, hvalue,
          ih.mpr (.inl ⟨before, e, after, more, store'', rfl, hmore, rfl⟩)⟩
      · obtain ⟨value, store', more, hfirst, hvalue, hmore, rfl⟩ :=
          evalArguments_cons_eq_some_iff.mp hall
        exact .inr ⟨value, store', hfirst, hvalue, ih.mpr (.inr ⟨more, store'', hmore, h⟩)⟩

theorem mem_statementParts {ss : List Stmt} {last : Value} (hlast : last.isAbrupt = false) :
    b ∈ statementParts depth scope ss store ↔
      ∃ before s after value store', ss = before ++ s :: after ∧
        evalStatements (applyWithin depth) scope last before store = some (value, store') ∧
        value.isAbrupt = false ∧ b = ⟨depth, scope, .stmt s, store'⟩ := by
  induction ss generalizing last store with
  | nil =>
    refine ⟨nofun, ?_⟩
    rintro ⟨before, s, after, _, _, heq, -⟩
    cases before <;> cases heq
  | cons first rest ih =>
    rw [statementParts, mem_andThen]
    constructor
    · rintro (rfl | ⟨value, store', hfirst, hvalue, h⟩)
      · exact ⟨[], first, rest, last, store, rfl, rfl, hlast, rfl⟩
      · obtain ⟨before, s, after, value', store'', rfl, hbefore, hvalue', rfl⟩ :=
          (ih hvalue).mp h
        exact ⟨first :: before, s, after, value', store'', rfl,
          (Eval.proceed_eq_some_iff hvalue').mpr ⟨value, store', hfirst, hvalue, hbefore⟩,
          hvalue', rfl⟩
    · rintro ⟨_ | ⟨_, before⟩, s, after, value, store'', ⟨⟩, hbefore, hvalue, rfl⟩
      · cases hbefore
        exact .inl rfl
      · obtain ⟨value', store', hfirst, hvalue', hmore⟩ :=
          (Eval.proceed_eq_some_iff hvalue).mp hbefore
        exact .inr ⟨value', store', hfirst, hvalue',
          (ih hvalue').mpr ⟨before, s, after, value, store'', rfl, hmore, hvalue, rfl⟩⟩

theorem mem_parts_iff : b ∈ a.parts ↔ a.Starts b := by
  constructor
  · intro h
    obtain ⟨depth, scope, task, store⟩ := a
    cases task with
    | expr e =>
      cases e with
      | name | int | bool | function => cases h
      | unary op operand =>
        cases List.mem_singleton.mp h
        exact .operand
      | binary op left right =>
        obtain rfl | ⟨value, store', hleft, hvalue, h⟩ := mem_andThen.mp h
        · exact .left
        · cases List.mem_singleton.mp h
          exact .right hleft hvalue
      | ifElse condition consequence alternative =>
        obtain rfl | ⟨value, store', hcondition, hvalue, h⟩ := mem_andThen.mp h
        · exact .condition
        · split at h
          · next htruthy =>
            cases List.mem_singleton.mp h
            exact .consequence hcondition hvalue htruthy
          · next htruthy =>
            cases alternative with
            | none => cases h
            | some ss =>
              cases List.mem_singleton.mp h
              exact .alternative hcondition hvalue (by simpa using htruthy)
      | call callee arguments =>
        obtain rfl | ⟨value, store', hcallee, hvalue, h⟩ := mem_andThen.mp h
        · exact .callee
        · obtain ⟨before, e, after, values, store'', rfl, hbefore, rfl⟩ |
            ⟨values, store'', hall, h⟩ := mem_argumentParts.mp h
          · exact .argument hcallee hvalue hbefore
          · cases List.mem_singleton.mp h
            exact .call hcallee hvalue hall
    | stmt s =>
      cases s with
      | bind =>
        cases List.mem_singleton.mp h
        exact .bind
      | ret =>
        cases List.mem_singleton.mp h
        exact .ret
      | expr =>
        cases List.mem_singleton.mp h
        exact .expr
      | block =>
        cases List.mem_singleton.mp h
        exact .block
    | block ss =>
      have hnil : Value.nil.isAbrupt = false := rfl
      obtain ⟨before, s, after, value, store', rfl, hbefore, hvalue, rfl⟩ :=
        (mem_statementParts hnil).mp h
      exact .statement hbefore hvalue
    | call callee arguments =>
      cases callee with
      | function f =>
        cases depth with
        | zero => cases h
        | succ depth =>
          rw [parts] at h
          split at h
          · next hlength =>
            cases List.mem_singleton.mp h
            exact .body hlength
          · cases h
      | _ => cases depth <;> cases h
  · intro h
    cases h with
    | operand | bind | ret | expr | block => exact List.mem_singleton_self _
    | left | condition | callee => exact mem_andThen.mpr (.inl rfl)
    | right h hvalue =>
      exact mem_andThen.mpr (.inr ⟨_, _, h, hvalue, List.mem_singleton_self _⟩)
    | consequence h hvalue htruthy | alternative h hvalue htruthy =>
      refine mem_andThen.mpr (.inr ⟨_, _, h, hvalue, ?_⟩)
      rw [htruthy]
      exact List.mem_singleton_self _
    | argument h hvalue hbefore =>
      exact mem_andThen.mpr (.inr ⟨_, _, h, hvalue,
        mem_argumentParts.mpr (.inl ⟨_, _, _, _, _, rfl, hbefore, rfl⟩)⟩)
    | call h hvalue harguments =>
      exact mem_andThen.mpr (.inr ⟨_, _, h, hvalue,
        mem_argumentParts.mpr (.inr ⟨_, _, harguments, List.mem_singleton_self _⟩)⟩)
    | statement hbefore hvalue =>
      exact (mem_statementParts rfl).mpr ⟨_, _, _, _, _, rfl, hbefore, hvalue, rfl⟩
    | body hlength =>
      rw [parts, if_pos hlength]
      exact List.mem_singleton_self _

/-! ### All that an evaluation consists of -/

end LetScript.Activity

namespace LetScript

/-- How much code there is to the task. A call goes on in the code of another function. -/
noncomputable def Task.size : Task → Nat
  | .expr e => sizeOf e
  | .stmt s => sizeOf s
  | .block ss => sizeOf ss
  | .call _ _ => 0

namespace Activity

variable {a b : Activity}

theorem Starts.rank_lt (h : a.Starts b) :
    Prod.Lex (· < ·) (· < ·) (b.depth, b.task.size) (a.depth, a.task.size) := by
  cases h with
  | body => exact .left _ _ (Nat.lt_succ_self _)
  | @argument _ _ _ before e after =>
    have hlt : sizeOf e < sizeOf (before ++ e :: after) :=
      List.sizeOf_lt_of_mem List.mem_append_cons_self
    refine .right _ ?_
    simp only [Task.size, Expr.call.sizeOf_spec]
    omega
  | statement => exact .right _ (List.sizeOf_lt_of_mem List.mem_append_cons_self)
  | _ =>
    refine .right _ ?_
    simp +arith [Task.size]

/-- The evaluations within an evaluation and then the evaluation itself, in the order in which they
end. -/
def within (a : Activity) : List Activity :=
  a.parts.attach.flatMap (fun part => within part.1) ++ [a]
termination_by (a.depth, a.task.size)
decreasing_by exact (mem_parts_iff.mp part.2).rank_lt

theorem within_eq (a : Activity) : a.within = a.parts.flatMap within ++ [a] := by
  rw [within]
  simp

theorem wellFounded_starts : WellFounded fun b a : Activity => a.Starts b :=
  Subrelation.wf (fun h => h.rank_lt) (InvImage.wf (fun a : Activity => (a.depth, a.task.size))
    (Prod.lex Nat.lt_wfRel Nat.lt_wfRel).wf)

theorem mem_within_iff : b ∈ a.within ↔ Relation.ReflTransGen Starts a b := by
  induction a using wellFounded_starts.induction with
  | _ a ih =>
    rw [within_eq, List.mem_append, List.mem_flatMap, List.mem_singleton]
    constructor
    · rintro (⟨part, hpart, hb⟩ | rfl)
      · have hstarts := mem_parts_iff.mp hpart
        exact .head hstarts ((ih part hstarts).mp hb)
      · exact .refl
    · intro h
      obtain rfl | ⟨part, hstarts, h⟩ := Relation.ReflTransGen.cases_head h
      · exact .inr rfl
      · exact .inl ⟨part, mem_parts_iff.mpr hstarts, (ih part hstarts).mpr h⟩

end Activity

end LetScript
