import LetScript.Evaluation

/-! The parts of an evaluation: which other evaluations it starts, with which store. They
are all that it depends on for a result, so that one without a result is one that comes
to a call with no calls left. -/
namespace LetScript

namespace Eval

variable {α β : Type} {eval : Eval α} {next : α → Eval β} {store : Store}

theorem bind_eq_none_iff : (eval >>= next) store = none ↔
    eval store = none ∨ ∃ a store', eval store = some (a, store') ∧ next a store' = none := by
  change Option.bind (eval store) _ = none ↔ _
  cases eval store with
  | none => simp
  | some result =>
    obtain ⟨a, store'⟩ := result
    constructor
    · exact fun h => .inr ⟨a, store', rfl, h⟩
    · rintro (h | ⟨_, _, ⟨⟩, h⟩)
      · cases h
      · exact h

theorem bind_eq_some_iff {b : β} {store'' : Store} : (eval >>= next) store = some (b, store'') ↔
    ∃ a store', eval store = some (a, store') ∧ next a store' = some (b, store'') := by
  change Option.bind (eval store) _ = some (b, store'') ↔ _
  cases eval store with
  | none => simp
  | some result =>
    obtain ⟨a, store'⟩ := result
    constructor
    · exact fun h => ⟨a, store', rfl, h⟩
    · rintro ⟨_, _, ⟨⟩, h⟩
      exact h

variable {eval : Eval Value} {next : Value → Eval Value}

theorem proceed_eq_none_iff : eval.proceed next store = none ↔ eval store = none ∨
    ∃ value store', eval store = some (value, store') ∧ value.isAbrupt = false ∧
      next value store' = none := by
  rw [proceed, bind_eq_none_iff]
  refine or_congr_right (exists_congr fun value => exists_congr fun store' =>
    and_congr_right fun _ => ?_)
  cases value.isAbrupt with
  | false => simp
  | true => exact ⟨nofun, nofun⟩

/-- A value that could be gone on with comes from what was gone on to. -/
theorem proceed_eq_some_iff {value : Value} {store'' : Store} (hvalue : value.isAbrupt = false) :
    eval.proceed next store = some (value, store'') ↔ ∃ first store',
      eval store = some (first, store') ∧ first.isAbrupt = false ∧
        next first store' = some (value, store'') := by
  rw [proceed, bind_eq_some_iff]
  refine exists_congr fun first => exists_congr fun store' => and_congr_right fun _ => ?_
  cases hfirst : first.isAbrupt with
  | false => simp
  | true =>
    refine ⟨?_, nofun⟩
    rintro ⟨⟩
    rw [hfirst] at hvalue
    cases hvalue

variable {value : Value} {store' : Store}

theorem proceed_of_eq_some (h : eval store = some (value, store'))
    (hvalue : value.isAbrupt = false) : eval.proceed next store = next value store' := by
  show Option.bind (eval store) _ = _
  rw [h, Option.bind_some]
  simp only [hvalue]
  rfl

/-- Without a value to go on with, the rest makes no difference. -/
theorem proceed_of_forall_isAbrupt
    (h : ∀ value store', eval store = some (value, store') → value.isAbrupt = true) :
    eval.proceed next store = eval store := by
  show Option.bind (eval store) _ = _
  cases heval : eval store with
  | none => rfl
  | some result =>
    obtain ⟨value, store'⟩ := result
    rw [Option.bind_some]
    simp only [h value store' heval]
    rfl

theorem proceed_of_isAbrupt (h : eval store = some (value, store'))
    (hvalue : value.isAbrupt = true) : eval.proceed next store = some (value, store') := by
  refine (proceed_of_forall_isAbrupt fun first store'' hfirst => ?_).trans h
  obtain ⟨⟨⟩⟩ := hfirst.symm.trans h
  exact hvalue

theorem proceed_congr {next' : Value → Eval Value}
    (h : ∀ value, value.isAbrupt = false → next value = next' value) :
    eval.proceed next = eval.proceed next' := by
  refine congrArg (eval >>= ·) (funext fun value => ?_)
  cases hvalue : value.isAbrupt with
  | true => rfl
  | false => exact h value hvalue

theorem proceed_assoc {next' : Value → Eval Value} :
    (eval.proceed next).proceed next' = eval.proceed fun value => (next value).proceed next' := by
  rw [proceed, proceed, bind_assoc]
  refine congrArg (eval >>= ·) (funext fun value => ?_)
  cases hvalue : value.isAbrupt with
  | true => simp [hvalue]
  | false => rfl

theorem pure_proceed (h : value.isAbrupt = false) :
    (pure value : Eval Value).proceed next = next value := by
  rw [proceed, pure_bind, h]
  rfl

end Eval

variable {call : Caller} {scope : ScopeId}

/-- The statements after some go on from the value of those. -/
theorem evalStatements_append {last : Value} (hlast : last.isAbrupt = false)
    (ss more : List Stmt) : evalStatements call scope last (ss ++ more) =
      (evalStatements call scope last ss).proceed fun value =>
        evalStatements call scope value more := by
  induction ss generalizing last with
  | nil =>
    rw [evalStatements, Eval.pure_proceed hlast]
    rfl
  | cons s ss ih =>
    rw [List.cons_append, evalStatements, evalStatements, Eval.proceed_assoc]
    exact Eval.proceed_congr fun value hvalue => ih hvalue

theorem evalStatements_eq_none_iff {ss : List Stmt} {last : Value} {store : Store}
    (hlast : last.isAbrupt = false) : evalStatements call scope last ss store = none ↔
      ∃ before s after value store', ss = before ++ s :: after ∧
        evalStatements call scope last before store = some (value, store') ∧
        value.isAbrupt = false ∧ s.eval call scope store' = none := by
  induction ss generalizing last store with
  | nil =>
    constructor
    · nofun
    · rintro ⟨before, s, after, _, _, heq, -⟩
      cases before <;> cases heq
  | cons first rest ih =>
    rw [evalStatements, Eval.proceed_eq_none_iff]
    constructor
    · rintro (h | ⟨value, store', hfirst, hvalue, h⟩)
      · exact ⟨[], first, rest, last, store, rfl, rfl, hlast, h⟩
      · obtain ⟨before, s, after, value', store'', rfl, hbefore, hvalue', hs⟩ := (ih hvalue).mp h
        refine ⟨first :: before, s, after, value', store'', rfl, ?_, hvalue', hs⟩
        exact (Eval.proceed_eq_some_iff hvalue').mpr ⟨value, store', hfirst, hvalue, hbefore⟩
    · rintro ⟨_ | ⟨_, before⟩, s, after, value, store'', ⟨⟩, hbefore, hvalue, hs⟩
      · cases hbefore
        exact .inl hs
      · obtain ⟨value', store', hfirst, hvalue', hmore⟩ :=
          (Eval.proceed_eq_some_iff hvalue).mp hbefore
        exact .inr ⟨value', store', hfirst, hvalue',
          (ih hvalue').mpr ⟨before, s, after, value, store'', rfl, hmore, hvalue, hs⟩⟩

theorem evalArguments_cons_eq_none_iff {e : Expr} {es : List Expr} {store : Store} :
    evalArguments call scope (e :: es) store = none ↔ e.eval call scope store = none ∨
      ∃ value store', e.eval call scope store = some (value, store') ∧ value.isAbrupt = false ∧
        evalArguments call scope es store' = none := by
  rw [evalArguments, Eval.bind_eq_none_iff]
  refine or_congr_right (exists_congr fun value => exists_congr fun store' =>
    and_congr_right fun _ => ?_)
  cases value.isAbrupt with
  | true => exact ⟨nofun, nofun⟩
  | false =>
    simp only [Bool.false_eq_true, if_false, true_and]
    rw [Eval.bind_eq_none_iff]
    refine or_iff_left ?_
    rintro ⟨result, _, _, h⟩
    cases result <;> cases h

theorem evalArguments_cons_eq_some_iff {e : Expr} {es : List Expr} {values : List Value}
    {store store'' : Store} :
    evalArguments call scope (e :: es) store = some (.ok values, store'') ↔
      ∃ value store' more, e.eval call scope store = some (value, store') ∧
        value.isAbrupt = false ∧ evalArguments call scope es store' = some (.ok more, store'') ∧
        values = value :: more := by
  rw [evalArguments, Eval.bind_eq_some_iff]
  constructor
  · rintro ⟨value, store', hvalue, h⟩
    cases habrupt : value.isAbrupt with
    | true =>
      rw [habrupt] at h
      cases h
    | false =>
      simp only [habrupt, Bool.false_eq_true, if_false] at h
      obtain ⟨result, _, hresult, h⟩ := Eval.bind_eq_some_iff.mp h
      cases result with
      | ok more =>
        cases h
        exact ⟨value, store', more, hvalue, habrupt, hresult, rfl⟩
      | error => cases h
  · rintro ⟨value, store', more, hvalue, habrupt, hmore, rfl⟩
    refine ⟨value, store', hvalue, ?_⟩
    simp only [habrupt, Bool.false_eq_true, if_false]
    exact Eval.bind_eq_some_iff.mpr ⟨_, _, hmore, rfl⟩

theorem evalArguments_eq_none_iff {es : List Expr} {store : Store} :
    evalArguments call scope es store = none ↔
      ∃ before e after values store', es = before ++ e :: after ∧
        evalArguments call scope before store = some (.ok values, store') ∧
        e.eval call scope store' = none := by
  induction es generalizing store with
  | nil =>
    constructor
    · nofun
    · rintro ⟨before, e, after, _, _, heq, -⟩
      cases before <;> cases heq
  | cons first rest ih =>
    rw [evalArguments_cons_eq_none_iff]
    constructor
    · rintro (h | ⟨value, store', hfirst, hvalue, h⟩)
      · exact ⟨[], first, rest, [], store, rfl, rfl, h⟩
      · obtain ⟨before, e, after, values, store'', rfl, hbefore, he⟩ := ih.mp h
        refine ⟨first :: before, e, after, value :: values, store'', rfl, ?_, he⟩
        exact evalArguments_cons_eq_some_iff.mpr
          ⟨value, store', values, hfirst, hvalue, hbefore, rfl⟩
    · rintro ⟨_ | ⟨_, before⟩, e, after, values, store'', ⟨⟩, hbefore, he⟩
      · cases hbefore
        exact .inl he
      · obtain ⟨value, store', more, hfirst, hvalue, hmore, rfl⟩ :=
          evalArguments_cons_eq_some_iff.mp hbefore
        exact .inr ⟨value, store', hfirst, hvalue,
          ih.mpr ⟨before, e, after, more, store'', rfl, hmore, he⟩⟩

/-- The store in which the body of a function is evaluated: a new scope, the last of all, has the
parameters. -/
def Store.enter (store : Store) (f : Closure) (arguments : List Value) : Store :=
  (store.addScope (some f.scope)).2.setAll store.scopes.size (f.parameters.zip arguments)

theorem applyWithin_function {depth : Nat} {f : Closure} {arguments : List Value} {store : Store}
    (h : f.parameters.length = arguments.length) :
    applyWithin (depth + 1) (.function f) arguments store =
      (evalStatements (applyWithin depth) store.scopes.size .nil f.body
        (store.enter f arguments)).map fun (value, store) => (value.arrived, store) := by
  rw [applyWithin, if_neg (not_not_intro h)]
  change Option.bind _ _ = _
  rw [Option.map_eq_bind]
  rfl

/-- What is evaluated. -/
inductive Task where
  | expr (e : Expr)
  | stmt (s : Stmt)
  | block (ss : List Stmt)
  | call (callee : Value) (arguments : List Value)

/-- An evaluation at its start. -/
structure Activity where
  depth : Nat
  scope : ScopeId
  task : Task
  store : Store

namespace Activity

def eval (a : Activity) : Option (Value × Store) :=
  match a.task with
  | .expr e => e.eval (applyWithin a.depth) a.scope a.store
  | .stmt s => s.eval (applyWithin a.depth) a.scope a.store
  | .block ss => evalStatements (applyWithin a.depth) a.scope .nil ss a.store
  | .call callee arguments => applyWithin a.depth callee arguments a.store

/-- The second evaluation is a direct part of the first. An argument or a statement comes after
those before it, and is not evaluated unless they let evaluation go on. -/
inductive Starts : Activity → Activity → Prop where
  | operand {d scope op e store} :
      Starts ⟨d, scope, .expr (.unary op e), store⟩ ⟨d, scope, .expr e, store⟩
  | left {d scope op left right store} :
      Starts ⟨d, scope, .expr (.binary op left right), store⟩ ⟨d, scope, .expr left, store⟩
  | right {d scope op left right store value store'}
      (h : left.eval (applyWithin d) scope store = some (value, store'))
      (hvalue : value.isAbrupt = false) :
      Starts ⟨d, scope, .expr (.binary op left right), store⟩ ⟨d, scope, .expr right, store'⟩
  | condition {d scope e ss alternative store} :
      Starts ⟨d, scope, .expr (.ifElse e ss alternative), store⟩ ⟨d, scope, .expr e, store⟩
  | consequence {d scope e ss alternative store value store'}
      (h : e.eval (applyWithin d) scope store = some (value, store'))
      (hvalue : value.isAbrupt = false) (htruthy : value.isTruthy = true) :
      Starts ⟨d, scope, .expr (.ifElse e ss alternative), store⟩ ⟨d, scope, .block ss, store'⟩
  | alternative {d scope e ss ss' store value store'}
      (h : e.eval (applyWithin d) scope store = some (value, store'))
      (hvalue : value.isAbrupt = false) (htruthy : value.isTruthy = false) :
      Starts ⟨d, scope, .expr (.ifElse e ss (some ss')), store⟩ ⟨d, scope, .block ss', store'⟩
  | callee {d scope callee arguments store} :
      Starts ⟨d, scope, .expr (.call callee arguments), store⟩ ⟨d, scope, .expr callee, store⟩
  | argument {d scope callee before e after store value store' values store''}
      (h : callee.eval (applyWithin d) scope store = some (value, store'))
      (hvalue : value.isAbrupt = false)
      (hbefore : evalArguments (applyWithin d) scope before store' = some (.ok values, store'')) :
      Starts ⟨d, scope, .expr (.call callee (before ++ e :: after)), store⟩
        ⟨d, scope, .expr e, store''⟩
  | call {d scope callee arguments store value store' values store''}
      (h : callee.eval (applyWithin d) scope store = some (value, store'))
      (hvalue : value.isAbrupt = false)
      (harguments : evalArguments (applyWithin d) scope arguments store' =
        some (.ok values, store'')) :
      Starts ⟨d, scope, .expr (.call callee arguments), store⟩
        ⟨d, scope, .call value values, store''⟩
  | bind {d scope name e store} :
      Starts ⟨d, scope, .stmt (.bind name e), store⟩ ⟨d, scope, .expr e, store⟩
  | ret {d scope e store} : Starts ⟨d, scope, .stmt (.ret e), store⟩ ⟨d, scope, .expr e, store⟩
  | expr {d scope e store} : Starts ⟨d, scope, .stmt (.expr e), store⟩ ⟨d, scope, .expr e, store⟩
  | block {d scope ss store} :
      Starts ⟨d, scope, .stmt (.block ss), store⟩ ⟨d, scope, .block ss, store⟩
  | statement {d scope before s after store value store'}
      (hbefore : evalStatements (applyWithin d) scope .nil before store = some (value, store'))
      (hvalue : value.isAbrupt = false) :
      Starts ⟨d, scope, .block (before ++ s :: after), store⟩ ⟨d, scope, .stmt s, store'⟩
  | body {d scope f arguments store} (h : f.parameters.length = arguments.length) :
      Starts ⟨d + 1, scope, .call (.function f) arguments, store⟩
        ⟨d, store.scopes.size, .block f.body, store.enter f arguments⟩

theorem Starts.eval_eq_none {a b : Activity} (h : a.Starts b) (hb : b.eval = none) :
    a.eval = none := by
  cases h with
  | operand | left | condition | callee | bind | ret => exact Eval.proceed_eq_none_iff.mpr (.inl hb)
  | expr | block => exact hb
  | right h hvalue =>
    exact Eval.proceed_eq_none_iff.mpr
      (.inr ⟨_, _, h, hvalue, Eval.proceed_eq_none_iff.mpr (.inl hb)⟩)
  | consequence h hvalue htruthy | alternative h hvalue htruthy =>
    refine Eval.proceed_eq_none_iff.mpr (.inr ⟨_, _, h, hvalue, ?_⟩)
    rw [htruthy]
    exact hb
  | argument h hvalue hbefore =>
    refine Eval.proceed_eq_none_iff.mpr (.inr ⟨_, _, h, hvalue, ?_⟩)
    refine Eval.bind_eq_none_iff.mpr (.inl ?_)
    exact evalArguments_eq_none_iff.mpr ⟨_, _, _, _, _, rfl, hbefore, hb⟩
  | call h hvalue harguments =>
    exact Eval.proceed_eq_none_iff.mpr (.inr ⟨_, _, h, hvalue,
      Eval.bind_eq_none_iff.mpr (.inr ⟨_, _, harguments, hb⟩)⟩)
  | statement hbefore hvalue =>
    exact (evalStatements_eq_none_iff rfl).mpr ⟨_, _, _, _, _, rfl, hbefore, hvalue, hb⟩
  | body hlength =>
    refine (applyWithin_function hlength).trans ?_
    rw [show evalStatements _ _ _ _ _ = none from hb]
    rfl

/-- An evaluation has no result exactly if one of its parts has none or it is a call too many. -/
theorem eval_eq_none_iff {a : Activity} : a.eval = none ↔
    (∃ b, a.Starts b ∧ b.eval = none) ∨
      a.depth = 0 ∧ ∃ callee arguments, a.task = .call callee arguments := by
  constructor
  · intro h
    obtain ⟨depth, scope, task, store⟩ := a
    cases task with
    | expr e =>
      cases e with
      | name | int | bool | function => cases h
      | unary op operand =>
        obtain h | ⟨_, _, _, _, ⟨⟩⟩ := Eval.proceed_eq_none_iff.mp h
        exact .inl ⟨_, .operand, h⟩
      | binary op left right =>
        obtain h | ⟨_, _, hleft, hvalue, h⟩ := Eval.proceed_eq_none_iff.mp h
        · exact .inl ⟨_, .left, h⟩
        · obtain h | ⟨_, _, _, _, ⟨⟩⟩ := Eval.proceed_eq_none_iff.mp h
          exact .inl ⟨_, .right hleft hvalue, h⟩
      | ifElse condition consequence alternative =>
        obtain h | ⟨value, _, hcondition, hvalue, h⟩ := Eval.proceed_eq_none_iff.mp h
        · exact .inl ⟨_, .condition, h⟩
        · split at h
          · next htruthy => exact .inl ⟨_, .consequence hcondition hvalue htruthy, h⟩
          · next htruthy =>
            cases alternative with
            | none => cases h
            | some => exact .inl ⟨_, .alternative hcondition hvalue (by simpa using htruthy), h⟩
      | call callee arguments =>
        obtain h | ⟨value, _, hcallee, hvalue, h⟩ := Eval.proceed_eq_none_iff.mp h
        · exact .inl ⟨_, .callee, h⟩
        · obtain h | ⟨result, _, hresult, h⟩ := Eval.bind_eq_none_iff.mp h
          · obtain ⟨before, e, after, values, _, rfl, hbefore, h⟩ := evalArguments_eq_none_iff.mp h
            exact .inl ⟨_, .argument hcallee hvalue hbefore, h⟩
          · cases result with
            | ok values => exact .inl ⟨_, .call hcallee hvalue hresult, h⟩
            | error => cases h
    | stmt s =>
      cases s with
      | bind name value =>
        obtain h | ⟨_, _, _, _, ⟨⟩⟩ := Eval.proceed_eq_none_iff.mp h
        exact .inl ⟨_, .bind, h⟩
      | ret value =>
        obtain h | ⟨_, _, _, _, ⟨⟩⟩ := Eval.proceed_eq_none_iff.mp h
        exact .inl ⟨_, .ret, h⟩
      | expr => exact .inl ⟨_, .expr, h⟩
      | block => exact .inl ⟨_, .block, h⟩
    | block ss =>
      obtain ⟨before, s, after, value, _, rfl, hbefore, hvalue, h⟩ :=
        (evalStatements_eq_none_iff rfl).mp h
      exact .inl ⟨_, .statement hbefore hvalue, h⟩
    | call callee arguments =>
      change applyWithin depth callee arguments store = none at h
      cases depth with
      | zero => exact .inr ⟨rfl, callee, arguments, rfl⟩
      | succ depth =>
        cases callee with
        | function f =>
          by_cases hlength : f.parameters.length = arguments.length
          · refine .inl ⟨_, .body hlength, ?_⟩
            rw [applyWithin_function hlength] at h
            exact Option.map_eq_none_iff.mp h
          · rw [applyWithin, if_pos hlength] at h
            cases h
        | _ => cases h
  · rintro (⟨b, hs, hb⟩ | ⟨hdepth, callee, arguments, htask⟩)
    · exact hs.eval_eq_none hb
    · obtain ⟨depth, scope, task, store⟩ := a
      cases hdepth
      cases htask
      rfl

end Activity

end LetScript
