import LetScript.Proofs.Evaluation.Links
import LetScript.Proofs.Evaluation.Order

/-! The functions that evaluations make, in the order in which they are made. Only the
evaluation of a function literal makes one, and its number is how many there have been.
What an evaluation ends in or leaves bound are functions that have been made by then. -/
namespace LetScript

namespace Value

/-- The function that the value is or brings. -/
def closure? : Value → Option Closure
  | function f => some f
  | returned value => value.closure?
  | int _ | bool _ | nil | error _ => none

/-- The function that the value is or brings has been made. -/
def IsAmong (made : List Closure) (value : Value) : Prop :=
  ∀ f, value.closure? = some f → f ∈ made

variable {made made' : List Closure} {value : Value}

theorem IsAmong.mono (h : value.IsAmong made) (hmade : made <+: made') : value.IsAmong made' :=
  fun f hf => hmade.subset (h f hf)

theorem closure?_arrived : value.arrived.closure? = value.closure? := by
  cases value <;> rfl

theorem IsAmong.of_eq_none (h : value.closure? = none) : value.IsAmong made := by
  intro f hf
  rw [h] at hf
  cases hf

theorem IsAmong.of_isComputed (h : value.IsComputed) : value.IsAmong made := by
  cases value with
  | int | bool | error => exact .of_eq_none rfl
  | nil | returned | function => cases h

end Value

/-- The functions have been made in this order, and what is bound is among them. -/
structure Store.Registers (made : List Closure) (store : Store) : Prop where
  ids : made.map Closure.id = List.range store.functions
  binds : store.Binds fun _ => Value.IsAmong made

namespace Store

variable {made : List Closure} {store : Store} {scope : ScopeId} {name : String} {value : Value}

theorem functions_setAll (bindings : List (String × Value)) :
    (store.setAll scope bindings).functions = store.functions := by
  induction bindings generalizing store with
  | nil => rfl
  | cons first rest ih => exact ih

theorem functions_define : (store.define scope name value).functions = store.functions := by
  unfold define
  split
  · split <;> rfl
  · rfl

theorem functions_enter (f : Closure) (arguments : List Value) :
    (store.enter f arguments).functions = store.functions :=
  functions_setAll _

namespace Registers

theorem new : (empty.addScope none).2.Registers [] where
  ids := rfl
  binds := Binds.empty.addScope none

theorem define (h : store.Registers made) (scope : ScopeId) (name : String)
    (hvalue : value.IsAmong made) : (store.define scope name value).Registers made where
  ids := h.ids.trans (congrArg List.range functions_define.symm)
  binds := h.binds.define scope hvalue

theorem enter {arguments : List Value} (h : store.Registers made) (f : Closure)
    (harguments : ∀ value ∈ arguments, value.IsAmong made) :
    (store.enter f arguments).Registers made where
  ids := h.ids.trans (congrArg List.range (functions_enter f arguments).symm)
  binds := h.binds.enter f fun value hvalue _ => harguments value hvalue

theorem addFunction (h : store.Registers made) (parameters : List String) (body : List Stmt)
    (scope : ScopeId) : (store.addFunction parameters body scope).2.Registers
      (made ++ [(store.addFunction parameters body scope).1]) where
  ids := by
    rw [List.map_append, h.ids]
    exact List.range_succ.symm
  binds id name value hfound := (h.binds id name value hfound).mono (List.prefix_append _ _)

end Registers

end Store

/-- The functions in what is called and in the arguments of the call have been made. -/
def Task.IsAmong (made : List Closure) : Task → Prop
  | .call callee arguments => callee.IsAmong made ∧ ∀ value ∈ arguments, value.IsAmong made
  | .expr _ | .stmt _ | .block _ => True

namespace Activity

/-- The function that the evaluation makes, if it is that of a function literal. -/
def made? (a : Activity) : Option Closure :=
  match a.task with
  | .expr (.function parameters body) => some (a.store.addFunction parameters body a.scope).1
  | _ => none

/-- The functions that the evaluations make. -/
def madeBy (evaluations : List Activity) : List Closure :=
  evaluations.filterMap made?

/-- The evaluations make functions that follow on those made before: the store in which a literal is
evaluated has all functions that have been made till then, and so has the store that an evaluation
ends in, which has a result among them. -/
def Recorded (made : List Closure) : List Activity → Prop
  | [] => True
  | a :: later =>
    (a.made? ≠ none → a.store.Registers made) ∧
    (∀ value store, a.eval = some (value, store) →
      store.Registers (made ++ madeBy [a]) ∧ value.IsAmong (made ++ madeBy [a])) ∧
    Recorded (made ++ madeBy [a]) later

variable {a b : Activity} {made made' : List Closure} {evaluations more : List Activity}

theorem made?_eq_some_iff {f : Closure} : a.made? = some f ↔
    ∃ parameters body, a.task = .expr (.function parameters body) ∧
      f = (a.store.addFunction parameters body a.scope).1 := by
  unfold made?
  split
  · next parameters body htask =>
    constructor
    · rintro ⟨⟩
      exact ⟨parameters, body, htask, rfl⟩
    · rintro ⟨_, _, heq, rfl⟩
      cases htask.symm.trans heq
      rfl
  · next hother =>
    refine ⟨nofun, ?_⟩
    rintro ⟨parameters, body, htask, -⟩
    exact absurd htask (hother parameters body)

theorem madeBy_append : madeBy (evaluations ++ more) = madeBy evaluations ++ madeBy more :=
  List.filterMap_append

theorem recorded_append_iff : Recorded made (evaluations ++ more) ↔
    Recorded made evaluations ∧ Recorded (made ++ madeBy evaluations) more := by
  induction evaluations generalizing made with
  | nil => simp [Recorded, madeBy]
  | cons a later ih =>
    rw [List.cons_append, Recorded, Recorded, ih, ← List.singleton_append (l := later),
      madeBy_append, List.append_assoc, and_assoc, and_assoc]

theorem Recorded.ended (h : Recorded made a.within) {value : Value} {store : Store}
    (heval : a.eval = some (value, store)) :
    store.Registers (made ++ madeBy a.within) ∧ value.IsAmong (made ++ madeBy a.within) := by
  rw [within_eq, recorded_append_iff] at h
  rw [within_eq, madeBy_append, ← List.append_assoc]
  exact h.2.2.1 value store heval

/-- The evaluations are recorded wherever they start with what has been made by then. -/
def AllRecorded (evaluations : List Activity) : Prop :=
  ∀ a ∈ evaluations, ∀ made, a.store.Registers made → a.task.IsAmong made → Recorded made a.within

/-- The evaluations are recorded, and if the result that they lead to is there, it is among the
functions made by then, as is all that is bound. -/
structure Tells (made : List Closure) (evaluations : List Activity)
    (result : Option (Value × Store)) : Prop where
  recorded : Recorded made (evaluations.flatMap within)
  ended : ∀ value store, result = some (value, store) →
    store.Registers (made ++ madeBy (evaluations.flatMap within)) ∧
      value.IsAmong (made ++ madeBy (evaluations.flatMap within))

namespace Tells

variable {store : Store} {value : Value} {result : Option (Value × Store)}

theorem done (hstore : store.Registers made) (hvalue : value.IsAmong made) :
    Tells made [] (some (value, store)) where
  recorded := trivial
  ended := by
    rintro _ _ ⟨⟩
    simpa [madeBy] using ⟨hstore, hvalue⟩

theorem unfinished : Tells made [] none where
  recorded := trivial
  ended := nofun

theorem of_recorded (h : Recorded made b.within) : Tells made [b] b.eval where
  recorded := by simpa using h
  ended value store heval := by simpa using h.ended heval

/-- The only part has the result. -/
theorem whole (hparts : AllRecorded [b]) (hstore : b.store.Registers made)
    (htask : b.task.IsAmong made) : Tells made [b] b.eval :=
  of_recorded (hparts b List.mem_cons_self made hstore htask)

/-- What comes after the first part starts with what has been made by then. -/
theorem andThen {eval : Eval Value} {next : Value → Store → List Activity}
    {go : Value → Eval Value} (hparts : AllRecorded (b.andThen next))
    (hstore : b.store.Registers made) (htask : b.task.IsAmong made)
    (heval : eval b.store = b.eval)
    (hnext : ∀ made' value store', made <+: made' → AllRecorded (next value store') →
      store'.Registers made' → value.IsAmong made' →
      Tells made' (next value store') (go value store')) :
    Tells made (b.andThen next) (eval.proceed go b.store) := by
  have h : Recorded made b.within := hparts b (mem_andThen.mpr (.inl rfl)) made hstore htask
  obtain ⟨value, store', hb, hvalue⟩ | habrupt := b.exists_value_or_isAbrupt
  · obtain ⟨hstore', hamong⟩ := h.ended hb
    have hlater : AllRecorded (next value store') := fun c hc =>
      hparts c (mem_andThen.mpr (.inr ⟨value, store', hb, hvalue, hc⟩))
    have hrest := hnext _ value store' (List.prefix_append _ _) hlater hstore' hamong
    rw [andThen_of_eq_some hb hvalue, Eval.proceed_of_eq_some (heval.trans hb) hvalue]
    refine ⟨recorded_append_iff.mpr ⟨h, hrest.recorded⟩, ?_⟩
    rw [List.flatMap_cons, madeBy_append, ← List.append_assoc]
    exact hrest.ended
  · rw [andThen_of_forall_isAbrupt habrupt,
      Eval.proceed_of_forall_isAbrupt (heval ▸ habrupt), heval]
    exact of_recorded h

/-- What is done with the value of the only part. -/
theorem last {eval : Eval Value} {go : Value → Eval Value} (hparts : AllRecorded [b])
    (hstore : b.store.Registers made) (htask : b.task.IsAmong made)
    (heval : eval b.store = b.eval)
    (hgo : ∀ made' value store', store'.Registers made' → value.IsAmong made' →
      Tells made' [] (go value store')) : Tells made [b] (eval.proceed go b.store) := by
  rw [← andThen_nil] at hparts ⊢
  exact andThen hparts hstore htask heval fun made' value store' _ _ => hgo made' value store'

theorem computed {eval : Eval Value} {f : Value → Value} (hparts : AllRecorded [b])
    (hstore : b.store.Registers made) (htask : b.task.IsAmong made)
    (heval : eval b.store = b.eval)
    (hf : ∀ made' value, value.IsAmong made' → (f value).IsAmong made') :
    Tells made [b] (eval.proceed (fun value => return f value) b.store) :=
  last hparts hstore htask heval fun made' value _ hstore' hvalue =>
    done hstore' (hf made' value hvalue)

theorem arrived (h : Tells made evaluations result) : Tells made evaluations
    (result.map fun (value, store) => (value.arrived, store)) where
  recorded := h.recorded
  ended value store hresult := by
    obtain ⟨⟨value, store⟩, hended, ⟨⟩⟩ := Option.map_eq_some_iff.mp hresult
    obtain ⟨hstore, hvalue⟩ := h.ended value store hended
    exact ⟨hstore, fun f hf => hvalue f (Value.closure?_arrived ▸ hf)⟩

end Tells

variable {depth : Nat} {scope : ScopeId} {store : Store}

theorem tells_statementParts {ss : List Stmt} {last : Value}
    (hparts : AllRecorded (statementParts depth scope ss store)) (hstore : store.Registers made)
    (hlast : last.IsAmong made) : Tells made (statementParts depth scope ss store)
      (evalStatements (applyWithin depth) scope last ss store) := by
  induction ss generalizing last store made with
  | nil => exact .done hstore hlast
  | cons s ss ih =>
    rw [statementParts] at hparts ⊢
    rw [evalStatements]
    refine .andThen hparts hstore trivial rfl ?_
    exact fun made' value store' _ hlater hstore' hamong => ih hlater hstore' hamong

/-- What is done with the values of arguments, if they have values. -/
def withValues (go : List Value → Eval Value) : Except Value (List Value) → Eval Value
  | .ok values => go values
  | .error value => return value

theorem evalArguments_cons_withValues {call : Caller} {e : Expr} {es : List Expr}
    {go : List Value → Eval Value} : evalArguments call scope (e :: es) >>= withValues go =
      (e.eval call scope).proceed fun value =>
        evalArguments call scope es >>= withValues fun values => go (value :: values) := by
  rw [evalArguments, bind_assoc, Eval.proceed]
  refine congrArg (e.eval call scope >>= ·) (funext fun value => ?_)
  cases value.isAbrupt with
  | true => simp [withValues]
  | false =>
    simp only [Bool.false_eq_true, if_false, bind_assoc]
    refine congrArg (evalArguments call scope es >>= ·) (funext fun result => ?_)
    cases result <;> rfl

theorem tells_argumentParts {next : List Value → Store → List Activity} {es : List Expr}
    {go : List Value → Eval Value} (hparts : AllRecorded (argumentParts depth scope next es store))
    (hstore : store.Registers made)
    (hnext : ∀ made' values store', made <+: made' → AllRecorded (next values store') →
      store'.Registers made' → (∀ value ∈ values, value.IsAmong made') →
      Tells made' (next values store') (go values store')) :
    Tells made (argumentParts depth scope next es store)
      ((evalArguments (applyWithin depth) scope es >>= withValues go) store) := by
  induction es generalizing next go store made with
  | nil => exact hnext made [] store List.prefix_rfl hparts hstore nofun
  | cons e es ih =>
    rw [argumentParts] at hparts ⊢
    rw [evalArguments_cons_withValues]
    refine .andThen hparts hstore trivial rfl ?_
    intro made' value store' hmade hlater hstore' hamong
    refine ih hlater hstore' ?_
    intro made'' values store'' hmade' hrecorded hstore'' hvalues
    exact hnext made'' (value :: values) store'' (hmade.trans hmade') hrecorded hstore''
      (List.forall_mem_cons.mpr ⟨hamong.mono hmade', hvalues⟩)

/-- What an evaluation other than that of a literal consists of leads to its result. -/
theorem tells_parts (hparts : AllRecorded a.parts) (hstore : a.store.Registers made)
    (htask : a.task.IsAmong made) (hmade : a.made? = none) : Tells made a.parts a.eval := by
  obtain ⟨depth, scope, task, store⟩ := a
  cases task with
  | expr e =>
    cases e with
    | name x =>
      refine .done hstore ?_
      cases hlookup : store.lookup scope x with
      | none => exact .of_eq_none rfl
      | some value => exact hstore.binds.lookup hlookup
    | int | bool => exact .done hstore (.of_eq_none rfl)
    | function => cases hmade
    | unary op operand =>
      refine .computed hparts hstore trivial rfl ?_
      exact fun _ value _ => .of_isComputed (op.isComputed_apply value)
    | binary op left right =>
      refine .andThen hparts hstore trivial rfl ?_
      intro made' value store' _ hright hstore' _
      refine .computed hright hstore' trivial rfl ?_
      exact fun _ value _ => .of_isComputed (op.isComputed_apply _ value)
    | ifElse condition consequence alternative =>
      refine .andThen hparts hstore trivial rfl ?_
      intro made' value store' _ hbranch hstore' _
      revert hbranch
      cases value.isTruthy with
      | true => exact fun hbranch => .whole hbranch hstore' trivial
      | false =>
        cases alternative with
        | none => exact fun _ => .done hstore' (.of_eq_none rfl)
        | some ss => exact fun hbranch => .whole hbranch hstore' trivial
    | call callee arguments =>
      refine .andThen hparts hstore trivial rfl ?_
      intro made' value store' _ hlater hstore' hamong
      refine tells_argumentParts hlater hstore' ?_
      intro made'' values store'' hmade' hcall hstore'' hvalues
      exact .whole hcall hstore'' ⟨hamong.mono hmade', hvalues⟩
  | stmt s =>
    cases s with
    | bind name e =>
      refine .last hparts hstore trivial rfl ?_
      intro made' value store' hstore' hamong
      exact .done (hstore'.define scope name hamong) (.of_eq_none rfl)
    | ret e =>
      refine .computed hparts hstore trivial rfl ?_
      exact fun _ _ hvalue => hvalue
    | expr e => exact .whole hparts hstore trivial
    | block ss => exact .whole hparts hstore trivial
  | block ss => exact tells_statementParts hparts hstore (.of_eq_none rfl)
  | call callee arguments =>
    cases callee with
    | function f =>
      cases depth with
      | zero => exact .unfinished
      | succ depth =>
        rw [parts] at hparts ⊢
        change Tells made _ (applyWithin (depth + 1) (.function f) arguments store)
        split at hparts
        · next hlength =>
          rw [if_pos hlength, applyWithin_function hlength]
          exact .arrived (.whole hparts (hstore.enter f htask.2) trivial)
        · next hlength =>
          rw [if_neg hlength, applyWithin, if_pos hlength]
          exact .done hstore (.of_eq_none rfl)
    | int | bool | nil | returned | error =>
      cases depth with
      | zero => exact .unfinished
      | succ depth => exact .done hstore (.of_eq_none rfl)

/-- Whatever has been made before, the functions that an evaluation makes follow on it. -/
theorem recorded_within (hstore : a.store.Registers made) (htask : a.task.IsAmong made) :
    Recorded made a.within := by
  induction a using wellFounded_starts.induction generalizing made with
  | _ a ih =>
    have hparts : AllRecorded a.parts := fun b hb _ => ih b (mem_parts_iff.mp hb)
    cases hmade : a.made? with
    | none =>
      have htells := tells_parts hparts hstore htask hmade
      have hnone : madeBy [a] = [] := by simp [madeBy, hmade]
      rw [within_eq, recorded_append_iff]
      refine ⟨htells.recorded, fun h => absurd hmade h, fun value store heval => ?_, trivial⟩
      rw [hnone, List.append_nil]
      exact htells.ended value store heval
    | some f =>
      obtain ⟨depth, scope, task, store⟩ := a
      obtain ⟨parameters, body, rfl, rfl⟩ := made?_eq_some_iff.mp hmade
      rw [within_eq]
      refine ⟨fun _ => hstore, ?_, trivial⟩
      rintro _ _ ⟨⟩
      refine ⟨hstore.addFunction parameters body scope, ?_⟩
      rintro _ ⟨⟩
      exact List.mem_concat_self

end Activity

end LetScript
