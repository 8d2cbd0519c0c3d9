import LetScript.Proofs.Evaluation.Bindings
import LetScript.Proofs.Tree.RoundTrip
import LetScript.Proofs.Value.Operators

/-! Only plain values are bound. An error or a `return` travels through an evaluation as
its result, but it is never bound to a name, passed to a call, or brought by a `return`
itself, and no `return` leaves the call that it ends. -/
namespace LetScript

namespace Value

/-- A value that is not on its way to anywhere. -/
def IsPlain : Value → Prop
  | int _ | bool _ | nil | function _ => True
  | returned _ | error _ => False

/-- What a call or a run may end in. -/
def IsSettled (value : Value) : Prop :=
  value.IsPlain ∨ ∃ cause, value = error cause

/-- What an expression or statement may end in. -/
def IsOutcome (value : Value) : Prop :=
  value.IsSettled ∨ ∃ brought, value = returned brought ∧ brought.IsPlain

variable {value : Value}

theorem IsPlain.isSettled (h : value.IsPlain) : value.IsSettled := .inl h

theorem IsSettled.isOutcome (h : value.IsSettled) : value.IsOutcome := .inl h

theorem IsPlain.isOutcome (h : value.IsPlain) : value.IsOutcome := h.isSettled.isOutcome

theorem isOutcome_error (cause : RuntimeError) : (error cause).IsOutcome := .inl (.inr ⟨cause, rfl⟩)

theorem isPlain_of_isAbrupt (h : value.isAbrupt = false) : value.IsPlain := by
  cases value with
  | returned | error => cases h
  | _ => trivial

theorem isAbrupt_eq_false_iff : value.isAbrupt = false ↔ value.IsPlain := by
  refine ⟨isPlain_of_isAbrupt, fun h => ?_⟩
  cases value with
  | returned | error => cases h
  | _ => rfl

theorem IsOutcome.arrived (h : value.IsOutcome) : value.arrived.IsSettled := by
  obtain (hplain | ⟨cause, rfl⟩) | ⟨brought, rfl, hplain⟩ := h
  · cases value with
    | returned => cases hplain
    | _ => exact .inl hplain
  · exact .inr ⟨cause, rfl⟩
  · exact .inl hplain

theorem IsComputed.isOutcome (h : value.IsComputed) : value.IsOutcome := by
  cases value with
  | int | bool => exact IsPlain.isOutcome trivial
  | error cause => exact isOutcome_error cause
  | nil | returned | function => cases h

end Value

/-! ### Stores -/

def Scope.IsPlain (scope : Scope) : Prop :=
  ∀ binding ∈ scope.bindings, binding.2.IsPlain

/-- Every binding in every scope is to a plain value. -/
def Store.IsPlain (store : Store) : Prop :=
  ∀ scope ∈ store.scopes, scope.IsPlain

theorem Scope.mem_insert {name : String} {value : Value} {bindings : List (String × Value)}
    {binding : String × Value} (h : binding ∈ insert name value bindings) :
    binding = (name, value) ∨ binding ∈ bindings := by
  induction bindings with
  | nil => exact .inl (List.mem_singleton.mp h)
  | cons first rest ih =>
    unfold insert at h
    split at h
    · exact (List.mem_cons.mp h).imp_right (List.mem_cons_of_mem _)
    · obtain rfl | h := List.mem_cons.mp h
      · exact .inr List.mem_cons_self
      · exact (ih h).imp_right (List.mem_cons_of_mem _)

theorem Scope.IsPlain.set {scope : Scope} (h : scope.IsPlain) (name : String) {value : Value}
    (hvalue : value.IsPlain) : (scope.set name value).IsPlain := by
  intro binding hbinding
  obtain rfl | hbinding := Scope.mem_insert hbinding
  · exact hvalue
  · exact h binding hbinding

namespace Store.IsPlain

variable {store : Store} {scope : ScopeId} {name : String} {value : Value}

theorem empty : Store.empty.IsPlain := nofun

theorem addScope (h : store.IsPlain) (outer : Option ScopeId) :
    (store.addScope outer).2.IsPlain := by
  intro scope hscope
  obtain hscope | rfl := Array.mem_push.mp hscope
  · exact h scope hscope
  · exact nofun

theorem set (h : store.IsPlain) (scope : ScopeId) (name : String) (hvalue : value.IsPlain) :
    (store.set scope name value).IsPlain := by
  intro s hs
  obtain ⟨i, hi, rfl⟩ := Array.mem_iff_getElem.mp hs
  have hold := h _ (Array.getElem_mem (by simpa [Store.set] using hi))
  simp only [Store.set, Array.getElem_modify]
  split
  · exact hold.set name hvalue
  · exact hold

theorem setAll {bindings : List (String × Value)} (h : store.IsPlain) (scope : ScopeId)
    (hbindings : ∀ binding ∈ bindings, binding.2.IsPlain) :
    (store.setAll scope bindings).IsPlain := by
  induction bindings generalizing store with
  | nil => exact h
  | cons first rest ih =>
    obtain ⟨hfirst, hrest⟩ := List.forall_mem_cons.mp hbindings
    exact ih (h.set scope first.1 hfirst) hrest

theorem define (h : store.IsPlain) (scope : ScopeId) (name : String) (hvalue : value.IsPlain) :
    (store.define scope name value).IsPlain := by
  unfold Store.define
  split
  · next f =>
    split
    · exact (h.set f.scope name hvalue).set scope name hvalue
    · exact h.set scope name hvalue
  · exact h.set scope name hvalue

theorem enter {arguments : List Value} (h : store.IsPlain) (f : Closure)
    (harguments : ∀ value ∈ arguments, value.IsPlain) : (store.enter f arguments).IsPlain :=
  (h.addScope (some f.scope)).setAll _ fun _ hbinding =>
    harguments _ (List.of_mem_zip hbinding).2

theorem binds (h : store.IsPlain) : store.Binds fun _ => Value.IsPlain := by
  intro id name value hfound
  obtain ⟨scope, hscope, hmem⟩ := exists_mem_of_findLocal? hfound
  exact h scope hscope (name, value) hmem

end Store.IsPlain

/-- The contract of plain values. -/
def Contract.plain : Contract where
  World := Unit
  holds _ store := store.IsPlain
  inScope _ _ := True
  leads _ _ _ := True
  outcome _ value := value.IsOutcome
  settled _ value := value.IsSettled
  leads_refl := trivial
  leads_trans _ _ := trivial
  inScope_mono _ _ := trivial
  outcome_mono _ h _ := h
  outcome_of_settled h := h.isOutcome
  settled_arrived h := h.arrived
  returned _ habrupt := .inr ⟨_, rfl, Value.isPlain_of_isAbrupt habrupt⟩
  int _ := Value.IsPlain.isOutcome trivial
  bool _ := Value.IsPlain.isOutcome trivial
  nil := Value.IsPlain.isOutcome trivial
  lookup {_ store scope} name hstore _ := by
    cases hlookup : store.lookup scope name with
    | none => exact Value.isOutcome_error _
    | some value => exact (hstore.binds.lookup hlookup).isOutcome
  unary op _ _ := (op.isComputed_apply _).isOutcome
  binary op _ _ _ _ := (op.isComputed_apply _ _).isOutcome
  function _ _ hstore _ := ⟨(), trivial, hstore, Value.IsPlain.isOutcome trivial⟩
  bind name hstore _ _ habrupt :=
    ⟨(), trivial, hstore.define _ name (Value.isPlain_of_isAbrupt habrupt)⟩
  enter _ hstore _ _ harguments :=
    ⟨(), hstore.enter _ fun value hvalue => Value.isPlain_of_isAbrupt (harguments value hvalue).2,
      trivial, fun _ _ => trivial⟩
  notAFunction _ _ _ := .inr ⟨_, rfl⟩
  wrongArgumentCount _ := .inr ⟨_, rfl⟩

/-- What evaluating the task may end in. -/
def Task.MayYield : Task → Value → Prop
  | .call _ _, value => value.IsSettled
  | _, value => value.IsOutcome

theorem Contract.mayYield_of_taskOutcome {task : Task} {value : Value}
    (h : Contract.plain.TaskOutcome () task value) : task.MayYield value := by
  cases task <;> exact h

namespace Interpreter

theorem isPlain_new : new.store.IsPlain :=
  Store.IsPlain.empty.addScope none

theorem isPlain_of_reachable {i : Interpreter} (h : i.Reachable) : i.store.IsPlain := by
  obtain ⟨_, hstore, _⟩ := Contract.reachable (c := Contract.plain) () isPlain_new trivial h
  exact hstore

theorem isSettled_of_run {i i' : Interpreter} {depth : Nat} {text : String} {value : Value}
    (h : i.store.IsPlain) (hrun : i.run depth text = some (.ok value, i')) : value.IsSettled := by
  obtain ⟨program, result, -, rfl, heval, -⟩ := run_eq_some_ok hrun
  obtain ⟨_, _, _, hresult⟩ := Contract.follows_statements (c := Contract.plain) (w := ())
    (Contract.plain.permits_applyWithin depth) trivial Contract.plain.nil _ _ h _ _ heval
  exact hresult.arrived

theorem mayYield_of_performs {i : Interpreter} {depth : Nat} {text : String} {a : Activity}
    (h : i.store.IsPlain) (ha : i.Performs depth text a) :
    a.store.IsPlain ∧ ∀ value store, a.eval = some (value, store) →
      a.task.MayYield value ∧ store.IsPlain := by
  obtain ⟨program, -, hreaches⟩ := ha
  have hstart : Contract.plain.Covers () ⟨depth, i.scope, .block program.statements, i.store⟩ :=
    ⟨h, trivial, trivial⟩
  obtain ⟨w, hcovers⟩ := hstart.reaches hreaches
  refine ⟨hcovers.holds, fun value store heval => ?_⟩
  obtain ⟨_, _, hstore, hvalue⟩ := hcovers.eval heval
  exact ⟨Contract.mayYield_of_taskOutcome hvalue, hstore⟩

/-- In a session only plain values are ever bound, runs end in plain values and errors, and all that
is evaluated on the way ends in what it may. -/
theorem Reachable.plain_throughout {i : Interpreter} (h : i.Reachable) :
    i.store.IsPlain ∧
      (∀ depth text value i', i.run depth text = some (.ok value, i') → value.IsSettled) ∧
      ∀ depth text a, i.Performs depth text a → a.store.IsPlain ∧
        ∀ value store, a.eval = some (value, store) → a.task.MayYield value ∧ store.IsPlain := by
  have hstore := isPlain_of_reachable h
  exact ⟨hstore, fun _ _ _ _ hrun => isSettled_of_run hstore hrun,
    fun _ _ _ ha => mayYield_of_performs hstore ha⟩

/-- After `let a = fn (x) { return 5; }(true);` there is a scope for the call, and what the `return`
brought is bound. -/
theorem reachable_after_return :
    Reachable ⟨⟨#[⟨[("a", .int 5)], none⟩, ⟨[("x", .bool true)], some 0⟩], 1⟩, 0⟩ := by
  have hparse := Program.parse_render
    (p := ⟨[.bind "a" (.call (.function ["x"] [.ret (.int 5)]) [.bool true])]⟩)
    ⟨⟨by decide, ⟨List.forall_mem_singleton.mpr (by decide), (by decide : (0 : Int64) ≤ 5),
      trivial⟩, trivial, trivial⟩, trivial⟩
  have hrun : new.run 1 "let a = fn (x) \x7b return 5; \x7d(true);" = some (.ok .nil,
      ⟨⟨#[⟨[("a", .int 5)], none⟩, ⟨[("x", .bool true)], some 0⟩], 1⟩, 0⟩) := by
    rw [run, show Program.parse "let a = fn (x) \x7b return 5; \x7d(true);" = .ok _ from hparse]
    rfl
  exact .run .new hrun

/-- What holds in every session holds in one where a `return` has ended a call. -/
theorem plain_after_return :
    (Interpreter.mk ⟨#[⟨[("a", .int 5)], none⟩, ⟨[("x", .bool true)], some 0⟩], 1⟩ 0).Reachable ∧
      Store.IsPlain ⟨#[⟨[("a", .int 5)], none⟩, ⟨[("x", .bool true)], some 0⟩], 1⟩ :=
  ⟨reachable_after_return, (Reachable.plain_throughout reachable_after_return).1⟩

end Interpreter

end LetScript
