import LetScript.Proofs.Evaluation.Contract

/-! What evaluation leaves as it was. It writes into the scope that it takes place in,
into the new scopes of calls and, where a `let` is given a function, into the scope that
the function was written in, but there only under a name that is free. So every other
scope keeps its bindings, and what is new in it is a function of its own. -/
namespace LetScript

namespace Store

variable {store store' store'' : Store} {scope id : ScopeId} {name other : String} {value : Value}

/-! ### Look-ups after a write -/

@[simp] theorem size_set : (store.set scope name value).scopes.size = store.scopes.size :=
  Array.size_modify

@[simp] theorem outer_set : (store.set scope name value).outer id = store.outer id := by
  simp only [outer, set, Array.getElem?_modify]
  split
  · cases store.scopes[id]? <;> rfl
  · rfl

theorem findLocal?_set : (store.set scope name value).findLocal? id other =
    if id = scope ∧ id < store.scopes.size ∧ other = name then some value
    else store.findLocal? id other := by
  by_cases hid : scope = id
  · subst hid
    by_cases hlt : scope < store.scopes.size
    · simp [findLocal?, set, hlt, Array.getElem_modify_self, Scope.find?_set]
    · simp [findLocal?, set, hlt]
  · have hne : id ≠ scope := fun h => hid h.symm
    simp [findLocal?, set, Array.getElem?_modify, hid, hne]

theorem outer_addScope (enclosing : Option ScopeId) : (store.addScope enclosing).2.outer id =
    if id = store.scopes.size then enclosing else store.outer id := by
  simp only [outer, addScope, Array.getElem?_push]
  split <;> rfl

theorem findLocal?_addScope (enclosing : Option ScopeId) :
    (store.addScope enclosing).2.findLocal? id name = store.findLocal? id name := by
  simp only [findLocal?, addScope, Array.getElem?_push]
  split
  · next hid =>
    subst hid
    simp [Scope.find?]
  · rfl

/-! ### What may change -/

/-- What is bound in the scope stays bound, and what is new there is a function that was written in
the scope. -/
structure Keeps (store store' : Store) (id : ScopeId) : Prop where
  bound : ∀ name value, store.findLocal? id name = some value →
    store'.findLocal? id name = some value
  new : ∀ name value, store.findLocal? id name = none →
    store'.findLocal? id name = some value → ∃ f, value = .function f ∧ f.scope = id

theorem Keeps.of_eq (h : ∀ name, store'.findLocal? id name = store.findLocal? id name) :
    store.Keeps store' id where
  bound name value hvalue := (h name).trans hvalue
  new name value hnone hvalue := by
    rw [h name, hnone] at hvalue
    cases hvalue

theorem Keeps.trans (h : store.Keeps store' id) (h' : store'.Keeps store'' id) :
    store.Keeps store'' id where
  bound name value hvalue := h'.bound name value (h.bound name value hvalue)
  new name value hnone hvalue := by
    cases hmid : store'.findLocal? id name with
    | none => exact h'.new name value hmid hvalue
    | some old =>
      have hold := h'.bound name old hmid
      obtain rfl : old = value := Option.some.inj (hold.symm.trans hvalue)
      exact h.new name old hnone hmid

/-- No scope goes or is moved, and of the scopes there were only `scope` may have lost a binding. -/
structure ChangesOnly (scope : ScopeId) (store store' : Store) : Prop where
  size_le : store.scopes.size ≤ store'.scopes.size
  outer : ∀ id < store.scopes.size, store'.outer id = store.outer id
  keeps : ∀ id < store.scopes.size, id ≠ scope → store.Keeps store' id

namespace ChangesOnly

theorem of_scopes_eq (h : store'.scopes = store.scopes) : ChangesOnly scope store store' where
  size_le := Nat.le_of_eq (congrArg Array.size h.symm)
  outer id _ := by simp only [Store.outer, h]
  keeps id _ _ := .of_eq fun name => by simp only [findLocal?, h]

theorem refl : ChangesOnly scope store store := .of_scopes_eq rfl

theorem trans (h : ChangesOnly scope store store') (h' : ChangesOnly scope store' store'') :
    ChangesOnly scope store store'' where
  size_le := Nat.le_trans h.size_le h'.size_le
  outer id hid := (h'.outer id (Nat.lt_of_lt_of_le hid h.size_le)).trans (h.outer id hid)
  keeps id hid hne :=
    (h.keeps id hid hne).trans (h'.keeps id (Nat.lt_of_lt_of_le hid h.size_le) hne)

/-- What is done in a new scope changes none of those there were. -/
theorem elsewhere (h : ChangesOnly store.scopes.size store store') :
    ChangesOnly scope store store' where
  size_le := h.size_le
  outer := h.outer
  keeps id hid _ := h.keeps id hid (Nat.ne_of_lt hid)

theorem set : ChangesOnly scope store (store.set scope name value) where
  size_le := Nat.le_of_eq size_set.symm
  outer _ _ := outer_set
  keeps id _ hne := .of_eq fun other => by rw [findLocal?_set, if_neg fun h => hne h.1]

/-- A function may be bound in its own scope to a name that is free there. -/
theorem set_own {f : Closure} (hfree : store.findLocal? f.scope name = none) :
    ChangesOnly scope store (store.set f.scope name (.function f)) where
  size_le := Nat.le_of_eq size_set.symm
  outer _ _ := outer_set
  keeps id hid _ := by
    constructor
    · intro other value hvalue
      have hne : ¬ (id = f.scope ∧ id < store.scopes.size ∧ other = name) := by
        rintro ⟨rfl, -, rfl⟩
        rw [hfree] at hvalue
        cases hvalue
      rwa [findLocal?_set, if_neg hne]
    · intro other value hnone hvalue
      rw [findLocal?_set] at hvalue
      split at hvalue
      · next h =>
        cases hvalue
        exact ⟨f, rfl, h.1.symm⟩
      · rw [hnone] at hvalue
        cases hvalue

theorem define : ChangesOnly scope store (store.define scope name value) := by
  unfold Store.define
  split
  · next f =>
    split
    · next h => exact (set_own (by simpa using h.2)).trans set
    · exact set
  · exact set

theorem setAll (bindings : List (String × Value)) :
    ChangesOnly scope store (store.setAll scope bindings) := by
  induction bindings generalizing store with
  | nil => exact refl
  | cons first rest ih => exact set.trans ih

theorem addScope (enclosing : Option ScopeId) :
    ChangesOnly scope store (store.addScope enclosing).2 where
  size_le := by simp [Store.addScope]
  outer id hid := by rw [outer_addScope, if_neg (Nat.ne_of_lt hid)]
  keeps _ _ _ := .of_eq fun _ => findLocal?_addScope enclosing

theorem enter (f : Closure) (arguments : List Value) :
    ChangesOnly store.scopes.size store (store.enter f arguments) :=
  (addScope (some f.scope)).trans (setAll _)

end ChangesOnly

end Store

/-- The contract of what may change. Its worlds are the stores. -/
def Contract.frame : Contract where
  World := Store
  holds w store := w = store
  inScope _ _ := True
  leads := Store.ChangesOnly
  outcome _ _ := True
  settled _ _ := True
  leads_refl := .refl
  leads_trans := .trans
  inScope_mono _ _ := trivial
  outcome_mono _ _ _ := trivial
  outcome_of_settled _ := trivial
  settled_arrived _ := trivial
  returned _ _ := trivial
  int _ := trivial
  bool _ := trivial
  nil := trivial
  lookup _ _ _ := trivial
  unary _ _ _ := trivial
  binary _ _ _ _ _ := trivial
  function _ _ hstore _ := by
    cases hstore
    refine ⟨_, ?_, rfl, trivial⟩
    exact .of_scopes_eq rfl
  bind name hstore _ _ _ := by
    cases hstore
    exact ⟨_, .define, rfl⟩
  enter {_ _ f arguments} _ hstore _ _ _ := by
    cases hstore
    refine ⟨_, rfl, trivial, fun w'' hbody => ?_⟩
    exact ((Store.ChangesOnly.enter f arguments).trans hbody).elsewhere
  notAFunction _ _ _ := trivial
  wrongArgumentCount _ := trivial

section

variable {depth : Nat} {scope : ScopeId} {store store' : Store} {value : Value}

theorem Expr.changesOnly_eval {e : Expr}
    (h : e.eval (applyWithin depth) scope store = some (value, store')) :
    store.ChangesOnly scope store' := by
  have hcall := Contract.frame.permits_applyWithin depth
  obtain ⟨_, hchanges, rfl, -⟩ := Contract.follows_expr hcall trivial e store rfl _ _ h
  exact hchanges

theorem Stmt.changesOnly_eval {s : Stmt}
    (h : s.eval (applyWithin depth) scope store = some (value, store')) :
    store.ChangesOnly scope store' := by
  have hcall := Contract.frame.permits_applyWithin depth
  obtain ⟨_, hchanges, rfl, -⟩ := Contract.follows_stmt hcall trivial s store rfl _ _ h
  exact hchanges

theorem changesOnly_evalStatements {ss : List Stmt} {last : Value}
    (h : evalStatements (applyWithin depth) scope last ss store = some (value, store')) :
    store.ChangesOnly scope store' := by
  have hcall := Contract.frame.permits_applyWithin depth
  have hlast : Contract.frame.outcome store last := trivial
  obtain ⟨_, hchanges, rfl, -⟩ := Contract.follows_statements hcall trivial hlast ss store rfl _ _ h
  exact hchanges

theorem Program.changesOnly_eval {p : Program}
    (h : p.eval (applyWithin depth) scope store = some (value, store')) :
    store.ChangesOnly scope store' := by
  obtain ⟨_, _, hstatements, ⟨⟩⟩ := Eval.bind_eq_some_iff.mp h
  exact changesOnly_evalStatements hstatements

/-- A call changes no scope that there was, so it may pass for one made in any scope. -/
theorem changesOnly_applyWithin (scope : ScopeId) {callee : Value} {arguments : List Value}
    (h : applyWithin depth callee arguments store = some (value, store')) :
    store.ChangesOnly scope store' := by
  cases depth with
  | zero => cases h
  | succ depth =>
    cases callee with
    | function f =>
      by_cases hlength : f.parameters.length = arguments.length
      · rw [applyWithin_function hlength] at h
        obtain ⟨⟨_, _⟩, hbody, ⟨⟩⟩ := Option.map_eq_some_iff.mp h
        have henter : store.ChangesOnly store.scopes.size (store.enter f arguments) :=
          .enter f arguments
        exact (henter.trans (changesOnly_evalStatements hbody)).elsewhere
      · rw [applyWithin, if_pos hlength] at h
        cases h
        exact .refl
    | _ =>
      cases h
      exact .refl

end

/-- A call keeps every binding of every scope that there was, and evaluation in a scope keeps those
of all others. -/
theorem Store.keeps_bindings :
    (∀ depth callee arguments store value store',
      applyWithin depth callee arguments store = some (value, store') →
        ∀ id < store.scopes.size, store'.outer id = store.outer id ∧ store.Keeps store' id) ∧
    ∀ depth scope store value store',
      (∃ e : Expr, e.eval (applyWithin depth) scope store = some (value, store')) ∨
        (∃ s : Stmt, s.eval (applyWithin depth) scope store = some (value, store')) ∨
        (∃ p : Program, p.eval (applyWithin depth) scope store = some (value, store')) →
      ∀ id < store.scopes.size, store'.outer id = store.outer id ∧
        (id ≠ scope → store.Keeps store' id) := by
  constructor
  · intro depth callee arguments store value store' hcall id hid
    have hchanges := changesOnly_applyWithin store.scopes.size hcall
    exact ⟨hchanges.outer id hid, hchanges.keeps id hid (Nat.ne_of_lt hid)⟩
  · intro depth scope store value store' heval id hid
    have hchanges : store.ChangesOnly scope store' := by
      obtain ⟨e, h⟩ | ⟨s, h⟩ | ⟨p, h⟩ := heval
      · exact e.changesOnly_eval h
      · exact s.changesOnly_eval h
      · exact p.changesOnly_eval h
    exact ⟨hchanges.outer id hid, hchanges.keeps id hid⟩

/-! ### A function under another name -/

/-- `fn() { x }`, written in the scope of a call. -/
def Closure.reader : Closure := ⟨1, [], [.expr (.name "x")], 1⟩

/-- `fn() { let x = f; }`, written at the top level. -/
def Closure.aliaser : Closure := ⟨2, [], [.bind "x" (.name "f")], 0⟩

/-- After `let x = 1; let f = fn() { fn() { x } }(); let h = fn() { let x = f; };` the scope of the
call binds only `f`. -/
def Store.beforeAlias : Store :=
  ⟨#[⟨[("x", .int 1), ("f", .function .reader), ("h", .function .aliaser)], none⟩,
    ⟨[("f", .function .reader)], some 0⟩], 3⟩

/-- After the call `h()` it binds `x` too. -/
def Store.afterAlias : Store :=
  ⟨#[⟨[("x", .int 1), ("f", .function .reader), ("h", .function .aliaser)], none⟩,
    ⟨[("f", .function .reader), ("x", .function .reader)], some 0⟩,
    ⟨[("x", .function .reader)], some 0⟩], 3⟩

theorem applyWithin_aliaser :
    applyWithin 1 (.function .aliaser) [] .beforeAlias = some (.nil, .afterAlias) := by
  decide +kernel

/-- Bindings are kept where a call binds a function in the scope that it was written in, and outside
of a scope that a name is bound in anew. -/
theorem Store.keeps_bindings_alias :
    (applyWithin 1 (.function .aliaser) [] .beforeAlias = some (.nil, .afterAlias) ∧
      Store.beforeAlias.Keeps .afterAlias 1) ∧
    ((Stmt.bind "x" (.int 2)).eval (applyWithin 0) 0 .beforeAlias =
        some (.nil, Store.beforeAlias.define 0 "x" (.int 2)) ∧
      Store.beforeAlias.Keeps (Store.beforeAlias.define 0 "x" (.int 2)) 1) := by
  refine ⟨⟨applyWithin_aliaser, ?_⟩, rfl, ?_⟩
  · exact (keeps_bindings.1 _ _ _ _ _ _ applyWithin_aliaser 1 (by decide)).2
  · have heval := keeps_bindings.2 0 0 .beforeAlias .nil _ (.inr (.inl ⟨.bind "x" (.int 2), rfl⟩))
    exact (heval 1 (by decide)).2 (by decide)

end LetScript
