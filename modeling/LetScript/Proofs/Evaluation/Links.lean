import LetScript.Proofs.Evaluation.Bindings
import LetScript.Proofs.Evaluation.Reachable
import LetScript.Proofs.Value.Operators

/-! How scopes hang together. A scope lies inside an older one or is at the top level, and
a function was written in a scope that there is. So the way outward from a scope ends,
even where scopes and the functions bound in them lead back to one another, and a look-up
follows it to its end. Evaluation keeps this up, and makes no new top level. -/
namespace LetScript

/-- The functions in the value were written in the first `count` scopes. -/
def Value.IsFrom (count : Nat) : Value → Prop
  | function f => f.scope < count
  | returned value => value.IsFrom count
  | int _ | bool _ | nil | error _ => True

namespace Value.IsFrom

variable {count count' : Nat} {value : Value}

theorem mono (hle : count ≤ count') (h : value.IsFrom count) : value.IsFrom count' := by
  induction value with
  | function f => exact Nat.lt_of_lt_of_le h hle
  | returned value ih => exact ih h
  | int | bool | nil | error => trivial

theorem arrived (h : value.IsFrom count) : value.arrived.IsFrom count := by
  cases value with
  | returned value => exact h
  | function | int | bool | nil | error => exact h

theorem of_isComputed (h : value.IsComputed) : value.IsFrom count := by
  cases value with
  | int | bool | error => trivial
  | nil | returned | function => cases h

end Value.IsFrom

/-- Scopes lie in older ones, only the first `roots` may lie in none, and what is bound was written
in scopes that there are. -/
structure Store.IsLinked (roots : Nat) (store : Store) : Prop where
  outer_lt : ∀ id outer, store.outer id = some outer → outer < id
  rooted : ∀ id < store.scopes.size, store.outer id = none → id < roots
  binds : store.Binds fun _ => Value.IsFrom store.scopes.size

namespace Store

variable {roots : Nat} {store : Store} {scope outer : ScopeId} {name : String} {value : Value}

theorem size_addScope (enclosing : Option ScopeId) :
    (store.addScope enclosing).2.scopes.size = store.scopes.size + 1 := by
  simp [addScope]

theorem size_setAll (bindings : List (String × Value)) :
    (store.setAll scope bindings).scopes.size = store.scopes.size := by
  induction bindings generalizing store with
  | nil => rfl
  | cons first rest ih => exact ih.trans size_set

theorem size_define : (store.define scope name value).scopes.size = store.scopes.size := by
  unfold define
  split
  · split <;> simp
  · exact size_set

theorem size_enter (f : Closure) (arguments : List Value) :
    (store.enter f arguments).scopes.size = store.scopes.size + 1 :=
  (size_setAll _).trans (size_addScope _)

/-- A look-up is never cut short: what a scope leaves free is what it is in the next one. -/
theorem lookup_eq_of_outer_lt (h : ∀ id outer, store.outer id = some outer → outer < id)
    (scope : ScopeId) (name : String) : store.lookup scope name =
      (store.findLocal? scope name).or ((store.outer scope).bind (store.lookup · name)) := by
  rw [lookup]
  split
  · next hlocal => rw [hlocal, Option.some_or]
  · next hfree =>
    rw [hfree, Option.none_or]
    split
    · next outer houter =>
      rw [houter]
      exact if_pos (h scope outer houter)
    · next houter =>
      rw [houter]
      rfl

namespace IsLinked

theorem empty : Store.empty.IsLinked roots where
  outer_lt _ _ h := by cases h
  rooted _ h := absurd h (Nat.not_lt_zero _)
  binds := .empty

theorem mono {roots' : Nat} (h : store.IsLinked roots) (hle : roots ≤ roots') :
    store.IsLinked roots' where
  outer_lt := h.outer_lt
  rooted id hid hnone := Nat.lt_of_lt_of_le (h.rooted id hid hnone) hle
  binds := h.binds

theorem addScope (h : store.IsLinked roots) {enclosing : Option ScopeId}
    (houter : ∀ outer, enclosing = some outer → outer < store.scopes.size)
    (hroot : enclosing = none → store.scopes.size < roots) :
    (store.addScope enclosing).2.IsLinked roots where
  outer_lt id outer hid := by
    rw [outer_addScope] at hid
    split at hid
    · next heq => exact heq ▸ houter outer hid
    · exact h.outer_lt id outer hid
  rooted id hid hnone := by
    rw [outer_addScope] at hnone
    split at hnone
    · next heq => exact heq ▸ hroot hnone
    · next hne =>
      rw [size_addScope] at hid
      exact h.rooted id (Nat.lt_of_le_of_ne (Nat.le_of_lt_succ hid) hne) hnone
  binds := by
    rw [size_addScope]
    intro id name value hfound
    exact (h.binds.addScope enclosing id name value hfound).mono (Nat.le_succ _)

theorem set (h : store.IsLinked roots) (scope : ScopeId) (name : String)
    (hvalue : value.IsFrom store.scopes.size) : (store.set scope name value).IsLinked roots where
  outer_lt id outer hid := h.outer_lt id outer (outer_set.symm.trans hid)
  rooted id hid hnone := h.rooted id (size_set ▸ hid) (outer_set.symm.trans hnone)
  binds := size_set.symm ▸ h.binds.set scope hvalue

theorem setAll {bindings : List (String × Value)} (h : store.IsLinked roots) (scope : ScopeId)
    (hbindings : ∀ binding ∈ bindings, binding.2.IsFrom store.scopes.size) :
    (store.setAll scope bindings).IsLinked roots := by
  induction bindings generalizing store with
  | nil => exact h
  | cons first rest ih =>
    obtain ⟨hfirst, hrest⟩ := List.forall_mem_cons.mp hbindings
    exact ih (h.set scope first.1 hfirst) (size_set.symm ▸ hrest)

theorem define (h : store.IsLinked roots) (scope : ScopeId) (name : String)
    (hvalue : value.IsFrom store.scopes.size) : (store.define scope name value).IsLinked roots := by
  unfold Store.define
  split
  · next f =>
    split
    · exact (h.set f.scope name hvalue).set scope name (size_set.symm ▸ hvalue)
    · exact h.set scope name hvalue
  · exact h.set scope name hvalue

theorem enter {f : Closure} {arguments : List Value} (h : store.IsLinked roots)
    (hf : f.scope < store.scopes.size)
    (harguments : ∀ value ∈ arguments, value.IsFrom store.scopes.size) :
    (store.enter f arguments).IsLinked roots := by
  have hscope : (store.addScope (some f.scope)).2.IsLinked roots :=
    h.addScope (fun _ houter => Option.some.inj houter ▸ hf) nofun
  refine hscope.setAll _ fun binding hbinding => ?_
  rw [size_addScope]
  exact (harguments _ (List.of_mem_zip hbinding).2).mono (Nat.le_succ _)

theorem addFunction (h : store.IsLinked roots) (parameters : List String) (body : List Stmt)
    (scope : ScopeId) : (store.addFunction parameters body scope).2.IsLinked roots where
  outer_lt := h.outer_lt
  rooted := h.rooted
  binds := h.binds

theorem lookup_eq (h : store.IsLinked roots) (scope : ScopeId) (name : String) :
    store.lookup scope name =
      (store.findLocal? scope name).or ((store.outer scope).bind (store.lookup · name)) :=
  lookup_eq_of_outer_lt h.outer_lt scope name

theorem reaches_le (h : store.IsLinked roots) (hreaches : store.Reaches scope outer) :
    outer ≤ scope := by
  induction hreaches with
  | refl => exact Nat.le_refl scope
  | tail _ hstep ih => exact Nat.le_trans (Nat.le_of_lt (h.outer_lt _ _ hstep)) ih

/-- What means nothing in some scope is free at the top level, if there is only one. -/
theorem lookup_root (h : store.IsLinked 1) (hscope : scope < store.scopes.size)
    (hnone : store.lookup scope name = none) : store.lookup 0 name = none := by
  induction scope using Nat.strongRecOn with
  | ind scope ih =>
    cases houter : store.outer scope with
    | none =>
      obtain rfl : scope = 0 := Nat.lt_one_iff.mp (h.rooted scope hscope houter)
      exact hnone
    | some outer =>
      have hlt := h.outer_lt scope outer houter
      rw [h.lookup_eq, houter, Option.or_eq_none_iff] at hnone
      exact ih outer hlt (Nat.lt_trans hlt hscope) hnone.2

end IsLinked

end Store

/-- The contract of links. A world is the number of scopes. -/
def Contract.linked (roots : Nat) : Contract where
  World := Nat
  holds count store := store.scopes.size = count ∧ store.IsLinked roots
  inScope count id := id < count
  leads _ count count' := count ≤ count'
  outcome := Value.IsFrom
  settled := Value.IsFrom
  leads_refl := Nat.le_refl _
  leads_trans := Nat.le_trans
  inScope_mono hle hid := Nat.lt_of_lt_of_le hid hle
  outcome_mono hle h _ := h.mono hle
  outcome_of_settled h := h
  settled_arrived h := h.arrived
  returned h _ := h
  int _ := trivial
  bool _ := trivial
  nil := trivial
  lookup {_ store scope} name hstore _ := by
    obtain ⟨rfl, hlinked⟩ := hstore
    cases hlookup : store.lookup scope name with
    | none => trivial
    | some value => exact hlinked.binds.lookup hlookup
  unary op _ _ := .of_isComputed (op.isComputed_apply _)
  binary op _ _ _ _ := .of_isComputed (op.isComputed_apply _ _)
  function parameters body hstore hscope :=
    ⟨_, Nat.le_refl _, ⟨hstore.1, hstore.2.addFunction parameters body _⟩, hscope⟩
  bind name hstore _ hvalue _ := by
    obtain ⟨rfl, hlinked⟩ := hstore
    exact ⟨_, Nat.le_refl _, Store.size_define, hlinked.define _ name hvalue⟩
  enter _ hstore hf _ harguments := by
    obtain ⟨rfl, hlinked⟩ := hstore
    have henter := hlinked.enter hf fun value hvalue => (harguments value hvalue).1
    exact ⟨_, ⟨Store.size_enter _ _, henter⟩, Nat.lt_succ_self _,
      fun _ hle => Nat.le_trans (Nat.le_succ _) hle⟩
  notAFunction _ _ _ := trivial
  wrongArgumentCount _ := trivial

end LetScript
