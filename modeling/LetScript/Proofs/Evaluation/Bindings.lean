import LetScript.Proofs.Evaluation.Resolution

/-! What can be bound in a store. A property of names with their values that holds of what
is written holds of whatever is found. -/
namespace LetScript.Store

theorem exists_mem_of_findLocal? {store : Store} {id : ScopeId} {name : String} {value : Value}
    (h : store.findLocal? id name = some value) :
    ∃ scope ∈ store.scopes, (name, value) ∈ scope.bindings := by
  obtain ⟨scope, hscope, hvalue⟩ := Option.bind_eq_some_iff.mp h
  obtain ⟨before, after, hbindings, -⟩ := List.lookup_eq_some_iff.mp hvalue
  exact ⟨scope, Array.mem_of_getElem? hscope, hbindings ▸ List.mem_append_cons_self⟩

/-- Whatever is bound to a name, in whichever scope, has the property with it. -/
def Binds (P : String → Value → Prop) (store : Store) : Prop :=
  ∀ id name value, store.findLocal? id name = some value → P name value

namespace Binds

variable {P : String → Value → Prop} {store : Store} {name : String} {value : Value}

theorem empty : Store.empty.Binds P := by
  intro id name value hfound
  obtain ⟨scope, hscope, -⟩ := exists_mem_of_findLocal? hfound
  exact absurd hscope (Array.not_mem_empty scope)

theorem set (h : store.Binds P) (scope : ScopeId) (hvalue : P name value) :
    (store.set scope name value).Binds P := by
  intro id other found hfound
  rw [findLocal?_set] at hfound
  split at hfound
  · next hset =>
    cases hfound
    exact hset.2.2 ▸ hvalue
  · exact h id other found hfound

theorem setAll {bindings : List (String × Value)} (h : store.Binds P) (scope : ScopeId)
    (hbindings : ∀ binding ∈ bindings, P binding.1 binding.2) :
    (store.setAll scope bindings).Binds P := by
  induction bindings generalizing store with
  | nil => exact h
  | cons first rest ih =>
    obtain ⟨hfirst, hrest⟩ := List.forall_mem_cons.mp hbindings
    exact ih (h.set scope hfirst) hrest

theorem define (h : store.Binds P) (scope : ScopeId) (hvalue : P name value) :
    (store.define scope name value).Binds P := by
  unfold Store.define
  split
  · next f =>
    split
    · exact (h.set f.scope hvalue).set scope hvalue
    · exact h.set scope hvalue
  · exact h.set scope hvalue

theorem addScope (h : store.Binds P) (outer : Option ScopeId) :
    (store.addScope outer).2.Binds P := by
  intro id name value hfound
  rw [findLocal?_addScope] at hfound
  exact h id name value hfound

theorem enter {arguments : List Value} (h : store.Binds P) (f : Closure)
    (harguments : ∀ value ∈ arguments, ∀ name, P name value) : (store.enter f arguments).Binds P :=
  (h.addScope (some f.scope)).setAll _ fun _ hbinding =>
    harguments _ (List.of_mem_zip hbinding).2 _

theorem lookup (h : store.Binds P) {scope : ScopeId}
    (hlookup : store.lookup scope name = some value) : P name value := by
  obtain hlocal | ⟨-, outer, -, hlt, hlookup⟩ := lookup_eq_some hlookup
  · exact h scope name value hlocal
  · exact lookup h hlookup
termination_by scope

end Binds

end LetScript.Store
