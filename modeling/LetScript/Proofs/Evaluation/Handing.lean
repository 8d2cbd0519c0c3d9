import LetScript.Proofs.Evaluation.Links
import Mathlib.Data.List.Forall2

/-! How functions get about. What is bound, given to a call or brought by one is the very
function that there was before, and a call sees what is bound where its function was
written. -/
namespace LetScript

namespace Store

variable {store : Store} {scope id : ScopeId} {name : String} {value : Value} {f : Closure}

/-! ### Reading what was written -/

theorem findLocal?_define_self (hscope : scope < store.scopes.size) :
    (store.define scope name value).findLocal? scope name = some value := by
  unfold define
  rw [findLocal?_set, if_pos]
  refine ⟨rfl, ?_, rfl⟩
  split
  · split
    · exact size_set.symm ▸ hscope
    · exact hscope
  · exact hscope

/-- In the scope that the function was written in, the name is not taken away. -/
theorem findLocal?_define_written (hne : f.scope ≠ scope) (hf : f.scope < store.scopes.size) :
    (store.define scope name (.function f)).findLocal? f.scope name =
      some ((store.findLocal? f.scope name).getD (.function f)) := by
  unfold define
  rw [findLocal?_set, if_neg fun h => hne h.1]
  cases hlocal : store.findLocal? f.scope name with
  | none => simp [hlocal, hne, hf, findLocal?_set]
  | some => simp [hlocal]

theorem outer_setAll (bindings : List (String × Value)) :
    (store.setAll scope bindings).outer id = store.outer id := by
  induction bindings generalizing store with
  | nil => rfl
  | cons first rest ih => exact ih.trans outer_set

theorem findLocal?_setAll_of_ne {bindings : List (String × Value)}
    (h : ∀ binding ∈ bindings, id = scope → binding.1 ≠ name) :
    (store.setAll scope bindings).findLocal? id name = store.findLocal? id name := by
  induction bindings generalizing store with
  | nil => rfl
  | cons first rest ih =>
    obtain ⟨hfirst, hrest⟩ := List.forall_mem_cons.mp h
    refine (ih hrest).trans ?_
    rw [findLocal?_set, if_neg fun hset => hfirst hset.1 hset.2.2.symm]

theorem findLocal?_setAll_last {before after : List (String × Value)}
    (hscope : scope < store.scopes.size) (hlast : ∀ binding ∈ after, binding.1 ≠ name) :
    (store.setAll scope (before ++ (name, value) :: after)).findLocal? scope name = some value := by
  have hsplit : store.setAll scope (before ++ (name, value) :: after) =
      ((store.setAll scope before).set scope name value).setAll scope after :=
    List.foldl_append
  rw [hsplit, findLocal?_setAll_of_ne fun binding hbinding _ => hlast binding hbinding,
    findLocal?_set, if_pos ⟨rfl, (size_setAll before).symm ▸ hscope, rfl⟩]

/-! ### The scope of a call -/

variable {arguments : List Value}

theorem outer_enter : (store.enter f arguments).outer id =
    if id = store.scopes.size then some f.scope else store.outer id :=
  (outer_setAll _).trans (outer_addScope _)

theorem findLocal?_enter_of_ne
    (h : id = store.scopes.size → name ∉ f.parameters) :
    (store.enter f arguments).findLocal? id name = store.findLocal? id name := by
  refine (findLocal?_setAll_of_ne ?_).trans (findLocal?_addScope _)
  rintro binding hbinding hid rfl
  exact h hid (List.of_mem_zip hbinding).1

theorem findLocal?_enter_last {before after : List (String × Value)}
    (hzip : f.parameters.zip arguments = before ++ (name, value) :: after)
    (hlast : ∀ binding ∈ after, binding.1 ≠ name) :
    (store.enter f arguments).findLocal? store.scopes.size name = some value := by
  rw [enter, hzip]
  exact findLocal?_setAll_last (size_addScope _ ▸ Nat.lt_succ_self _) hlast

theorem lookup_enter_of_lt (hscope : scope < store.scopes.size) :
    (store.enter f arguments).lookup scope name = store.lookup scope name := by
  induction scope using Nat.strongRecOn with
  | ind scope ih =>
    have hne : scope ≠ store.scopes.size := Nat.ne_of_lt hscope
    rw [lookup.eq_def, lookup.eq_def store, findLocal?_enter_of_ne fun h => absurd h hne,
      outer_enter, if_neg hne]
    split
    · rfl
    · split
      · next outer _ =>
        split
        · next hlt => exact ih outer hlt (Nat.lt_trans hlt hscope)
        · rfl
      · rfl

/-- Names other than parameters mean what they mean where the function was written. -/
theorem lookup_enter_of_notMem (hf : f.scope < store.scopes.size) (hname : name ∉ f.parameters) :
    (store.enter f arguments).lookup store.scopes.size name = store.lookup f.scope name := by
  have hnew : store.findLocal? store.scopes.size name = none := by simp [findLocal?]
  have hfree : (store.enter f arguments).findLocal? store.scopes.size name = none :=
    (findLocal?_enter_of_ne fun _ => hname).trans hnew
  have houter : (store.enter f arguments).outer store.scopes.size = some f.scope :=
    outer_enter.trans (if_pos rfl)
  exact (lookup_of_outer hfree houter hf).trans (lookup_enter_of_lt hf)

end Store

/-- Each value of an argument is what the argument has been evaluated to, after those before it. -/
theorem forall₂_of_evalArguments {call : Caller} {scope : ScopeId} {es : List Expr}
    {store store' : Store} {values : List Value}
    (h : evalArguments call scope es store = some (.ok values, store')) :
    List.Forall₂ (fun e value => ∃ before after more start ended, es = before ++ e :: after ∧
      evalArguments call scope before store = some (.ok more, start) ∧
      e.eval call scope start = some (value, ended)) es values := by
  induction es generalizing store values with
  | nil =>
    cases h
    exact .nil
  | cons first rest ih =>
    obtain ⟨value, store₁, more, hfirst, hvalue, hrest, rfl⟩ := evalArguments_cons_eq_some_iff.mp h
    refine .cons ⟨[], rest, [], store, store₁, rfl, rfl, hfirst⟩ ((ih hrest).imp ?_)
    rintro e value' ⟨before, after, values, start, ended, rfl, hbefore, he⟩
    exact ⟨first :: before, after, value :: values, start, ended, rfl,
      evalArguments_cons_eq_some_iff.mpr ⟨value, store₁, values, hfirst, hvalue, hbefore, rfl⟩, he⟩

namespace Activity

/-- Wherever the evaluation passes a function on, it is that function which gets there. -/
structure HandsOn (a : Activity) : Prop where
  /-- A name yields the function that it means. -/
  named : ∀ name f, a.task = .expr (.name name) →
    a.store.lookup a.scope name = some (.function f) → a.eval = some (.function f, a.store)
  /-- A `let` binds a function in its scope and, if the name is free there, in the scope that the
  function was written in. -/
  bound : ∀ name e b f store, a.task = .stmt (.bind name e) → a.Starts b →
    b.eval = some (.function f, store) → ∃ store', a.eval = some (.nil, store') ∧
      store'.findLocal? a.scope name = some (.function f) ∧
      (f.scope ≠ a.scope → store'.findLocal? f.scope name =
        some ((store.findLocal? f.scope name).getD (.function f)))
  returned : ∀ e b f store, a.task = .stmt (.ret e) → a.Starts b →
    b.eval = some (.function f, store) → a.eval = some (.returned (.function f), store)
  /-- A call is given what its arguments have been evaluated to, and its value is that of the
  expression. -/
  given : ∀ callee es b value values, a.task = .expr (.call callee es) → a.Starts b →
    b.task = .call value values → a.eval = b.eval ∧ List.Forall₂ (fun e value =>
      ∃ part store, a.Starts part ∧ part.task = .expr e ∧ part.eval = some (value, store)) es values
  /-- Of parameters with the same name the last one counts. -/
  passed : ∀ f arguments b before name value after, a.task = .call (.function f) arguments →
    a.Starts b → f.parameters.zip arguments = before ++ (name, value) :: after →
    (∀ binding ∈ after, binding.1 ≠ name) → b.store.lookup b.scope name = some value
  /-- Other names mean in the body what they mean where the function was written. -/
  captured : ∀ f arguments b name, a.task = .call (.function f) arguments → a.Starts b →
    name ∉ f.parameters → b.store.lookup b.scope name = a.store.lookup f.scope name
  brought : ∀ f arguments b value store, a.task = .call (.function f) arguments → a.Starts b →
    b.eval = some (value, store) → a.eval = some (value.arrived, store)

variable {a : Activity}

theorem handsOn {roots count : Nat} (h : (Contract.linked roots).Covers count a) : a.HandsOn := by
  obtain ⟨⟨rfl, hlinked⟩, hscope, hadmits⟩ := h
  obtain ⟨depth, scope, task, store⟩ := a
  constructor
  case named =>
    rintro name f ⟨⟩ hlookup
    change some ((store.lookup scope name).getD _, store) = _
    rw [hlookup]
    rfl
  case bound =>
    rintro name e b f ended ⟨⟩ hb heval
    cases hb
    have hcovers : (Contract.linked roots).Covers store.scopes.size
      ⟨depth, scope, .expr e, store⟩ := ⟨⟨rfl, hlinked⟩, hscope, trivial⟩
    obtain ⟨_, hle, ⟨rfl, -⟩, hf⟩ := hcovers.eval heval
    refine ⟨ended.define scope name (.function f), Eval.proceed_of_eq_some heval rfl, ?_, ?_⟩
    · exact Store.findLocal?_define_self (Nat.lt_of_lt_of_le hscope hle)
    · exact fun hne => Store.findLocal?_define_written hne hf
  case returned =>
    rintro e b f ended ⟨⟩ hb heval
    cases hb
    exact Eval.proceed_of_eq_some heval rfl
  case given =>
    rintro callee es b value values ⟨⟩ hb hcall
    cases hb with
    | callee | argument => cases hcall
    | call hcallee hvalue harguments =>
      cases hcall
      constructor
      · refine (Eval.proceed_of_eq_some hcallee hvalue).trans ?_
        change Option.bind (evalArguments _ _ _ _) _ = _
        rw [harguments]
        rfl
      · refine (forall₂_of_evalArguments harguments).imp ?_
        rintro e value' ⟨before, after, more, start, ended, rfl, hbefore, he⟩
        exact ⟨_, ended, .argument hcallee hvalue hbefore, rfl, he⟩
  case passed =>
    rintro f arguments b before name value after ⟨⟩ hb hzip hlast
    cases hb
    exact Store.lookup_of_findLocal? (Store.findLocal?_enter_last hzip hlast)
  case captured =>
    rintro f arguments b name ⟨⟩ hb hname
    cases hb
    exact Store.lookup_enter_of_notMem hadmits.1.1 hname
  case brought =>
    rintro f arguments b value ended ⟨⟩ hb heval
    cases hb with
    | body hlength =>
      change applyWithin _ _ _ _ = _
      rw [applyWithin_function hlength]
      exact congrArg (Option.map _) heval

end Activity

end LetScript
