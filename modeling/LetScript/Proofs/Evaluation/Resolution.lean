import LetScript.Proofs.Evaluation.Frame
import LetScript.Proofs.Evaluation.Reachable

/-! What a call does to the meaning of names. A name that means something in a scope goes
on meaning it, with one exception: a function that a `let` binds under that name is bound
in its own scope too, and this comes before what scopes further out bind the name to. -/
namespace LetScript

namespace Store

variable {store store' : Store} {scope outer : ScopeId} {name : String} {value : Value}

/-- The way outward from one scope comes to the other. It starts at the scope itself. -/
def Reaches (store : Store) : ScopeId → ScopeId → Prop :=
  Relation.ReflTransGen fun inner outer => store.outer inner = some outer

theorem lookup_of_findLocal? (h : store.findLocal? scope name = some value) :
    store.lookup scope name = some value := by
  rw [lookup, h]

theorem lookup_of_outer (h : store.findLocal? scope name = none)
    (houter : store.outer scope = some outer) (hlt : outer < scope) :
    store.lookup scope name = store.lookup outer name := by
  rw [lookup, h, houter]
  exact if_pos hlt

/-- What a name means comes from its own scope or, if it is free there, from the next one. -/
theorem lookup_eq_some (h : store.lookup scope name = some value) :
    store.findLocal? scope name = some value ∨
      store.findLocal? scope name = none ∧ ∃ outer, store.outer scope = some outer ∧
        outer < scope ∧ store.lookup outer name = some value := by
  rw [lookup] at h
  split at h
  · next found hfound => exact .inl (hfound.trans h)
  · next hfree =>
    split at h
    · next outer houter =>
      split at h
      · next hlt => exact .inr ⟨hfree, outer, houter, hlt, h⟩
      · cases h
    · cases h

/-! ### The way outward -/

/-- Of the scopes with the property on the way outward, `holder` comes first. -/
structure IsNearest (store : Store) (P : ScopeId → Prop) (scope holder : ScopeId) : Prop where
  reaches : store.Reaches scope holder
  holds : P holder
  nearest : ∀ id, store.Reaches scope id → P id → store.Reaches holder id

/-- The only way on is to the scope outside. -/
theorem Reaches.eq_or_of_outer {id : ScopeId} (h : store.Reaches scope id)
    (houter : store.outer scope = some outer) : id = scope ∨ store.Reaches outer id := by
  obtain rfl | ⟨next, hnext, hreaches⟩ := Relation.ReflTransGen.cases_head h
  · exact .inl rfl
  · cases houter.symm.trans hnext
    exact .inr hreaches

theorem IsNearest.of_outer {P : ScopeId → Prop} {holder : ScopeId}
    (h : store.IsNearest P outer holder) (houter : store.outer scope = some outer)
    (hscope : ¬ P scope) : store.IsNearest P scope holder where
  reaches := .head houter h.reaches
  holds := h.holds
  nearest id hreaches hid := by
    obtain rfl | hreaches := hreaches.eq_or_of_outer houter
    · exact absurd hid hscope
    · exact h.nearest id hreaches hid

theorem exists_isNearest (hlookup : store.lookup scope name = some value) :
    ∃ holder, store.IsNearest (fun id => store.findLocal? id name ≠ none) scope holder ∧
      store.findLocal? holder name = some value := by
  induction scope using Nat.strongRecOn with
  | ind scope ih =>
    obtain hlocal | ⟨hfree, outer, houter, hlt, hrest⟩ := lookup_eq_some hlookup
    · exact ⟨scope, ⟨.refl, hlocal ▸ nofun, fun _ hreaches _ => hreaches⟩, hlocal⟩
    · obtain ⟨holder, hholder, hvalue⟩ := ih outer hlt hrest
      exact ⟨holder, hholder.of_outer houter (not_not_intro hfree), hvalue⟩

/-! ### Where a name comes to mean something else -/

/-- In `store'` the name means `f`, which is bound to it in the scope that `f` was written in: one
on the way outward from `scope`, with the name free before and so meaning `value`. The scope that
had bound the name to `value` for `scope` lies further outward than that one. -/
structure Overtakes (store store' : Store) (scope : ScopeId) (name : String) (value : Value)
    (f : Closure) : Prop where
  reaches : store.Reaches scope f.scope
  free : store.findLocal? f.scope name = none
  before : store.lookup f.scope name = some value
  bound : store'.findLocal? f.scope name = some (.function f)
  after : store'.lookup scope name = some (.function f)
  further : ∃ holder, store.IsNearest (fun id => store.findLocal? id name ≠ none) scope holder ∧
    store.findLocal? holder name = some value ∧ store.Reaches f.scope holder ∧ holder ≠ f.scope

theorem lookup_of_keeps (hkeeps : ∀ id < store.scopes.size,
      store'.outer id = store.outer id ∧ store.Keeps store' id)
    {scope : ScopeId} (hscope : scope < store.scopes.size)
    (h : store.lookup scope name = some value) :
    store'.lookup scope name = some value ∨ ∃ f, store.Overtakes store' scope name value f := by
  obtain ⟨hsame, hkept⟩ := hkeeps scope hscope
  obtain hlocal | ⟨hfree, outer, houter, hlt, hlookup⟩ := lookup_eq_some h
  · exact .inl (lookup_of_findLocal? (hkept.bound name value hlocal))
  · cases hnew : store'.findLocal? scope name with
    | some new =>
      obtain ⟨f, rfl, rfl⟩ := hkept.new name new hfree hnew
      obtain ⟨holder, hholder, hvalue⟩ := exists_isNearest h
      have hne : holder ≠ f.scope := by
        rintro rfl
        exact hholder.holds hfree
      exact .inr ⟨f, .refl, hfree, h, hnew, lookup_of_findLocal? hnew,
        holder, hholder, hvalue, hholder.reaches, hne⟩
    | none =>
      have hstep : store'.lookup scope name = store'.lookup outer name :=
        lookup_of_outer hnew (hsame.trans houter) hlt
      rw [hstep]
      obtain hvalue | ⟨f, hf⟩ := lookup_of_keeps hkeeps (Nat.lt_trans hlt hscope) hlookup
      · exact .inl hvalue
      · obtain ⟨holder, hholder, hvalue, hfurther⟩ := hf.further
        exact .inr ⟨f, .head houter hf.reaches, hf.free, hf.before, hf.bound, hstep.trans hf.after,
          holder, hholder.of_outer houter (not_not_intro hfree), hvalue, hfurther⟩
termination_by scope

/-- After a call a name means what it meant before, unless a function was bound under it in its own
scope, closer to where the name is used than what it meant. -/
theorem lookup_after_call {depth : Nat} {callee : Value} {arguments : List Value} {result : Value}
    (hcall : applyWithin depth callee arguments store = some (result, store'))
    (hscope : scope < store.scopes.size) (h : store.lookup scope name = some value) :
    store'.lookup scope name = some value ∨ ∃ f, store.Overtakes store' scope name value f := by
  refine lookup_of_keeps ?_ hscope h
  intro id hid
  have hchanges := changesOnly_applyWithin store.scopes.size hcall
  exact ⟨hchanges.outer id hid, hchanges.keeps id hid (Nat.ne_of_lt hid)⟩

theorem lookup_beforeAlias : beforeAlias.lookup 1 "x" = some (.int 1) := by
  decide +kernel

theorem lookup_afterAlias : afterAlias.lookup 1 "x" = some (.function .reader) := by
  decide +kernel

/-- The function that `x` means after the call was written where `x` was free. -/
theorem lookup_after_aliaser :
    applyWithin 1 (.function .aliaser) [] .beforeAlias = some (.nil, .afterAlias) ∧
      1 < beforeAlias.scopes.size ∧ beforeAlias.lookup 1 "x" = some (.int 1) ∧
      ∃ f, beforeAlias.Overtakes .afterAlias 1 "x" (.int 1) f := by
  refine ⟨applyWithin_aliaser, by decide, lookup_beforeAlias, ?_⟩
  refine (lookup_after_call applyWithin_aliaser (by decide) lookup_beforeAlias).resolve_left ?_
  rw [lookup_afterAlias]
  exact nofun

end Store

namespace Interpreter

theorem reachable_beforeAlias : Reachable ⟨.beforeAlias, 0⟩ := by
  have hafter : (new.run 1 ("let x = 1; let f = fn() \x7b fn() \x7b x \x7d \x7d(); " ++
      "let h = fn() \x7b let x = f; \x7d;")).map Prod.snd = some ⟨.beforeAlias, 0⟩ := by
    decide +kernel
  obtain ⟨⟨_, _⟩, hrun, rfl⟩ := Option.map_eq_some_iff.mp hafter
  exact .run .new hrun

/-- A call can change what a name means in a scope that there was before. -/
theorem not_lookup_kept_by_calls :
    ¬ ∀ i : Interpreter, i.Reachable → ∀ depth callee arguments result store',
      applyWithin depth callee arguments i.store = some (result, store') →
        ∀ scope < i.store.scopes.size, ∀ name value,
          i.store.lookup scope name = some value → store'.lookup scope name = some value := by
  intro h
  have hkept := h _ reachable_beforeAlias 1 _ _ _ _ applyWithin_aliaser 1 (by decide) "x" (.int 1)
    Store.lookup_beforeAlias
  rw [Store.lookup_afterAlias] at hkept
  cases hkept

end Interpreter

end LetScript
