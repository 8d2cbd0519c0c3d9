import LetScript.Proofs.Evaluation.Trail
import Mathlib.Data.List.Basic
import Mathlib.Data.List.Induction

/-! What names mean, told from the history of the scopes. Whatever has been done with the
scopes, in whichever order, a name means what was last written under it in the nearest
scope that it was ever written in. That functions and scopes lead back to one another is
no matter, as the way outward leads to ever older scopes. -/
namespace LetScript

namespace Change

/-- What was last written under the name in the scope. -/
def IsLast (log : List Change) (scope : ScopeId) (name : String) (value : Value) : Prop :=
  ∃ before after, log = before ++ .write scope name value :: after ∧
    ∀ other, .write scope name other ∉ after

variable {log : List Change} {change : Change} {scope : ScopeId} {name : String} {value : Value}

theorem isLast_append_singleton_iff : IsLast (log ++ [change]) scope name value ↔
    change = .write scope name value ∨
      (∀ other, change ≠ .write scope name other) ∧ IsLast log scope name value := by
  constructor
  · rintro ⟨before, after, hlog, hafter⟩
    obtain rfl | ⟨rest, last, rfl⟩ := after.eq_nil_or_concat'
    · exact .inl (List.append_singleton_inj.mp hlog).2
    · rw [← List.cons_append, ← List.append_assoc] at hlog
      obtain ⟨rfl, rfl⟩ := List.append_singleton_inj.mp hlog
      refine .inr ⟨?_, before, rest, rfl, fun other hother => hafter other ?_⟩
      · rintro other rfl
        exact hafter other List.mem_concat_self
      · exact List.mem_append_left _ hother
  · rintro (rfl | ⟨hne, before, after, rfl, hafter⟩)
    · exact ⟨log, [], rfl, fun _ => List.not_mem_nil⟩
    · refine ⟨before, after ++ [change], by simp, fun other hother => ?_⟩
      obtain hother | hother := List.mem_append.mp hother
      · exact hafter other hother
      · exact hne other (List.mem_singleton.mp hother).symm

theorem exists_isLast_iff :
    (∃ value, IsLast log scope name value) ↔ ∃ value, .write scope name value ∈ log := by
  constructor
  · rintro ⟨value, before, after, rfl, -⟩
    exact ⟨value, List.mem_append_cons_self⟩
  · rintro ⟨value, hvalue⟩
    -- from the end of the log: a change that writes there is the last one to do so
    induction log using List.reverseRecOn with
    | nil => cases hvalue
    | append_singleton log change ih =>
      simp only [isLast_append_singleton_iff]
      by_cases hchange : ∃ other, change = .write scope name other
      · obtain ⟨other, rfl⟩ := hchange
        exact ⟨other, .inl rfl⟩
      · rw [not_exists] at hchange
        have hne : write scope name value ∉ [change] := fun h =>
          hchange value (List.mem_singleton.mp h).symm
        obtain ⟨last, hlast⟩ := ih ((List.mem_append.mp hvalue).resolve_right hne)
        exact ⟨last, .inr ⟨hchange, hlast⟩⟩

end Change

namespace Store

variable {store store' : Store} {log : List Change} {scope start id holder : ScopeId}
  {name other : String} {value : Value}

/-! ### What changes do to scopes -/

theorem findLocal?_apply_eq_some_iff {change : Change} (h : change.IsPossible store) :
    (change.apply store).findLocal? id name = some value ↔
      change = .write id name value ∨
        (∀ other, change ≠ .write id name other) ∧ store.findLocal? id name = some value := by
  cases change with
  | create outer =>
    change (store.addScope outer).2.findLocal? id name = _ ↔ _
    rw [findLocal?_addScope]
    simp
  | write scope' name' value' =>
    change (store.set scope' name' value').findLocal? id name = _ ↔ _
    rw [findLocal?_set]
    split
    · next hsame =>
      obtain ⟨rfl, -, rfl⟩ := hsame
      simp
    · next hother =>
      have hne : ∀ other, Change.write scope' name' value' ≠ .write id name other := by
        rintro other ⟨⟩
        exact hother ⟨rfl, h.1, rfl⟩
      simp [hne]
  | function =>
    change store.findLocal? id name = _ ↔ _
    simp

theorem outer_apply {change : Change} (hid : id < store.scopes.size) :
    (change.apply store).outer id = store.outer id := by
  cases change with
  | create outer => exact (outer_addScope outer).trans (if_neg (Nat.ne_of_lt hid))
  | write => exact outer_set
  | function => rfl

theorem size_le_apply {change : Change} : store.scopes.size ≤ (change.apply store).scopes.size := by
  cases change with
  | create outer =>
    refine Nat.le_trans (Nat.le_succ _) (Nat.le_of_eq ?_)
    exact (size_addScope outer).symm
  | write => exact Nat.le_of_eq size_set.symm
  | function => exact Nat.le_refl _

theorem IsLinked.apply {change : Change} (h : store.IsLinked store.scopes.size)
    (hchange : change.IsPossible store) :
    (change.apply store).IsLinked (change.apply store).scopes.size := by
  cases change with
  | create outer =>
    change (store.addScope outer).2.IsLinked (store.addScope outer).2.scopes.size
    rw [size_addScope]
    exact (h.mono (Nat.le_succ _)).addScope hchange fun _ => Nat.lt_succ_self _
  | write scope name value =>
    change (store.set scope name value).IsLinked (store.set scope name value).scopes.size
    rw [size_set]
    exact h.set scope name hchange.2
  | function => exact ⟨h.outer_lt, h.rooted, h.binds⟩

namespace Undergoes

theorem isLinked (hstore : store.IsLinked store.scopes.size) (h : store.Undergoes log store') :
    store'.IsLinked store'.scopes.size := by
  induction h with
  | refl => exact hstore
  | step _ hchange ih => exact ih.apply hchange

theorem size_le (h : store.Undergoes log store') : store.scopes.size ≤ store'.scopes.size := by
  induction h with
  | refl => exact Nat.le_refl _
  | step _ _ ih => exact Nat.le_trans ih size_le_apply

theorem outer_eq (h : store.Undergoes log store') (hid : id < store.scopes.size) :
    store'.outer id = store.outer id := by
  induction h with
  | refl => rfl
  | step h _ ih => exact (outer_apply (Nat.lt_of_lt_of_le hid h.size_le)).trans ih

/-- A scope has what was last written to it. -/
theorem findLocal?_eq_some_iff (h : empty.Undergoes log store) :
    store.findLocal? id name = some value ↔ Change.IsLast log id name value := by
  induction h with
  | refl =>
    refine ⟨nofun, ?_⟩
    rintro ⟨before, after, hlog, -⟩
    cases before <;> cases hlog
  | step _ hchange ih =>
    rw [findLocal?_apply_eq_some_iff hchange, Change.isLast_append_singleton_iff, ih]

theorem findLocal?_ne_none_iff (h : empty.Undergoes log store) :
    store.findLocal? id name ≠ none ↔ ∃ value, .write id name value ∈ log := by
  rw [← Change.exists_isLast_iff, Option.ne_none_iff_exists']
  exact exists_congr fun _ => h.findLocal?_eq_some_iff

end Undergoes

/-! ### The way outward -/

/-- The way outward comes to `scope` without having met a scope that binds the name. -/
structure Sees (store : Store) (name : String) (start scope : ScopeId) : Prop where
  reaches : store.Reaches start scope
  clear : ∀ id, store.Reaches start id → store.Reaches id scope → id ≠ scope →
    store.findLocal? id name = none

variable {roots : Nat} {P : ScopeId → Prop}

theorem IsNearest.unique (h : store.IsNearest P scope holder) {holder' : ScopeId}
    (hstore : store.IsLinked roots) (h' : store.IsNearest P scope holder') : holder = holder' :=
  Nat.le_antisymm (hstore.reaches_le (h'.nearest holder h.reaches h.holds))
    (hstore.reaches_le (h.nearest holder' h'.reaches h'.holds))

namespace IsLinked

theorem lookup_eq_none_iff (h : store.IsLinked roots) : store.lookup scope name = none ↔
    ∀ id, store.Reaches scope id → store.findLocal? id name = none := by
  constructor
  · intro hnone id hreaches
    have hfree : store.lookup id name = none := by
      induction hreaches with
      | refl => exact hnone
      | tail _ houter ih =>
        rw [h.lookup_eq, houter, Option.or_eq_none_iff] at ih
        exact ih.2
    rw [h.lookup_eq, Option.or_eq_none_iff] at hfree
    exact hfree.1
  · intro hfree
    refine Option.eq_none_iff_forall_ne_some.mpr fun value hlookup => ?_
    obtain ⟨holder, hholder, -⟩ := exists_isNearest hlookup
    exact hholder.holds (hfree holder hholder.reaches)

theorem lookup_eq_some_iff (h : store.IsLinked roots) : store.lookup scope name = some value ↔
    ∃ holder, store.IsNearest (fun id => store.findLocal? id name ≠ none) scope holder ∧
      store.findLocal? holder name = some value := by
  refine ⟨exists_isNearest, ?_⟩
  rintro ⟨holder, hholder, hvalue⟩
  cases hlookup : store.lookup scope name with
  | none => exact absurd (h.lookup_eq_none_iff.mp hlookup holder hholder.reaches) hholder.holds
  | some value' =>
    -- there is a nearest scope for what is found, and there are no two
    obtain ⟨holder', hholder', hvalue'⟩ := exists_isNearest hlookup
    rw [hholder.unique h hholder', hvalue'] at hvalue
    exact hvalue

/-- A write is seen only where the way outward comes to it, and before other bindings. -/
theorem lookup_set (h : store.IsLinked roots) (scope : ScopeId) (name : String) (value : Value)
    (start : ScopeId) (other : String) :
    (store.set scope name value).lookup start other = store.lookup start other ∨
      other = name ∧ store.Sees name start scope ∧
        (store.set scope name value).lookup start other = some value := by
  have hset : ∀ id outer, (store.set scope name value).outer id = some outer → outer < id :=
    fun id outer houter => h.outer_lt id outer (outer_set.symm.trans houter)
  -- on the way outward from `start`; the write is met first, or a binding, or neither
  induction start using Nat.strongRecOn with
  | ind start ih =>
    rw [lookup_eq_of_outer_lt hset, h.lookup_eq, findLocal?_set, outer_set]
    split
    · next hhere =>
      obtain ⟨rfl, -, rfl⟩ := hhere
      refine .inr ⟨rfl, ⟨.refl, fun id hto hfrom hne => ?_⟩, Option.some_or⟩
      exact absurd (Nat.le_antisymm (h.reaches_le hto) (h.reaches_le hfrom)) hne
    · cases hlocal : store.findLocal? start other with
      | some => exact .inl rfl
      | none =>
        rw [Option.none_or, Option.none_or]
        cases houter : store.outer start with
        | none => exact .inl rfl
        | some outer =>
          refine (ih outer (h.outer_lt _ _ houter)).imp id ?_
          rintro ⟨rfl, hsees, hlookup⟩
          refine ⟨rfl, ⟨.head houter hsees.reaches, fun id hto hfrom hne => ?_⟩, hlookup⟩
          obtain rfl | hto := hto.eq_or_of_outer houter
          · exact hlocal
          · exact hsees.clear id hto hfrom hne

end IsLinked

end Store

/-! ### Histories -/

/-- What can be evaluated by itself. -/
inductive Node where
  | program (p : Program)
  | stmt (s : Stmt)
  | expr (e : Expr)

namespace Node

def eval (call : Caller) (scope : ScopeId) : Node → Eval Value
  | program p => p.eval call scope
  | stmt s => s.eval call scope
  | expr e => e.eval call scope

def trail (call : Caller) (called : Value → List Value → Trail) (scope : ScopeId) : Node → Trail
  | program p => statementsTrail call called scope p.statements
  | stmt s => s.trail call called scope
  | expr e => e.trail call called scope

theorem undergoes_trail {node : Node} {depth : Nat} {scope : ScopeId} {store store' : Store}
    {result : Value} (hstore : store.IsLinked store.scopes.size)
    (hscope : scope < store.scopes.size)
    (h : node.eval (applyWithin depth) scope store = some (result, store')) :
    store.Undergoes (node.trail (applyWithin depth) (trailWithin depth) scope store) store' := by
  have hcall := (Contract.linked store.scopes.size).permits_applyWithin depth
  have hcalled := tracked_applyWithin store.scopes.size depth
  cases node with
  | program p =>
    obtain ⟨_, _, hstatements, ⟨⟩⟩ := Eval.bind_eq_some_iff.mp h
    exact tracks_statementsTrail hcall hcalled hscope p.statements store ⟨rfl, hstore⟩ _ _
      hstatements
  | stmt s => exact s.tracks_trail hcall hcalled hscope store ⟨rfl, hstore⟩ _ _ h
  | expr e => exact e.tracks_trail hcall hcalled hscope store ⟨rfl, hstore⟩ _ _ h

end Node

namespace Store

/-- Scopes are created, written to and evaluated in, any of them at any time. The log has all the
changes that were made, those of evaluations included. -/
inductive Evolves (start : Store) : List Change → Store → Prop where
  | refl : Evolves start [] start
  | new {log store} (h : Evolves start log store) :
      Evolves start (log ++ [.create none]) (store.addScope none).2
  | enclose {log store outer} (h : Evolves start log store) (houter : outer < store.scopes.size) :
      Evolves start (log ++ [.create (some outer)]) (store.addScope (some outer)).2
  | set {log store scope name value} (h : Evolves start log store)
      (hscope : scope < store.scopes.size) (hvalue : value.IsFrom store.scopes.size) :
      Evolves start (log ++ [.write scope name value]) (store.set scope name value)
  | eval {log store} {node : Node} {depth scope result store'} (h : Evolves start log store)
      (hscope : scope < store.scopes.size)
      (heval : node.eval (applyWithin depth) scope store = some (result, store')) :
      Evolves start (log ++ node.trail (applyWithin depth) (trailWithin depth) scope store) store'

variable {start store : Store} {log : List Change}

theorem Evolves.undergoes (hstart : start.IsLinked start.scopes.size)
    (h : start.Evolves log store) : start.Undergoes log store := by
  induction h with
  | refl => exact .refl
  | new _ ih => exact ih.trans (undergoes_create nofun)
  | enclose _ houter ih => exact ih.trans (undergoes_create fun _ h => Option.some.inj h ▸ houter)
  | set _ hscope hvalue ih => exact ih.trans (undergoes_write hscope hvalue)
  | eval _ hscope heval ih =>
    exact ih.trans (Node.undergoes_trail (ih.isLinked hstart) hscope heval)

/-- The scopes that a history has led to, and what names mean in them. -/
structure IsLayered (store : Store) (log : List Change) : Prop where
  outer_lt : ∀ id outer, store.outer id = some outer → outer < id
  /-- A scope stays inside the scope that it was created in. -/
  outer_kept : ∀ more store', store.Evolves more store' →
    ∀ id < store.scopes.size, store'.outer id = store.outer id
  /-- From every scope the way outward ends. -/
  wellFounded : WellFounded fun outer inner => store.outer inner = some outer
  /-- A look-up goes on as long as there is a scope outside. -/
  lookup_eq : ∀ scope name, store.lookup scope name =
    (store.findLocal? scope name).or ((store.outer scope).bind (store.lookup · name))
  /-- A name means what was last written under it in the nearest scope ever given it. -/
  lookup_eq_some_iff : ∀ scope name value, store.lookup scope name = some value ↔
    ∃ holder, store.IsNearest (fun id => ∃ value, .write id name value ∈ log) scope holder ∧
      Change.IsLast log holder name value
  lookup_eq_none_iff : ∀ scope name, store.lookup scope name = none ↔
    ∀ id, store.Reaches scope id → ∀ value, .write id name value ∉ log
  /-- A write changes what its name means in its scope, and further in up to other bindings. -/
  lookup_set : ∀ scope name value start other,
    (store.set scope name value).lookup start other = store.lookup start other ∨
      other = name ∧ store.Sees name start scope ∧
        (store.set scope name value).lookup start other = some value

theorem isLinked_of_evolves (h : empty.Evolves log store) : store.IsLinked store.scopes.size :=
  (h.undergoes .empty).isLinked .empty

/-- Whatever is done with scopes, each lies in one created before it for good, and a name means what
was last written under it in the nearest scope along the way outward that was ever given it. -/
theorem Evolves.isLayered (h : empty.Evolves log store) : store.IsLayered log := by
  have hlinked := isLinked_of_evolves h
  have hundergoes := h.undergoes .empty
  have hbound (name : String) : (fun id => store.findLocal? id name ≠ none) =
      fun id => ∃ value, .write id name value ∈ log :=
    funext fun _ => propext hundergoes.findLocal?_ne_none_iff
  refine
    { outer_lt := hlinked.outer_lt
      outer_kept := fun more store' hmore id hid => (hmore.undergoes hlinked).outer_eq hid
      wellFounded := ?_
      lookup_eq := hlinked.lookup_eq
      lookup_eq_some_iff := fun scope name value => ?_
      lookup_eq_none_iff := fun scope name => ?_
      lookup_set := hlinked.lookup_set }
  · exact Subrelation.wf (fun {outer inner} houter => hlinked.outer_lt inner outer houter)
      Nat.lt_wfRel.wf
  · rw [hlinked.lookup_eq_some_iff, hbound]
    exact exists_congr fun holder => and_congr_right fun _ => hundergoes.findLocal?_eq_some_iff
  · rw [hlinked.lookup_eq_none_iff]
    refine forall_congr' fun id => imp_congr_right fun _ => ?_
    rw [← not_exists, ← hundergoes.findLocal?_ne_none_iff, not_ne_iff]

end Store

/-- `fn() { f }`, written at the top level. -/
def Closure.itself : Closure := ⟨0, [], [.expr (.name "f")], 0⟩

namespace Store

/-- After `let f = fn() { f };` at the top level and writes to it and to a scope inside it. -/
def looped : Store :=
  ⟨#[⟨[("f", .function .itself), ("x", .int 1)], none⟩, ⟨[("x", .int 2)], some 0⟩], 1⟩

def looping : List Change :=
  [.create none, .function, .write 0 "f" (.function .itself), .create (some 0),
    .write 1 "x" (.int 2), .write 0 "x" (.int 1)]

theorem evolves_looped : empty.Evolves looping looped := by
  have hnew : empty.Evolves [.create none] (empty.addScope none).2 := .new .refl
  have hbind : (Node.stmt (.bind "f" (.function [] [.expr (.name "f")]))).eval (applyWithin 0) 0
      (empty.addScope none).2 = some (.nil, ⟨#[⟨[("f", .function .itself)], none⟩], 1⟩) := rfl
  have hbound : empty.Evolves [.create none, .function, .write 0 "f" (.function .itself)]
      ⟨#[⟨[("f", .function .itself)], none⟩], 1⟩ := .eval hnew (by decide) hbind
  have hinner := hbound.enclose (show 0 < 1 by decide)
  have hshadowed : empty.Evolves (_ ++ [.write 1 "x" (.int 2)]) (set _ 1 "x" (.int 2)) :=
    .set hinner (by decide) trivial
  have hwritten : empty.Evolves (_ ++ [.write 0 "x" (.int 1)]) (set _ 0 "x" (.int 1)) :=
    .set hshadowed (by decide) trivial
  exact hwritten

/-- The way outward ends where a function is bound in the scope that it was written in. -/
theorem isLayered_looped : empty.Evolves looping looped ∧ looped.IsLayered looping :=
  ⟨evolves_looped, evolves_looped.isLayered⟩

end Store

end LetScript
