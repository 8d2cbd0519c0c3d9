import LetScript.Proofs.Evaluation.Continuation
import LetScript.Proofs.Evaluation.Lockstep
import LetScript.Proofs.Evaluation.Plain

/-! Evaluation depends on no name that does not occur in code. A name that is neither in the
program nor in a function that the program could come to call is never looked up, never
bound and never asked for, so that it makes no difference what is bound to it. -/
namespace LetScript

/-! ### Names in code -/

mutual

/-- Every name that occurs, as itself, in a `let` or as a parameter. -/
def Expr.names : Expr → List String
  | .name name => [name]
  | .int _ => []
  | .bool _ => []
  | .unary _ operand => operand.names
  | .binary _ left right => left.names ++ right.names
  | .ifElse condition consequence alternative =>
    condition.names ++ namesOfStatements consequence ++ namesOfElse alternative
  | .function parameters body => parameters ++ namesOfStatements body
  | .call callee arguments => callee.names ++ namesOfEach arguments
termination_by structural expr => expr

def Stmt.names : Stmt → List String
  | .bind name value => name :: value.names
  | .ret value => value.names
  | .expr expr => expr.names
  | .block statements => namesOfStatements statements
termination_by structural stmt => stmt

def namesOfStatements : List Stmt → List String
  | [] => []
  | stmt :: rest => stmt.names ++ namesOfStatements rest
termination_by structural statements => statements

def namesOfElse : Option (List Stmt) → List String
  | none => []
  | some statements => namesOfStatements statements
termination_by structural alternative => alternative

def namesOfEach : List Expr → List String
  | [] => []
  | expr :: rest => expr.names ++ namesOfEach rest
termination_by structural exprs => exprs

end

def Closure.names (f : Closure) : List String :=
  f.parameters ++ namesOfStatements f.body

def Program.names (program : Program) : List String :=
  namesOfStatements program.statements

/-- Code in which the name does not occur. -/
def CodeProperty.without (x : String) : CodeProperty where
  expr e := x ∉ e.names
  stmt s := x ∉ s.names
  statements ss := x ∉ namesOfStatements ss
  alternative a := x ∉ namesOfElse a
  exprs es := x ∉ namesOfEach es
  of_unary h := h
  of_binary h := by simpa [Expr.names] using h
  of_ifElse h := by simpa [Expr.names] using h
  of_function h := fun hbody => h (List.mem_append_right _ hbody)
  of_call h := by simpa [Expr.names] using h
  of_bind h := fun hvalue => h (List.mem_cons_of_mem _ hvalue)
  of_ret h := h
  of_expr h := h
  of_block h := h
  of_cons h := by simpa [namesOfStatements] using h
  of_some h := h
  of_argument h := by simpa [namesOfEach] using h

/-! ### Stores that differ in one name -/

namespace Store

/-- The same scopes and functions, with the same bindings of all names but `x`. -/
structure SameExcept (x : String) (s t : Store) : Prop where
  functions : s.functions = t.functions
  size : s.scopes.size = t.scopes.size
  outer : ∀ id, s.outer id = t.outer id
  bound : ∀ id name, name ≠ x → s.findLocal? id name = t.findLocal? id name

/-- Binding `x` itself is such a difference. -/
theorem sameExcept_set (s : Store) (scope : ScopeId) (x : String) (value : Value) :
    SameExcept x (s.set scope x value) s where
  functions := rfl
  size := size_set
  outer _ := outer_set
  bound id name hname := by rw [findLocal?_set, if_neg fun h => hname h.2.2]

namespace SameExcept

variable {x name : String} {s t : Store} {value : Value}

theorem set (h : SameExcept x s t) (scope : ScopeId) (name : String) (value : Value) :
    SameExcept x (s.set scope name value) (t.set scope name value) where
  functions := h.functions
  size := by rw [size_set, size_set, h.size]
  outer id := by rw [outer_set, outer_set, h.outer]
  bound id other hother := by rw [findLocal?_set, findLocal?_set, h.size, h.bound id other hother]

theorem setAll (h : SameExcept x s t) (scope : ScopeId) (bindings : List (String × Value)) :
    SameExcept x (s.setAll scope bindings) (t.setAll scope bindings) := by
  induction bindings generalizing s t with
  | nil => exact h
  | cons first rest ih => exact ih (h.set scope first.1 first.2)

/-- Whether a function gets its name in its own scope too is not up to the bindings of `x`. -/
theorem define (h : SameExcept x s t) (hname : name ≠ x) (scope : ScopeId) (value : Value) :
    SameExcept x (s.define scope name value) (t.define scope name value) := by
  unfold Store.define
  cases value with
  | function f =>
    simp only [h.bound f.scope name hname]
    split
    · exact (h.set f.scope name _).set scope name _
    · exact h.set scope name _
  | int | bool | nil | returned | error => exact h.set scope name _

theorem addScope (h : SameExcept x s t) (enclosing : Option ScopeId) :
    SameExcept x (s.addScope enclosing).2 (t.addScope enclosing).2 where
  functions := h.functions
  size := by simp [Store.addScope, h.size]
  outer id := by rw [outer_addScope, outer_addScope, h.size, h.outer]
  bound id name hname := by rw [findLocal?_addScope, findLocal?_addScope, h.bound id name hname]

theorem addFunction (h : SameExcept x s t) (parameters : List String) (body : List Stmt)
    (scope : ScopeId) : SameExcept x (s.addFunction parameters body scope).2
      (t.addFunction parameters body scope).2 where
  functions := congrArg (· + 1) h.functions
  size := h.size
  outer := h.outer
  bound := h.bound

theorem enter (h : SameExcept x s t) (f : Closure) (arguments : List Value) :
    SameExcept x (s.enter f arguments) (t.enter f arguments) := by
  unfold Store.enter
  rw [h.size]
  exact (h.addScope (some f.scope)).setAll _ _

theorem lookup (h : SameExcept x s t) (hname : name ≠ x) (scope : ScopeId) :
    s.lookup scope name = t.lookup scope name := by
  rw [Store.lookup.eq_def s, Store.lookup.eq_def t, h.bound scope name hname, h.outer scope]
  cases t.findLocal? scope name with
  | some value => rfl
  | none =>
    cases t.outer scope with
    | none => rfl
    | some outer =>
      by_cases hlt : outer < scope
      · simp only [hlt, if_true]
        exact lookup h hname outer
      · simp only [hlt, if_false]
termination_by scope

end SameExcept

/-- Functions in which `x` occurs are bound to `x` alone. -/
def Hides (x : String) : Store → Prop :=
  Binds fun name value => name ≠ x → (CodeProperty.without x).InValue value

end Store

/-- Runs that differ in what is bound to `x`. -/
def Lockstep.except (x : String) : Lockstep where
  code := .without x
  related s t := s.SameExcept x t ∧ s.Hides x
  lookup scope h hname := by
    have hne := Ne.symm (List.ne_of_not_mem_cons hname)
    exact ⟨h.1.lookup hne scope, fun value hvalue => h.2.lookup hvalue hne⟩
  functions h := h.1.functions
  addFunction parameters body scope h := ⟨h.1.addFunction parameters body scope, h.2⟩
  define scope h hbind hvalue :=
    have hne := Ne.symm (List.ne_of_not_mem_cons hbind)
    ⟨h.1.define hne scope _, h.2.define scope fun _ => hvalue⟩
  size h := h.1.size
  enter h _ harguments :=
    ⟨h.1.enter _ _, h.2.enter _ fun value hvalue _ _ => harguments value hvalue⟩

namespace Interpreter

theorem hides_of_reachable {i : Interpreter} (h : i.Reachable) {x : String}
    (hbound : ∀ id name f, name ≠ x → i.store.findLocal? id name = some (.function f) →
      x ∉ f.names) : i.store.Hides x := by
  intro id name value hfound hname
  have hplain := (isPlain_of_reachable h).binds id name value hfound
  cases value with
  | function f => exact hbound id name f hname hfound
  | int | bool | nil => trivial
  | returned | error => cases hplain

/-- Binding a name at the top level makes no difference to a program, as long as the name occurs
neither in the program nor in a function that is bound to another name: with the binding or without
it the program has a result or has none, and the result is the same value, and the same is bound to
all other names. -/
theorem eval_set_unused {i : Interpreter} (h : i.Reachable) {x : String} {p : Program}
    (hp : x ∉ p.names) (hbound : ∀ id name f, name ≠ x →
      i.store.findLocal? id name = some (.function f) → x ∉ f.names) (value : Value) (depth : Nat) :
    let bound : Interpreter := { i with store := i.store.set i.scope x value }
    (bound.eval depth p = none ↔ i.eval depth p = none) ∧
    ∀ result after result' after', bound.eval depth p = some (result, after) →
      i.eval depth p = some (result', after') →
      result = result' ∧ after.scope = after'.scope ∧ after.store.SameExcept x after'.store := by
  intro bound
  have hhides : bound.store.Hides x :=
    (hides_of_reachable h hbound).set i.scope fun hne => absurd rfl hne
  have hsame : bound.store.SameExcept x i.store := Store.sameExcept_set i.store i.scope x value
  have hfollows : (Lockstep.except x).Follows (CodeProperty.without x).InValue
      (evalStatements (applyWithin depth) i.scope .nil p.statements) :=
    Lockstep.follows_statements ((Lockstep.except x).permits_applyWithin depth)
      CodeProperty.inValue_nil p.statements hp
  have halike : Option.Rel (fun r r' => r.1 = r'.1 ∧ r.2.scope = r'.2.scope ∧
      r.2.store.SameExcept x r'.2.store) (bound.eval depth p) (i.eval depth p) := by
    rw [eval_eq_map, eval_eq_map, Option.map_eq_bind, Option.map_eq_bind]
    refine Lockstep.rel_bind (hfollows _ _ ⟨hsame, hhides⟩) ?_
    rintro ⟨result, store⟩ ⟨_, store'⟩ ⟨rfl, -, hstores, -⟩
    exact .some ⟨rfl, rfl, hstores⟩
  generalize bound.eval depth p = r at halike
  generalize i.eval depth p = r' at halike
  cases halike with
  | none => exact ⟨Iff.rfl, nofun⟩
  | some h =>
    refine ⟨by simp, ?_⟩
    rintro _ _ _ _ ⟨⟩ ⟨⟩
    exact h

/-- Binds a name and calls a function that was there before. -/
def callsReader : Program :=
  ⟨[.bind "z" (.name "f"), .expr (.call (.name "f") [])]⟩

/-- What `h` is bound to makes no difference to `let z = f; f();`. -/
theorem eval_set_unused_beforeAlias :
    (∀ id name f, name ≠ "h" → Store.beforeAlias.findLocal? id name = some (.function f) →
      "h" ∉ f.names) ∧
    ∃ after after', eval 1 ⟨Store.beforeAlias.set 0 "h" (.int 3), 0⟩ callsReader =
        some (.int 1, after) ∧
      eval 1 ⟨.beforeAlias, 0⟩ callsReader = some (.int 1, after') ∧
      after.lookup "h" = some (.int 3) ∧ after'.lookup "h" = some (.function .aliaser) ∧
      after.store.SameExcept "h" after'.store := by
  have hbound : ∀ id name f, name ≠ "h" →
      Store.beforeAlias.findLocal? id name = some (.function f) → "h" ∉ f.names := by
    intro id name f hname hfound
    obtain ⟨scope, hscope, hmem⟩ := Store.exists_mem_of_findLocal? hfound
    have hreader : f = .reader := by
      simp only [Store.beforeAlias, List.mem_toArray, List.mem_cons, List.not_mem_nil,
        or_false] at hscope
      obtain rfl | rfl := hscope <;> simp_all
    subst hreader
    decide
  have hvalues : (eval 1 ⟨Store.beforeAlias.set 0 "h" (.int 3), 0⟩ callsReader).map
        (fun r => (r.1, r.2.lookup "h")) = some (.int 1, some (.int 3)) ∧
      (eval 1 ⟨.beforeAlias, 0⟩ callsReader).map (fun r => (r.1, r.2.lookup "h")) =
        some (.int 1, some (.function .aliaser)) := by
    decide +kernel
  obtain ⟨⟨_, after⟩, heval, hafter⟩ := Option.map_eq_some_iff.mp hvalues.1
  obtain ⟨⟨_, after'⟩, heval', hafter'⟩ := Option.map_eq_some_iff.mp hvalues.2
  obtain ⟨rfl, hlookup⟩ := Prod.mk.inj hafter
  obtain ⟨rfl, hlookup'⟩ := Prod.mk.inj hafter'
  have hunused := eval_set_unused reachable_beforeAlias (by decide : "h" ∉ callsReader.names) hbound
    (.int 3) 1
  exact ⟨hbound, after, after', heval, heval', hlookup, hlookup',
    (hunused.2 _ _ _ _ heval heval').2.2⟩

end Interpreter

end LetScript
