import LetScript.Value

/-! Scopes and the names bound in them. A scope lies inside an older one or is at the
top level; a name means what the nearest scope that binds it says. Scopes stay for good,
since a function keeps the scope that it was written in. -/
namespace LetScript

structure Scope where
  /-- Each name once, in the order in which they were first bound. -/
  bindings : List (String × Value)
  outer : Option ScopeId
  deriving DecidableEq

namespace Scope

def find? (scope : Scope) (name : String) : Option Value :=
  scope.bindings.lookup name

/-- The bindings with `name` bound to `value`, in its old place if it had one. -/
def insert (name : String) (value : Value) : List (String × Value) → List (String × Value)
  | [] => [(name, value)]
  | (other, old) :: rest =>
    if other = name then (name, value) :: rest else (other, old) :: insert name value rest

def set (scope : Scope) (name : String) (value : Value) : Scope :=
  { scope with bindings := insert name value scope.bindings }

theorem lookup_insert (name other : String) (value : Value) (bindings : List (String × Value)) :
    (insert name value bindings).lookup other =
      if other = name then some value else bindings.lookup other := by
  induction bindings with
  | nil =>
    by_cases h : other = name
    · simp [insert, h]
    · simp [insert, List.lookup_cons, h, beq_false_of_ne h]
  | cons first rest ih =>
    obtain ⟨key, old⟩ := first
    by_cases h : other = key
    · by_cases h' : key = name <;> simp [insert, h, h']
    · by_cases h' : key = name
      · subst h'
        simp [insert, List.lookup_cons, h, beq_false_of_ne h]
      · simp [insert, List.lookup_cons, h', beq_false_of_ne h, ih]

theorem find?_set (scope : Scope) (name other : String) (value : Value) :
    (scope.set name value).find? other = if other = name then some value else scope.find? other :=
  lookup_insert name other value scope.bindings

end Scope

structure Store where
  scopes : Array Scope
  /-- How many functions there have been. -/
  functions : Nat
  deriving DecidableEq

namespace Store

def empty : Store := ⟨#[], 0⟩

/-- A new scope, without bindings. -/
def addScope (store : Store) (outer : Option ScopeId) : ScopeId × Store :=
  (store.scopes.size, { store with scopes := store.scopes.push ⟨[], outer⟩ })

/-- A new function, unlike any before it. -/
def addFunction (store : Store) (parameters : List String) (body : List Stmt) (scope : ScopeId) :
    Closure × Store :=
  (⟨store.functions, parameters, body, scope⟩, { store with functions := store.functions + 1 })

def outer (store : Store) (scope : ScopeId) : Option ScopeId :=
  store.scopes[scope]?.bind Scope.outer

/-- What a name is bound to in just this scope. -/
def findLocal? (store : Store) (scope : ScopeId) (name : String) : Option Value :=
  store.scopes[scope]?.bind (·.find? name)

/-- What a name means in a scope. The way outward leads to ever older scopes. -/
def lookup (store : Store) (scope : ScopeId) (name : String) : Option Value :=
  match store.findLocal? scope name with
  | some value => some value
  | none =>
    match store.outer scope with
    | some outer => if outer < scope then store.lookup outer name else none
    | none => none
termination_by scope

def set (store : Store) (scope : ScopeId) (name : String) (value : Value) : Store :=
  { store with scopes := store.scopes.modify scope (·.set name value) }

/-- Binds the names in order, so that the last of equal names counts. -/
def setAll (store : Store) (scope : ScopeId) (bindings : List (String × Value)) : Store :=
  bindings.foldl (fun store binding => store.set scope binding.1 binding.2) store

/-- Binds a name by a `let`. A function from another scope gets the name there too, where it is
free, so that its body can call it by that name. -/
def define (store : Store) (scope : ScopeId) (name : String) (value : Value) : Store :=
  let store :=
    match value with
    | .function f =>
      if f.scope ≠ scope ∧ (store.findLocal? f.scope name).isNone then
        store.set f.scope name value
      else store
    | _ => store
  store.set scope name value

end Store

end LetScript
