import LetScript.Proofs.Evaluation.Links

/-! The changes that an evaluation makes, one after the other: new scopes, writes to scopes,
new functions. They are read off the code along the way that the evaluation takes through
it, and making them in order leads to the store that the evaluation leads to. -/
namespace LetScript

inductive Change where
  /-- A new scope, inside the given one or at the top level. -/
  | create (outer : Option ScopeId)
  | write (scope : ScopeId) (name : String) (value : Value)
  | function
  deriving DecidableEq

namespace Change

def apply (store : Store) : Change → Store
  | create outer => (store.addScope outer).2
  | write scope name value => store.set scope name value
  | function => { store with functions := store.functions + 1 }

/-- The scopes that the change has to do with have been created. -/
def IsPossible (store : Store) : Change → Prop
  | create outer => ∀ id, outer = some id → id < store.scopes.size
  | write scope _ value => scope < store.scopes.size ∧ value.IsFrom store.scopes.size
  | function => True

end Change

/-- The changes, made in order, lead from the first store to the other. -/
inductive Store.Undergoes (start : Store) : List Change → Store → Prop where
  | refl : Undergoes start [] start
  | step {log store change} (h : Undergoes start log store) (hchange : change.IsPossible store) :
      Undergoes start (log ++ [change]) (change.apply store)

namespace Store

variable {store store' store'' : Store} {log more : List Change} {scope : ScopeId} {name : String}
  {value : Value}

theorem Undergoes.trans (h : store.Undergoes log store') (h' : store'.Undergoes more store'') :
    store.Undergoes (log ++ more) store'' := by
  induction h' with
  | refl => exact (List.append_nil log).symm ▸ h
  | step _ hchange ih => exact List.append_assoc log _ _ ▸ ih.step hchange

theorem Undergoes.single {c : Change} (h : c.IsPossible store) :
    store.Undergoes [c] (c.apply store) :=
  .step .refl h

theorem undergoes_create {outer : Option ScopeId}
    (houter : ∀ id, outer = some id → id < store.scopes.size) :
    store.Undergoes [.create outer] (store.addScope outer).2 :=
  Undergoes.single (c := .create outer) houter

theorem undergoes_write (hscope : scope < store.scopes.size)
    (hvalue : value.IsFrom store.scopes.size) :
    store.Undergoes [.write scope name value] (store.set scope name value) :=
  Undergoes.single (c := .write scope name value) ⟨hscope, hvalue⟩

theorem undergoes_function :
    store.Undergoes [.function] { store with functions := store.functions + 1 } :=
  Undergoes.single (c := .function) trivial

/-- The writes of a `let`. -/
def defining (store : Store) (scope : ScopeId) (name : String) (value : Value) : List Change :=
  let own :=
    match value with
    | .function f =>
      if f.scope ≠ scope ∧ (store.findLocal? f.scope name).isNone then
        [.write f.scope name value]
      else []
    | _ => []
  own ++ [.write scope name value]

/-- The changes that precede the body of a function that is called. -/
def entering (store : Store) (f : Closure) (arguments : List Value) : List Change :=
  .create (some f.scope) ::
    (f.parameters.zip arguments).map fun binding => .write store.scopes.size binding.1 binding.2

theorem undergoes_defining (hscope : scope < store.scopes.size)
    (hvalue : value.IsFrom store.scopes.size) :
    store.Undergoes (store.defining scope name value) (store.define scope name value) := by
  unfold defining define
  cases value with
  | function f =>
    dsimp only
    split
    · exact (undergoes_write hvalue hvalue).trans
        (undergoes_write (size_set.symm ▸ hscope) (size_set.symm ▸ hvalue))
    · exact undergoes_write hscope hvalue
  | int | bool | nil | returned | error => exact undergoes_write hscope hvalue

theorem undergoes_writes {bindings : List (String × Value)} (hscope : scope < store.scopes.size)
    (hbindings : ∀ binding ∈ bindings, binding.2.IsFrom store.scopes.size) :
    store.Undergoes (bindings.map fun binding => .write scope binding.1 binding.2)
      (store.setAll scope bindings) := by
  induction bindings generalizing store with
  | nil => exact .refl
  | cons first rest ih =>
    obtain ⟨hfirst, hrest⟩ := List.forall_mem_cons.mp hbindings
    exact (undergoes_write hscope hfirst).trans
      (ih (size_set.symm ▸ hscope) (size_set.symm ▸ hrest))

theorem undergoes_entering {f : Closure} {arguments : List Value} (hf : f.scope < store.scopes.size)
    (harguments : ∀ value ∈ arguments, value.IsFrom store.scopes.size) :
    store.Undergoes (store.entering f arguments) (store.enter f arguments) := by
  refine (undergoes_create fun _ houter => Option.some.inj houter ▸ hf).trans
    (undergoes_writes ?_ fun binding hbinding => ?_)
  · rw [size_addScope]
    exact Nat.lt_succ_self _
  · rw [size_addScope]
    exact (harguments _ (List.of_mem_zip hbinding).2).mono (Nat.le_succ _)

end Store

/-! ### Trails -/

/-- The changes that an evaluation makes, given the store at its start. -/
abbrev Trail := Store → List Change

namespace Trail

variable {α : Type}

def still : Trail := fun _ => []

/-- First the changes of the evaluation, then those of what goes on from its result. -/
def andThen (trail : Trail) (eval : Eval α) (next : α → Trail) : Trail := fun store =>
  trail store ++
    match eval store with
    | some (a, store) => next a store
    | none => []

def proceed (trail : Trail) (eval : Eval Value) (next : Value → Trail) : Trail :=
  trail.andThen eval fun value => if value.isAbrupt then still else next value

end Trail

mutual

def Expr.trail (call : Caller) (called : Value → List Value → Trail) (scope : ScopeId) :
    Expr → Trail
  | .name _ | .int _ | .bool _ => .still
  | .unary _ operand => operand.trail call called scope
  | .binary _ left right =>
    (left.trail call called scope).proceed (left.eval call scope) fun _ =>
      right.trail call called scope
  | .ifElse condition consequence alternative =>
    (condition.trail call called scope).proceed (condition.eval call scope) fun condition =>
      if condition.isTruthy then statementsTrail call called scope consequence
      else elseTrail call called scope alternative
  | .function _ _ => fun _ => [.function]
  | .call callee arguments =>
    (callee.trail call called scope).proceed (callee.eval call scope) fun callee =>
      (argumentsTrail call called scope arguments).andThen (evalArguments call scope arguments) fun
        | .ok arguments => called callee arguments
        | .error _ => .still
termination_by structural expr => expr

def Stmt.trail (call : Caller) (called : Value → List Value → Trail) (scope : ScopeId) :
    Stmt → Trail
  | .bind name value =>
    (value.trail call called scope).proceed (value.eval call scope) fun value store =>
      store.defining scope name value
  | .ret value => value.trail call called scope
  | .expr expr => expr.trail call called scope
  | .block statements => statementsTrail call called scope statements
termination_by structural stmt => stmt

def statementsTrail (call : Caller) (called : Value → List Value → Trail) (scope : ScopeId) :
    List Stmt → Trail
  | [] => .still
  | stmt :: rest =>
    (stmt.trail call called scope).proceed (stmt.eval call scope) fun _ =>
      statementsTrail call called scope rest
termination_by structural statements => statements

def elseTrail (call : Caller) (called : Value → List Value → Trail) (scope : ScopeId) :
    Option (List Stmt) → Trail
  | none => .still
  | some statements => statementsTrail call called scope statements
termination_by structural alternative => alternative

def argumentsTrail (call : Caller) (called : Value → List Value → Trail) (scope : ScopeId) :
    List Expr → Trail
  | [] => .still
  | argument :: rest =>
    (argument.trail call called scope).proceed (argument.eval call scope) fun _ =>
      argumentsTrail call called scope rest
termination_by structural arguments => arguments

end

/-- The changes of a call, with calls nested at most `depth` deep. -/
def trailWithin : Nat → Value → List Value → Trail
  | depth + 1, .function f, arguments => fun store =>
    if f.parameters.length = arguments.length then
      store.entering f arguments ++
        statementsTrail (applyWithin depth) (trailWithin depth) store.scopes.size f.body
          (store.enter f arguments)
    else []
  | _, _, _ => .still

/-! ### What the changes lead to -/

/-- Wherever the evaluation has a result, the changes lead to its store. -/
def Trail.Tracks {α : Type} (roots count : Nat) (trail : Trail) (eval : Eval α) : Prop :=
  ∀ store, (Contract.linked roots).holds count store →
    ∀ a store', eval store = some (a, store') → store.Undergoes (trail store) store'

namespace Trail.Tracks

variable {α β : Type} {roots count : Nat} {scope : ScopeId} {trail : Trail}

theorem still (a : α) : Trail.still.Tracks roots count (pure a) := by
  rintro store - _ _ ⟨⟩
  exact .refl

theorem andThen {eval : Eval α} {next : α → Eval β} {more : α → Trail} {post : Nat → α → Prop}
    (h : trail.Tracks roots count eval)
    (hfollows : (Contract.linked roots).Follows scope count post eval)
    (hnext : ∀ count' a, count ≤ count' → post count' a →
      (more a).Tracks roots count' (next a)) :
    (trail.andThen eval more).Tracks roots count (eval >>= next) := by
  intro store hstore b store'' hbind
  obtain ⟨a, store', heval, hrest⟩ := Eval.bind_eq_some_iff.mp hbind
  obtain ⟨count', hle, hstore', ha⟩ := hfollows store hstore a store' heval
  have hmore := hnext count' a hle ha store' hstore' b store'' hrest
  unfold Trail.andThen
  rw [heval]
  exact (h store hstore a store' heval).trans hmore

theorem proceed {eval : Eval Value} {next : Value → Eval Value} {more : Value → Trail}
    (h : trail.Tracks roots count eval)
    (hfollows : (Contract.linked roots).Follows scope count (Contract.linked roots).outcome eval)
    (hnext : ∀ count' value, count ≤ count' → (Contract.linked roots).Admits count' value →
      (more value).Tracks roots count' (next value)) :
    (trail.proceed eval more).Tracks roots count (eval.proceed next) := by
  refine h.andThen hfollows fun count' value hle hvalue => ?_
  cases habrupt : value.isAbrupt with
  | true => exact still value
  | false => exact hnext count' value hle ⟨hvalue, habrupt⟩

/-- What only computes a value at the end makes no more changes. -/
theorem value {eval : Eval Value} {f : Value → Value} (h : trail.Tracks roots count eval) :
    trail.Tracks roots count (eval.proceed fun value => return f value) := by
  intro store hstore _ store' heval
  obtain ⟨first, store₁, hfirst, hrest⟩ := Eval.bind_eq_some_iff.mp heval
  have hsame : store' = store₁ := by
    split at hrest <;> cases hrest <;> rfl
  exact hsame ▸ h store hstore first store₁ hfirst

end Trail.Tracks

section

variable {roots : Nat} {call : Caller} {called : Value → List Value → Trail}

/-- The changes of calls are known. -/
def Caller.Tracked (roots : Nat) (called : Value → List Value → Trail) (call : Caller) : Prop :=
  ∀ count callee arguments, (Contract.linked roots).Admits count callee →
    (∀ value ∈ arguments, (Contract.linked roots).Admits count value) →
      (called callee arguments).Tracks roots count (call callee arguments)

mutual

theorem Expr.tracks_trail (hcall : (Contract.linked roots).Permits call)
    (hcalled : call.Tracked roots called) {scope : ScopeId} {count : Nat} (hscope : scope < count) :
    ∀ e : Expr, (e.trail call called scope).Tracks roots count (e.eval call scope)
  | .name name => by
    rintro store - _ _ ⟨⟩
    exact .refl
  | .int n => .still (Value.int n)
  | .bool b => .still (Value.bool b)
  | .unary op operand => (operand.tracks_trail hcall hcalled hscope).value
  | .binary op left right =>
    (left.tracks_trail hcall hcalled hscope).proceed
      (Contract.follows_expr hcall hscope left) fun _ _ hle _ =>
        (right.tracks_trail hcall hcalled (Nat.lt_of_lt_of_le hscope hle)).value
  | .ifElse condition consequence alternative =>
    (condition.tracks_trail hcall hcalled hscope).proceed
      (Contract.follows_expr hcall hscope condition) fun _ value hle _ => by
        have hscope' := Nat.lt_of_lt_of_le hscope hle
        cases value.isTruthy with
        | true => exact tracks_statementsTrail hcall hcalled hscope' consequence
        | false => exact tracks_elseTrail hcall hcalled hscope' alternative
  | .function parameters body => by
    rintro store - _ _ ⟨⟩
    exact Store.undergoes_function
  | .call callee arguments =>
    (callee.tracks_trail hcall hcalled hscope).proceed
      (Contract.follows_expr hcall hscope callee) fun _ callee hle hcallee => by
        have hscope' := Nat.lt_of_lt_of_le hscope hle
        refine (tracks_argumentsTrail hcall hcalled hscope' arguments).andThen
          (Contract.follows_arguments hcall hscope' arguments) fun _ result hle' hresult => ?_
        cases result with
        | ok values => exact hcalled _ callee values ⟨hcallee.1.mono hle', hcallee.2⟩ hresult
        | error value => exact .still value

theorem Stmt.tracks_trail (hcall : (Contract.linked roots).Permits call)
    (hcalled : call.Tracked roots called) {scope : ScopeId} {count : Nat} (hscope : scope < count) :
    ∀ s : Stmt, (s.trail call called scope).Tracks roots count (s.eval call scope)
  | .bind name value =>
    (value.tracks_trail hcall hcalled hscope).proceed
      (Contract.follows_expr hcall hscope value) fun _ value hle hvalue => by
        rintro store ⟨rfl, -⟩ _ _ ⟨⟩
        exact Store.undergoes_defining (Nat.lt_of_lt_of_le hscope hle) hvalue.1
  | .ret value => (value.tracks_trail hcall hcalled hscope).value
  | .expr e => e.tracks_trail hcall hcalled hscope
  | .block ss => tracks_statementsTrail hcall hcalled hscope ss

theorem tracks_statementsTrail (hcall : (Contract.linked roots).Permits call)
    (hcalled : call.Tracked roots called) {scope : ScopeId} {count : Nat} (hscope : scope < count)
    {last : Value} : ∀ ss : List Stmt,
      (statementsTrail call called scope ss).Tracks roots count (evalStatements call scope last ss)
  | [] => .still last
  | s :: ss =>
    (s.tracks_trail hcall hcalled hscope).proceed
      (Contract.follows_stmt hcall hscope s) fun _ _ hle _ =>
        tracks_statementsTrail hcall hcalled (Nat.lt_of_lt_of_le hscope hle) ss

theorem tracks_elseTrail (hcall : (Contract.linked roots).Permits call)
    (hcalled : call.Tracked roots called) {scope : ScopeId} {count : Nat} (hscope : scope < count) :
    ∀ alternative : Option (List Stmt),
      (elseTrail call called scope alternative).Tracks roots count (evalElse call scope alternative)
  | none => .still Value.nil
  | some ss => tracks_statementsTrail hcall hcalled hscope ss

theorem tracks_argumentsTrail (hcall : (Contract.linked roots).Permits call)
    (hcalled : call.Tracked roots called) {scope : ScopeId} {count : Nat} (hscope : scope < count) :
    ∀ es : List Expr,
      (argumentsTrail call called scope es).Tracks roots count (evalArguments call scope es)
  | [] => .still (Except.ok [])
  | e :: es => by
    refine (e.tracks_trail hcall hcalled hscope).andThen
      (Contract.follows_expr hcall hscope e) fun _ value hle _ => ?_
    cases habrupt : value.isAbrupt with
    | true => exact .still (Except.error value)
    | false =>
      have hrest := tracks_argumentsTrail hcall hcalled (Nat.lt_of_lt_of_le hscope hle) es
      intro store hstore _ store'' heval
      obtain ⟨result, store', hresult, hmore⟩ := Eval.bind_eq_some_iff.mp heval
      -- to put the value before the others changes nothing
      have hsame : store'' = store' := by
        cases result <;> cases hmore <;> rfl
      exact hsame ▸ hrest store hstore result store' hresult

end

theorem tracked_applyWithin (roots depth : Nat) :
    Caller.Tracked roots (trailWithin depth) (applyWithin depth) := by
  induction depth with
  | zero =>
    intro _ _ _ _ _ _ _ _ _ heval
    cases heval
  | succ depth ih =>
    intro count callee arguments hcallee harguments
    cases callee with
    | function f =>
      rintro store ⟨rfl, hlinked⟩ _ _ heval
      by_cases hlength : f.parameters.length = arguments.length
      · rw [applyWithin_function hlength] at heval
        obtain ⟨⟨value, store'⟩, hbody, ⟨⟩⟩ := Option.map_eq_some_iff.mp heval
        have hentering : store.Undergoes (store.entering f arguments) (store.enter f arguments) :=
          Store.undergoes_entering hcallee.1 fun value hvalue => (harguments value hvalue).1
        have henter : (store.enter f arguments).IsLinked roots :=
          hlinked.enter hcallee.1 fun value hvalue => (harguments value hvalue).1
        unfold trailWithin
        rw [if_pos hlength]
        refine hentering.trans (tracks_statementsTrail ?_ ih (Nat.lt_succ_self _) f.body _
          ⟨Store.size_enter f arguments, henter⟩ _ _ hbody)
        exact (Contract.linked roots).permits_applyWithin depth
      · rw [applyWithin, if_pos hlength] at heval
        cases heval
        unfold trailWithin
        rw [if_neg hlength]
        exact .refl
    | _ => exact .still _

end

end LetScript
