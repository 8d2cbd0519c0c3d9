import LetScript.Proofs.Evaluation.Parts

/-! What holds throughout an evaluation. A contract says what is true of the store, how
evaluating in a scope may change it, and which results there can be. Its laws are about
the steps that do something: looking up, applying an operator, making a function,
binding, and entering the scope of a call. Evaluation follows every contract. -/
namespace LetScript

/-- Claims about evaluation that its steps bear out. A world is what is known at one moment. -/
structure Contract where
  World : Type
  /-- The store is as the world has it. -/
  holds : World → Store → Prop
  /-- The scope may be evaluated in. -/
  inScope : World → ScopeId → Prop
  /-- Evaluating in the scope may lead from one world to the other. -/
  leads : ScopeId → World → World → Prop
  /-- The result that an expression or statement may have. -/
  outcome : World → Value → Prop
  /-- The result that a call may have. -/
  settled : World → Value → Prop
  leads_refl {scope w} : leads scope w w
  leads_trans {scope w₁ w₂ w₃} : leads scope w₁ w₂ → leads scope w₂ w₃ → leads scope w₁ w₃
  inScope_mono {scope w w' other} : leads scope w w' → inScope w other → inScope w' other
  /-- What is known of a value that computing goes on with stays true. -/
  outcome_mono {scope w w' value} : leads scope w w' → outcome w value → value.isAbrupt = false →
    outcome w' value
  outcome_of_settled {w value} : settled w value → outcome w value
  settled_arrived {w value} : outcome w value → settled w value.arrived
  returned {w value} : outcome w value → value.isAbrupt = false → outcome w (.returned value)
  int {w} (n : Int64) : outcome w (.int n)
  bool {w} (b : Bool) : outcome w (.bool b)
  nil {w} : outcome w .nil
  lookup {w store scope} (name : String) : holds w store → inScope w scope →
    outcome w ((store.lookup scope name).getD (.error (.identifierNotFound name)))
  unary {w value} (op : UnaryOp) : outcome w value → value.isAbrupt = false →
    outcome w (op.apply value)
  binary {w left right} (op : BinaryOp) : outcome w left → left.isAbrupt = false →
    outcome w right → right.isAbrupt = false → outcome w (op.apply left right)
  function {w store scope} (parameters : List String) (body : List Stmt) :
    holds w store → inScope w scope →
    ∃ w', leads scope w w' ∧ holds w' (store.addFunction parameters body scope).2 ∧
      outcome w' (.function (store.addFunction parameters body scope).1)
  bind {w store scope value} (name : String) : holds w store → inScope w scope →
    outcome w value → value.isAbrupt = false →
    ∃ w', leads scope w w' ∧ holds w' (store.define scope name value)
  /-- Whatever a call does in its own scope is open to the scope that it is made in. -/
  enter {w store} {f : Closure} {arguments : List Value} (scope : ScopeId) : holds w store →
    outcome w (.function f) → f.parameters.length = arguments.length →
    (∀ value ∈ arguments, outcome w value ∧ value.isAbrupt = false) →
    ∃ w', holds w' (store.enter f arguments) ∧ inScope w' store.scopes.size ∧
      ∀ w'', leads store.scopes.size w' w'' → leads scope w w''
  notAFunction {w callee} : outcome w callee → callee.isAbrupt = false →
    (∀ f, callee ≠ .function f) → settled w (.error (.notAFunction callee.typeName))
  wrongArgumentCount {w} {expected found : Nat} : expected ≠ found →
    settled w (.error (.wrongArgumentCount expected found))

namespace Contract

variable {α β : Type} (c : Contract)

/-- A value that computing goes on with. -/
def Admits (w : c.World) (value : Value) : Prop :=
  c.outcome w value ∧ value.isAbrupt = false

def ArgumentsOutcome (w : c.World) : Except Value (List Value) → Prop
  | .ok values => ∀ value ∈ values, c.Admits w value
  | .error value => c.outcome w value

/-- Evaluating in the scope, in the world `w`, is as the contract says and has a result with `post`
if it has one. -/
def Follows (scope : ScopeId) (w : c.World) (post : c.World → α → Prop) (eval : Eval α) : Prop :=
  ∀ store, c.holds w store → ∀ result store', eval store = some (result, store') →
    ∃ w', c.leads scope w w' ∧ c.holds w' store' ∧ post w' result

/-- Calls are as the contract says, from whatever scope they are made. -/
def Permits (call : Caller) : Prop :=
  ∀ scope w callee arguments, c.Admits w callee → (∀ value ∈ arguments, c.Admits w value) →
    c.Follows scope w c.settled (call callee arguments)

variable {c} {scope : ScopeId} {w : c.World}

theorem Admits.mono {w' : c.World} {value : Value} (hw : c.leads scope w w')
    (h : c.Admits w value) : c.Admits w' value :=
  ⟨c.outcome_mono hw h.1 h.2, h.2⟩

namespace Follows

variable {post : c.World → α → Prop} {post' : c.World → β → Prop} {eval : Eval α}

theorem pure {a : α} (h : post w a) : c.Follows scope w post (Pure.pure a) := by
  rintro store hstore _ _ ⟨⟩
  exact ⟨w, c.leads_refl, hstore, h⟩

theorem imp {post' : c.World → α → Prop} (h : c.Follows scope w post eval)
    (hpost : ∀ {w' a}, post w' a → post' w' a) : c.Follows scope w post' eval := by
  intro store hstore result store' heval
  obtain ⟨w', hw, hstore', ha⟩ := h store hstore result store' heval
  exact ⟨w', hw, hstore', hpost ha⟩

theorem bind {next : α → Eval β} (h : c.Follows scope w post eval)
    (hnext : ∀ w' a, c.leads scope w w' → post w' a → c.Follows scope w' post' (next a)) :
    c.Follows scope w post' (eval >>= next) := by
  intro store hstore result store'' hbind
  obtain ⟨⟨a, store'⟩, heval, hrest⟩ := Option.bind_eq_some_iff.mp hbind
  obtain ⟨w', hw, hstore', ha⟩ := h store hstore a store' heval
  obtain ⟨w'', hw', hstore'', hb⟩ := hnext w' a hw ha store' hstore' result store'' hrest
  exact ⟨w'', c.leads_trans hw hw', hstore'', hb⟩

theorem proceed {eval : Eval Value} {next : Value → Eval Value}
    (h : c.Follows scope w c.outcome eval)
    (hnext : ∀ w' value, c.leads scope w w' → c.Admits w' value →
      c.Follows scope w' c.outcome (next value)) :
    c.Follows scope w c.outcome (eval.proceed next) := by
  refine h.bind fun w' value hw hvalue => ?_
  split
  · exact pure hvalue
  · next habrupt => exact hnext w' value hw ⟨hvalue, by simpa using habrupt⟩

end Follows

mutual

theorem follows_expr {call : Caller} (hcall : c.Permits call) {scope : ScopeId} {w : c.World}
    (hscope : c.inScope w scope) : ∀ e : Expr, c.Follows scope w c.outcome (e.eval call scope)
  | .name name => by
    rintro store hstore _ _ ⟨⟩
    exact ⟨w, c.leads_refl, hstore, c.lookup name hstore hscope⟩
  | .int n => .pure (c.int n)
  | .bool b => .pure (c.bool b)
  | .unary op operand =>
    (follows_expr hcall hscope operand).proceed fun _ _ _ hvalue =>
      .pure (c.unary op hvalue.1 hvalue.2)
  | .binary op left right =>
    (follows_expr hcall hscope left).proceed fun w₁ _ hw hleft =>
      (follows_expr hcall (c.inScope_mono hw hscope) right).proceed fun w₂ _ hw' hright =>
        have hleft := hleft.mono hw'
        .pure (c.binary op hleft.1 hleft.2 hright.1 hright.2)
  | .ifElse condition consequence alternative =>
    (follows_expr hcall hscope condition).proceed fun w' value hw _ => by
      have hscope' := c.inScope_mono hw hscope
      split
      · exact follows_statements hcall hscope' c.nil consequence
      · exact follows_else hcall hscope' alternative
  | .function parameters body => by
    rintro store hstore _ _ ⟨⟩
    exact c.function parameters body hstore hscope
  | .call callee arguments =>
    (follows_expr hcall hscope callee).proceed fun w₁ value hw hcallee => by
      have harguments := follows_arguments hcall (c.inScope_mono hw hscope) arguments
      refine harguments.bind fun w₂ result hw' hresult => ?_
      cases result with
      | ok values =>
        exact (hcall scope w₂ value values (hcallee.mono hw') hresult).imp c.outcome_of_settled
      | error value => exact .pure hresult

theorem follows_stmt {call : Caller} (hcall : c.Permits call) {scope : ScopeId} {w : c.World}
    (hscope : c.inScope w scope) : ∀ s : Stmt, c.Follows scope w c.outcome (s.eval call scope)
  | .bind name value =>
    (follows_expr hcall hscope value).proceed fun w' value hw hvalue => by
      rintro store hstore _ _ ⟨⟩
      obtain ⟨w'', hw', hstore'⟩ :=
        c.bind name hstore (c.inScope_mono hw hscope) hvalue.1 hvalue.2
      exact ⟨w'', hw', hstore', c.nil⟩
  | .ret value =>
    (follows_expr hcall hscope value).proceed fun _ _ _ hvalue =>
      .pure (c.returned hvalue.1 hvalue.2)
  | .expr e => follows_expr hcall hscope e
  | .block ss => follows_statements hcall hscope c.nil ss

theorem follows_statements {call : Caller} (hcall : c.Permits call) {scope : ScopeId}
    {w : c.World} (hscope : c.inScope w scope) {last : Value} (hlast : c.outcome w last) :
    ∀ ss : List Stmt, c.Follows scope w c.outcome (evalStatements call scope last ss)
  | [] => .pure hlast
  | s :: ss =>
    (follows_stmt hcall hscope s).proceed fun _ _ hw hvalue =>
      follows_statements hcall (c.inScope_mono hw hscope) hvalue.1 ss

theorem follows_else {call : Caller} (hcall : c.Permits call) {scope : ScopeId} {w : c.World}
    (hscope : c.inScope w scope) : ∀ alternative : Option (List Stmt),
      c.Follows scope w c.outcome (evalElse call scope alternative)
  | none => .pure c.nil
  | some ss => follows_statements hcall hscope c.nil ss

theorem follows_arguments {call : Caller} (hcall : c.Permits call) {scope : ScopeId}
    {w : c.World} (hscope : c.inScope w scope) :
    ∀ es : List Expr, c.Follows scope w c.ArgumentsOutcome (evalArguments call scope es)
  | [] => .pure nofun
  | e :: es =>
    (follows_expr hcall hscope e).bind fun w₁ value hw hvalue => by
      split
      · exact .pure hvalue
      · next habrupt =>
        have hadmits : c.Admits w₁ value := ⟨hvalue, by simpa using habrupt⟩
        have hmore := follows_arguments hcall (c.inScope_mono hw hscope) es
        refine hmore.bind fun w₂ result hw' hresult => ?_
        cases result with
        | ok values => exact .pure (List.forall_mem_cons.mpr ⟨hadmits.mono hw', hresult⟩)
        | error value => exact .pure hresult

end

theorem permits_applyWithin (depth : Nat) : c.Permits (applyWithin depth) := by
  induction depth with
  | zero =>
    intro _ _ _ _ _ _ _ _ _ _ heval
    cases heval
  | succ depth ih =>
    intro scope w callee arguments hcallee harguments
    cases callee with
    | function f =>
      by_cases hlength : f.parameters.length = arguments.length
      · intro store hstore _ _ heval
        rw [applyWithin_function hlength] at heval
        obtain ⟨⟨value, store'⟩, hbody, ⟨⟩⟩ := Option.map_eq_some_iff.mp heval
        obtain ⟨w₁, hstore₁, hscope, hleads⟩ := c.enter scope hstore hcallee.1 hlength harguments
        obtain ⟨w₂, hw, hstore₂, hvalue⟩ :=
          follows_statements ih hscope c.nil f.body _ hstore₁ _ _ hbody
        exact ⟨w₂, hleads w₂ hw, hstore₂, c.settled_arrived hvalue⟩
      · rw [applyWithin, if_pos hlength]
        exact .pure (c.wrongArgumentCount hlength)
    | _ =>
      refine .pure (c.notAFunction hcallee.1 hcallee.2 ?_)
      rintro f ⟨⟩

end Contract

end LetScript
