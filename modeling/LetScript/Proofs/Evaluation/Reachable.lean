import LetScript.Interpreter
import LetScript.Proofs.Evaluation.Contract
import Mathlib.Logic.Relation

/-! What takes place in a session: the interpreters that runs lead to, and the evaluations
that a run consists of. A run that nests calls too deeply has no result, but what it
evaluates before that takes place all the same. -/
namespace LetScript

inductive Interpreter.Reachable : Interpreter → Prop where
  | new : Reachable .new
  | run {i i' : Interpreter} {depth : Nat} {text : String} {result} (h : Reachable i)
      (hrun : i.run depth text = some (result, i')) : Reachable i'

/-- The evaluation is a part, direct or not, of running the text. -/
def Interpreter.Performs (i : Interpreter) (depth : Nat) (text : String) (a : Activity) : Prop :=
  ∃ program, Program.parse text = .ok program ∧
    Relation.ReflTransGen Activity.Starts ⟨depth, i.scope, .block program.statements, i.store⟩ a

theorem Interpreter.run_eq_some_ok {i i' : Interpreter} {depth : Nat} {text : String}
    {result : Value} (h : i.run depth text = some (.ok result, i')) :
    ∃ program value, Program.parse text = .ok program ∧ result = value.arrived ∧
      evalStatements (applyWithin depth) i.scope .nil program.statements i.store =
        some (value, i'.store) ∧ i'.scope = i.scope := by
  unfold run at h
  split at h
  · next program hparse =>
    obtain ⟨⟨_, _⟩, heval, ⟨⟩⟩ := Option.map_eq_some_iff.mp h
    obtain ⟨⟨_, _⟩, hprogram, ⟨⟩⟩ := Option.map_eq_some_iff.mp heval
    obtain ⟨⟨value, store⟩, hstatements, ⟨⟩⟩ := Option.bind_eq_some_iff.mp hprogram
    exact ⟨program, value, hparse, rfl, hstatements, rfl⟩
  · cases h

theorem Interpreter.run_eq_some_error {i i' : Interpreter} {depth : Nat} {text : String}
    {diagnostics : List Diagnostic} (h : i.run depth text = some (.error diagnostics, i')) :
    i' = i := by
  unfold run at h
  split at h
  · obtain ⟨⟨_, _⟩, heval, ⟨⟩⟩ := Option.map_eq_some_iff.mp h
  · cases h
    rfl

namespace Contract

variable (c : Contract)

def AdmitsTask (w : c.World) : Task → Prop
  | .call callee arguments => c.Admits w callee ∧ ∀ value ∈ arguments, c.Admits w value
  | _ => True

def TaskOutcome (w : c.World) : Task → Value → Prop
  | .call _ _ => c.settled w
  | _ => c.outcome w

/-- The evaluation starts as the contract wants it. -/
structure Covers (w : c.World) (a : Activity) : Prop where
  holds : c.holds w a.store
  inScope : c.inScope w a.scope
  admits : c.AdmitsTask w a.task

variable {c} {w : c.World} {a b : Activity}

theorem Covers.eval (h : c.Covers w a) {value : Value} {store : Store}
    (heval : a.eval = some (value, store)) :
    ∃ w', c.leads a.scope w w' ∧ c.holds w' store ∧ c.TaskOutcome w' a.task value := by
  obtain ⟨depth, scope, task, store⟩ := a
  have hcall := c.permits_applyWithin depth
  cases task with
  | expr e => exact follows_expr hcall h.inScope e _ h.holds _ _ heval
  | stmt s => exact follows_stmt hcall h.inScope s _ h.holds _ _ heval
  | block ss => exact follows_statements hcall h.inScope c.nil ss _ h.holds _ _ heval
  | call callee arguments =>
    exact hcall scope w callee arguments h.admits.1 h.admits.2 _ h.holds _ _ heval

theorem Covers.starts (h : c.Covers w a) (hs : a.Starts b) : ∃ w', c.Covers w' b := by
  have hcall := c.permits_applyWithin a.depth
  obtain ⟨hstore, hscope, htask⟩ := h
  cases hs with
  | operand | left | condition | callee | bind | ret | expr | block =>
    exact ⟨w, hstore, hscope, trivial⟩
  | right heval _ | consequence heval _ _ | alternative heval _ _ =>
    obtain ⟨w', hw, hstore', _⟩ := follows_expr hcall hscope _ _ hstore _ _ heval
    exact ⟨w', hstore', c.inScope_mono hw hscope, trivial⟩
  | argument heval hvalue hbefore =>
    obtain ⟨w₁, hw₁, hstore₁, _⟩ := follows_expr hcall hscope _ _ hstore _ _ heval
    have hscope₁ := c.inScope_mono hw₁ hscope
    obtain ⟨w₂, hw₂, hstore₂, _⟩ := follows_arguments hcall hscope₁ _ _ hstore₁ _ _ hbefore
    exact ⟨w₂, hstore₂, c.inScope_mono hw₂ hscope₁, trivial⟩
  | call heval hvalue harguments =>
    obtain ⟨w₁, hw₁, hstore₁, hcallee⟩ := follows_expr hcall hscope _ _ hstore _ _ heval
    have hscope₁ := c.inScope_mono hw₁ hscope
    obtain ⟨w₂, hw₂, hstore₂, hvalues⟩ := follows_arguments hcall hscope₁ _ _ hstore₁ _ _ harguments
    exact ⟨w₂, hstore₂, c.inScope_mono hw₂ hscope₁,
      Admits.mono hw₂ ⟨hcallee, hvalue⟩, hvalues⟩
  | statement hbefore hvalue =>
    obtain ⟨w', hw, hstore', _⟩ := follows_statements hcall hscope c.nil _ _ hstore _ _ hbefore
    exact ⟨w', hstore', c.inScope_mono hw hscope, trivial⟩
  | @body _ scope _ _ _ hlength =>
    obtain ⟨w', hstore', hscope', _⟩ := c.enter scope hstore htask.1.1 hlength htask.2
    exact ⟨w', hstore', hscope', trivial⟩

theorem Covers.reaches (h : c.Covers w a) (hs : Relation.ReflTransGen Activity.Starts a b) :
    ∃ w', c.Covers w' b := by
  induction hs with
  | refl => exact ⟨w, h⟩
  | tail _ hstep ih =>
    obtain ⟨w', h'⟩ := ih
    exact h'.starts hstep

theorem reachable (w₀ : c.World) (hstore : c.holds w₀ Interpreter.new.store)
    (hscope : c.inScope w₀ Interpreter.new.scope) {i : Interpreter} (h : i.Reachable) :
    ∃ w, c.holds w i.store ∧ c.inScope w i.scope := by
  induction h with
  | new => exact ⟨w₀, hstore, hscope⟩
  | @run i i' depth text result _ hrun ih =>
    cases result with
    | error diagnostics => exact Interpreter.run_eq_some_error hrun ▸ ih
    | ok result =>
      obtain ⟨w, hstore, hscope⟩ := ih
      obtain ⟨program, value, _, _, heval, heq⟩ := Interpreter.run_eq_some_ok hrun
      obtain ⟨w', hw, hstore', _⟩ :=
        follows_statements (c.permits_applyWithin depth) hscope c.nil _ _ hstore _ _ heval
      exact ⟨w', hstore', heq ▸ c.inScope_mono hw hscope⟩

end Contract

end LetScript
