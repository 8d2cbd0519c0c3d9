import LetScript.Interpreter
import LetScript.Proofs.Evaluation.Parts
import LetScript.Proofs.Parser.Concatenation

/-! Programs evaluated one after the other. Statements go on from the value and the scopes
that the statements before them left, and not at all after an error or a `return`. So a
text that ends with a semicolon and has no block left open can be run by itself, before
the text that comes after it. -/
namespace LetScript

variable {call : Caller} {scope : ScopeId}

theorem evalStatements_of_ne_nil {ss : List Stmt} (h : ss ≠ []) (last last' : Value) :
    evalStatements call scope last ss = evalStatements call scope last' ss := by
  cases ss with
  | nil => exact absurd rfl h
  | cons s ss => rw [evalStatements, evalStatements]

/-- All of the program is evaluated: no statement of it ends in an error or a `return`. -/
def Program.Completes (call : Caller) (scope : ScopeId) (store : Store) (p : Program) : Prop :=
  ∃ value store', evalStatements call scope .nil p.statements store = some (value, store') ∧
    value.isAbrupt = false

namespace Interpreter

variable {i : Interpreter} {depth : Nat} {text more : String} {p q : Program}

theorem eval_eq_map (depth : Nat) (i : Interpreter) (p : Program) : i.eval depth p =
    (evalStatements (applyWithin depth) i.scope .nil p.statements i.store).map
      fun (value, store) => (value.arrived, { i with store }) := by
  show Option.map _ (Option.bind (evalStatements _ _ _ _ _) _) = _
  cases evalStatements (applyWithin depth) i.scope .nil p.statements i.store <;> rfl

theorem run_of_parse_eq_ok (h : Program.parse text = .ok p) : i.run depth text =
    (evalStatements (applyWithin depth) i.scope .nil p.statements i.store).map
      fun (value, store) => (.ok value.arrived, { i with store }) := by
  rw [run, h]
  dsimp only
  rw [eval_eq_map, Option.map_map]
  rfl

/-- A text that ends with a semicolon and has its braces closed is read as if nothing came after it,
and what comes after it as if nothing had come before. So running both texts as one, the second with
a statement in it, is running one after the other, unless the first is not evaluated to its end:
then the second makes no difference. -/
theorem run_append (text more : String) (p : Program) (hp : Program.parse text = .ok p)
    (h : Parser.Terminated text) :
    (Parser.ofText (text ++ more)).program =
      (⟨p.statements ++ (Parser.ofText more).program.1.statements⟩,
        (Parser.ofText more).program.2) ∧
    ∀ q, Program.parse more = .ok q → q.statements ≠ [] → ∀ (depth : Nat) (i : Interpreter),
      (p.Completes (applyWithin depth) i.scope i.store →
        ∃ value i', i.run depth text = some (.ok value, i') ∧
          i.run depth (text ++ more) = i'.run depth more) ∧
      (¬ p.Completes (applyWithin depth) i.scope i.store →
        i.run depth (text ++ more) = i.run depth text) := by
  refine ⟨Parser.program_ofText_append hp h more, fun q hq hne depth i => ?_⟩
  have hwhole := Program.parse_append hp h hq
  constructor
  · rintro ⟨value, store, heval, hvalue⟩
    refine ⟨value.arrived, { i with store }, ?_, ?_⟩
    · rw [run_of_parse_eq_ok hp, heval]
      rfl
    · rw [run_of_parse_eq_ok hwhole, run_of_parse_eq_ok hq, evalStatements_append rfl,
        Eval.proceed_of_eq_some heval hvalue, evalStatements_of_ne_nil hne value .nil]
  · intro hstops
    rw [run_of_parse_eq_ok hwhole, run_of_parse_eq_ok hp, evalStatements_append rfl,
      Eval.proceed_of_forall_isAbrupt]
    intro value store heval
    exact (Bool.not_eq_false _).mp fun hvalue => hstops ⟨value, store, heval, hvalue⟩

/-- A function that one text binds is called by the next. -/
theorem run_append_call :
    let text := "let f = fn(x) \x7b x + 1; \x7d;\n"
    ∃ p q value i', Program.parse text = .ok p ∧ Parser.Terminated text ∧
      Program.parse "f(41)" = .ok q ∧ q.statements ≠ [] ∧
      p.Completes (applyWithin 1) new.scope new.store ∧
      new.run 1 text = some (.ok value, i') ∧
      new.run 1 (text ++ "f(41)") = i'.run 1 "f(41)" ∧
      (i'.run 1 "f(41)").map (·.1.toOption) = some (some (.int 42)) := by
  intro text
  have hp : Program.parse text = .ok ⟨[.bind "f" (.function ["x"]
      [.expr (.binary .add (.name "x") (.int 1))])]⟩ := by
    decide +kernel
  have hq : Program.parse "f(41)" = .ok ⟨[.expr (.call (.name "f") [.int 41])]⟩ := by
    decide +kernel
  have ht : Parser.Terminated text := ⟨by decide +kernel, by decide +kernel⟩
  have hcompletes : Program.Completes (applyWithin 1) new.scope new.store
      ⟨[.bind "f" (.function ["x"] [.expr (.binary .add (.name "x") (.int 1))])]⟩ :=
    ⟨.nil, _, rfl, rfl⟩
  obtain ⟨value, i', hrun, hsplit⟩ :=
    ((run_append text "f(41)" _ hp ht).2 _ hq (by decide) 1 new).1 hcompletes
  refine ⟨_, _, value, i', hp, ht, hq, by decide, hcompletes, hrun, hsplit, ?_⟩
  rw [← hsplit]
  decide +kernel

end Interpreter

end LetScript
