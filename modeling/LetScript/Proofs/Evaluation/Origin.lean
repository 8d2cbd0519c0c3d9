import LetScript.Proofs.Evaluation.Bindings
import LetScript.Proofs.Evaluation.Lockstep

/-! Where the code of functions comes from. Runs make no code of their own: what a function
is made of stood in a text that was run, so that a property which programs have, and which
their parts have with them, is had by every function that a session comes to. -/
namespace LetScript

/-- A run beside itself, on a store in which the functions have the property. -/
def Lockstep.alone (p : CodeProperty) : Lockstep where
  code := p
  related s t := s = t ∧ s.Binds fun _ => p.InValue
  lookup _ h _ := ⟨by rw [h.1], fun _ hlookup => h.2.lookup hlookup⟩
  functions h := by rw [h.1]
  addFunction _ _ _ h := ⟨by rw [h.1], h.2⟩
  define scope h _ hvalue := ⟨by rw [h.1], h.2.define scope hvalue⟩
  size h := by rw [h.1]
  enter h _ harguments :=
    ⟨by rw [h.1], h.2.enter _ fun value hvalue _ => harguments value hvalue⟩

namespace Interpreter

/-- A value of a session: a run returns it or leaves it bound, in whichever scope. -/
inductive Arises : Value → Prop where
  | returned {i i' depth text value} (h : Reachable i)
      (hrun : i.run depth text = some (.ok value, i')) : Arises value
  | bound {i id name value} (h : Reachable i)
      (hfound : i.store.findLocal? id name = some value) : Arises value

section

variable {p : CodeProperty}

/-- One run keeps to code with the property, if all programs have it. -/
theorem binds_run (hparse : ∀ text program, Program.parse text = .ok program →
      p.statements program.statements) {i i' : Interpreter} {depth : Nat} {text : String}
    {result : Except (List Diagnostic) Value} (h : i.store.Binds fun _ => p.InValue)
    (hrun : i.run depth text = some (result, i')) :
    (i'.store.Binds fun _ => p.InValue) ∧ ∀ value, result = .ok value → p.InValue value := by
  cases result with
  | error diagnostics => exact ⟨run_eq_some_error hrun ▸ h, nofun⟩
  | ok result =>
    obtain ⟨program, value, hprogram, rfl, heval, -⟩ := run_eq_some_ok hrun
    have hfollows : (Lockstep.alone p).Follows p.InValue
        (evalStatements (applyWithin depth) i.scope .nil program.statements) :=
      Lockstep.follows_statements ((Lockstep.alone p).permits_applyWithin depth)
        CodeProperty.inValue_nil program.statements (hparse text program hprogram)
    -- beside itself the run ends as it does, and the relation says what that is
    have hself := hfollows i.store i.store ⟨rfl, h⟩
    rw [heval] at hself
    obtain ⟨-, hvalue, -, hstore⟩ := Option.rel_some_some.mp hself
    refine ⟨hstore, ?_⟩
    rintro _ ⟨⟩
    exact hvalue.arrived

theorem binds_of_reachable (hparse : ∀ text program, Program.parse text = .ok program →
      p.statements program.statements) {i : Interpreter} (h : i.Reachable) :
    i.store.Binds fun _ => p.InValue := by
  induction h with
  | new => exact Store.Binds.empty.addScope none
  | run _ hrun ih => exact (binds_run hparse ih hrun).1

/-- What all programs have, with their parts, every function of a session has. -/
theorem Arises.inValue (hparse : ∀ text program, Program.parse text = .ok program →
      p.statements program.statements) {value : Value} (h : Arises value) : p.InValue value := by
  cases h with
  | returned h hrun => exact (binds_run hparse (binds_of_reachable hparse h) hrun).2 value rfl
  | bound h hfound => exact binds_of_reachable hparse h _ _ _ hfound

end

end Interpreter

end LetScript
