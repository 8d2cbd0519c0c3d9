import LetScript.Proofs.Evaluation.Continuation
import LetScript.Proofs.Evaluation.Origin
import LetScript.Proofs.Tree.RoundTrip

/-! What a value is printed as, typed back. The text of a function is that of a literal for
it, though it is not written like the text of a literal, and its code has a text because it
comes from one. A negative integer is read as the negation of its amount, which there is no
integer for at the lower end of the range. -/
namespace LetScript

def CodeProperty.canonical : CodeProperty where
  expr := Expr.Canonical
  stmt := Stmt.Canonical
  statements := CanonicalStatements
  alternative := CanonicalElse
  exprs := CanonicalExprs
  of_unary h := h
  of_binary h := h
  of_ifElse h := h
  of_function h := h.2
  of_call h := h
  of_bind h := h.2
  of_ret h := h
  of_expr h := h
  of_block h := h.elim
  of_cons h := h
  of_some h := h
  of_argument h := h

/-! ### Texts of single expressions -/

/-- A text that is cut into the tokens of an expression is that expression. -/
theorem Program.parse_of_spells {e : Expr} {text : String} (h : e.Canonical)
    (htext : Spells text e.innerTokens) : parse text = .ok ⟨[.expr e]⟩ := by
  have htokens : Lexer.tokens text.toList = e.innerTokens := by
    simpa using htext [] Lexer.boundary_nil
  have hend : Grammar.Terminator [] [] := .omitted nofun nofun fun op => by cases op <;> nofun
  have hexpr : Grammar.Expression .lowest e.innerTokens e [] := by
    simpa using (Grammar.derives_inner e h).unenclosed [] nofun
  refine parse_eq_ok_iff_reads.mpr ⟨[], Phrase.reads_statements ?_⟩
  rw [htokens]
  exact .cons (.expr hexpr hend) .nil

/-- The text of a function is cut as the text of a literal for it. -/
theorem Closure.spells {f : Closure} (h : (Expr.function f.parameters f.body).Canonical) :
    Spells f.render (Expr.function f.parameters f.body).innerTokens := by
  have hword := Spells.keyword .fnWord
  have hparameters := Spells.commaSeparated (Spells.parameters h.1)
  have hbody := spells_statements f.body h.2
  intro cs _
  change Lexer.tokens ((Keyword.fnWord.spelling ++ " (" ++ _ ++ ") \x7b " ++ _ ++ " \x7d").toList ++
    cs) = _
  simp (disch := decide) only [String.toList_append, String.reduceToList, List.cons_append,
    List.nil_append, List.append_assoc, hword.before_blank, Lexer.tokens_symbol,
    hparameters.before_mark, Lexer.tokens_blank, hbody.before_blank]
  simp only [Expr.innerTokens, List.append_assoc, List.cons_append, List.nil_append,
    Token.parenthesized, Token.braced]

namespace Integer

/-- There is an integer for the amount of each negative one but the least. -/
theorem exists_toInt_eq_neg {n : Int64} (h : n ≠ Int64.minValue) :
    ∃ m : Int64, m.toInt = -n.toInt := by
  have hmin : n.toInt ≠ Int64.minValue.toInt := fun heq => h (Int64.toInt_inj.mp heq)
  have hlower := Int64.minValue_le_toInt n
  have hupper := Int64.toInt_le n
  have hbounds : Int64.minValue.toInt = -2 ^ 63 ∧ Int64.maxValue.toInt = 2 ^ 63 - 1 := by decide
  exact ⟨.ofInt (-n.toInt), Int64.toInt_ofInt_of_le (by omega) (by omega)⟩

theorem text_of_neg {m n : Int64} (hn : n.toInt < 0) (hm : m.toInt = -n.toInt) :
    text n = UnaryOp.minus.symbol ++ text m := by
  obtain ⟨k, hk⟩ := Int.eq_negSucc_of_lt_zero hn
  rw [text, text, hm, hk, Int.neg_negSucc]
  exact String.ofList_cons

end Integer

namespace Interpreter

variable {depth : Nat} {text : String} {e : Expr} {value : Value} {i : Interpreter} {store : Store}

theorem run_of_parse_eq_expr (hparse : Program.parse text = .ok ⟨[.expr e]⟩)
    (heval : e.eval (applyWithin depth) i.scope i.store = some (value, store))
    (hvalue : value.isAbrupt = false) :
    i.run depth text = some (.ok value, { i with store }) := by
  have hstatements : evalStatements (applyWithin depth) i.scope .nil [.expr e] i.store =
      some (value, store) :=
    Eval.proceed_of_eq_some heval hvalue
  have harrived : value.arrived = value := by
    cases value with
    | returned => cases hvalue
    | int | bool | nil | error | function => rfl
  rw [run_of_parse_eq_ok hparse, hstatements]
  simp only [Option.map_some, harrived]

/-- The text of an integer evaluates to it, unless it is the least one. -/
theorem run_text {n : Int64} (h : n ≠ Int64.minValue) :
    new.run depth (Integer.text n) = some (.ok (.int n), new) := by
  by_cases hsign : 0 ≤ n
  · have hcanonical : (Expr.int n).Canonical := hsign
    have hparse := Program.parse_of_spells hcanonical (Expr.spells _ hcanonical)
    exact run_of_parse_eq_expr hparse rfl rfl
  · -- the sign is no part of a number: the text is a negation, which evaluation computes
    obtain ⟨m, hm⟩ := Integer.exists_toInt_eq_neg h
    have hn : n.toInt < 0 := by simpa using Int64.lt_iff_toInt_lt.mp (Int64.not_le.mp hsign)
    have hm' : 0 ≤ m.toInt := by omega
    have hcanonical : (Expr.int m).Canonical := Int64.le_iff_toInt_le.mpr hm'
    have hparse := Program.parse_of_spells (e := .unary .minus (.int m)) hcanonical
      (Spells.unary .minus hcanonical (Expr.spells _ hcanonical))
    have hexact : Integer.ofExact? (-m.toInt) = some n :=
      Integer.ofExact?_eq_some_iff.mpr (by omega)
    have hvalue : UnaryOp.minus.apply (.int m) = .int n := by
      simp only [UnaryOp.apply, Value.ofExact, hexact]
    rw [Integer.text_of_neg hn hm]
    refine run_of_parse_eq_expr hparse ?_ rfl
    rw [← hvalue]
    rfl

theorem run_spelling (b : Bool) :
    new.run depth (Keyword.ofBool b).spelling = some (.ok (.bool b), new) := by
  have hcanonical : (Expr.bool b).Canonical := trivial
  have hparse := Program.parse_of_spells hcanonical (Expr.spells _ hcanonical)
  exact run_of_parse_eq_expr hparse rfl rfl

/-- The values of a session, typed back as they are printed. A function is then a literal with its
parameters and its body, and a truth value or an integer evaluates to itself. Only the amount of the
least integer is too large to be typed. -/
theorem Arises.typed_back {value : Value} (h : Arises value) :
    (∀ f, value = .function f →
      Program.parse value.render = .ok ⟨[.expr (.function f.parameters f.body)]⟩) ∧
    (∀ b, value = .bool b → ∀ depth, new.run depth value.render = some (.ok value, new)) ∧
    (∀ n, value = .int n → n ≠ Int64.minValue →
      ∀ depth, new.run depth value.render = some (.ok value, new)) ∧
    (value = .int Int64.minValue →
      Program.parse value.render = .error [.integerTooLarge "9223372036854775808"]) := by
  have hcanonical : CodeProperty.canonical.InValue value :=
    h.inValue fun _ _ hparse => Program.canonical_of_parse hparse
  refine ⟨?_, ?_, ?_, ?_⟩
  · rintro f rfl
    exact Program.parse_of_spells hcanonical (Closure.spells hcanonical)
  · rintro b rfl depth
    exact run_spelling b
  · rintro n rfl hn depth
    exact run_text hn
  · rintro rfl
    decide +kernel

/-- A session with a function without statements, the least integer and a negative one. -/
theorem typed_back_session : ∃ i,
    new.run 0 "let f = fn(a, b) {}; let low = -9223372036854775807 - 1; -5" =
        some (.ok (.int (-5)), i) ∧
      i.store.findLocal? 0 "f" = some (.function ⟨0, ["a", "b"], [], 0⟩) ∧
      i.store.findLocal? 0 "low" = some (.int Int64.minValue) ∧
      Program.parse "fn (a, b) {  }" = .ok ⟨[.expr (.function ["a", "b"] [])]⟩ ∧
      new.run 0 "-5" = some (.ok (.int (-5)), new) ∧
      Program.parse "-9223372036854775808" = .error [.integerTooLarge "9223372036854775808"] := by
  have hsession : (new.run 0
      "let f = fn(a, b) {}; let low = -9223372036854775807 - 1; -5").map (fun r =>
        (r.1, r.2.store.findLocal? 0 "f", r.2.store.findLocal? 0 "low")) =
      some (.ok (.int (-5)), some (.function ⟨0, ["a", "b"], [], 0⟩),
        some (.int Int64.minValue)) := by
    decide +kernel
  obtain ⟨⟨result, i⟩, hrun, hvalues⟩ := Option.map_eq_some_iff.mp hsession
  obtain ⟨rfl, hvalues⟩ := Prod.mk.inj hvalues
  obtain ⟨hf, hlow⟩ := Prod.mk.inj hvalues
  have hi : Reachable i := .run .new hrun
  have htexts : (Value.function ⟨0, ["a", "b"], [], 0⟩).render = "fn (a, b) \x7b  \x7d" ∧
      (Value.int (-5)).render = "-5" ∧
      (Value.int Int64.minValue).render = "-9223372036854775808" := by
    decide +kernel
  have hfunction := (Arises.typed_back (.bound hi hf)).1 _ rfl
  have hnegative := (Arises.typed_back (.returned .new hrun)).2.2.1 _ rfl (by decide) 0
  have hleast := (Arises.typed_back (.bound hi hlow)).2.2.2 rfl
  rw [htexts.1] at hfunction
  rw [htexts.2.1] at hnegative
  rw [htexts.2.2] at hleast
  exact ⟨i, hrun, hf, hlow, hfunction, hnegative, hleast⟩

end Interpreter

end LetScript
