import LetScript.Proofs.Parser.Concatenation

/-! The course of a reading: which tokens a phrase takes, which phrases it is read by, and
where and why it is given up, if it is. One lemma for each phrase says all of that; what
holds of every reading, whatever is wrong with the text, follows from these lemmas by
induction on the parts of phrases. -/
namespace LetScript

open Phrase (expect nextKind ended)

variable {α β : Type} {n : Nat}

/-- The kinds of token that phrases require at some place. -/
def TokenKind.required : List TokenKind :=
  [.identifier, .equal, .parenLeft, .parenRight, .braceLeft]

/-- A token that binds what stands before it neither opens nor closes a block. -/
theorem Precedence.isPlain_of_rank_lt {min : Precedence} {kind : TokenKind}
    (h : min.rank < (ofKind kind).rank) : kind.isPlain = true := by
  cases kind <;> first | rfl | cases h

/-- Why the attempt is given up, if it is. -/
def Attempt.failure (r : Attempt α n) : Option Diagnostic :=
  match r.value with
  | .ok _ => none
  | .error diagnostic => some diagnostic

namespace Phrase

/-- Is neither a loop over statements nor a statement in one. -/
def Rule.isInner : Rule → Bool
  | .text | .block | .statement => false
  | _ => true

theorem Rule.ne_of_isInner {rule other : Rule} (h : rule.isInner = true)
    (hother : other.isInner = false) : rule ≠ other := by
  rintro rfl
  rw [h] at hother
  cases hother

namespace Stage

/-- What is left after the phrase. -/
def rest : Stage → List Token
  | text ts => (Phrase.statements ts).rest
  | block ts => (Phrase.block ts).rest
  | statement first ts => (Phrase.statement first ts).rest
  | expr min ts => (Phrase.expr min ts).rest
  | operand first ts => (Phrase.operand first ts).rest
  | operators min left ts => (Phrase.operators min left ts).rest
  | arguments ts => (Phrase.arguments ts).rest
  | moreArguments ts => (Phrase.moreArguments ts).rest
  | parameters ts => (Phrase.parameters ts).rest
  | moreParameters ts => (Phrase.moreParameters ts).rest
  | alternative ts => (Phrase.alternative ts).rest

/-- Why the phrase is given up, if it is. -/
def failure : Stage → Option Diagnostic
  | text _ | block _ => none
  | statement first ts => (Phrase.statement first ts).failure
  | expr min ts => (Phrase.expr min ts).failure
  | operand first ts => (Phrase.operand first ts).failure
  | operators min left ts => (Phrase.operators min left ts).failure
  | arguments ts => (Phrase.arguments ts).failure
  | moreArguments ts => (Phrase.moreArguments ts).failure
  | parameters ts => (Phrase.parameters ts).failure
  | moreParameters ts => (Phrase.moreParameters ts).failure
  | alternative ts => (Phrase.alternative ts).failure

end Stage

end Phrase

open Phrase (Stage Rule)

/-- From the tokens `ts` a phrase of the rule goes on to `rest`: it takes tokens and is read by
`parts`, one after the other, and `failure` is why it is given up, if it is. -/
inductive Course (rule : Rule) :
    List Token → List Stage → Option Diagnostic → List Token → Prop where
  | done {ts} : Course rule ts [] none ts
  | take {t ts parts failure rest} (ht : t.kind.isPlain = true)
      (h : Course rule ts parts failure rest) : Course rule (t :: ts) parts failure rest
  /-- The end of a statement. -/
  | semicolon {l ts} (h : rule = .statement) : Course rule (⟨.semicolon, l⟩ :: ts) [] none ts
  | part {stage : Stage} {parts failure rest} (hrule : stage.rule.isInner = true)
      (hs : stage.failure = none) (h : Course rule stage.rest parts failure rest) :
      Course rule stage.tokens (stage :: parts) failure rest
  /-- A part is given up, and the phrase with it. -/
  | broken {stage : Stage} {diagnostic} (hrule : stage.rule.isInner = true)
      (hs : stage.failure = some diagnostic) :
      Course rule stage.tokens [stage] (some diagnostic) stage.rest
  | block {l ts parts failure rest} (h : Course rule (Phrase.block ts).rest parts failure rest) :
      Course rule (⟨.braceLeft, l⟩ :: ts) (.block ts :: parts) failure rest
  /-- The token that is required does not come next. -/
  | missing {expected ts} (hexpected : expected ∈ TokenKind.required)
      (hne : nextKind ts ≠ expected) :
      Course rule ts [] (some (.unexpectedToken expected (nextKind ts))) ts
  | noExpression {t ts} (ht : t.kind.beginsExpression = false) :
      Course rule (t :: ts) [] (some (.noExpression t.kind)) ts
  | noExpressionAtEnd : Course rule [] [] (some (.noExpression .eof)) []
  | tooLarge {literal ts}
      (h : Int64.maxValue.toInt < (Text.Decimal.value literal.toList : Int)) :
      Course rule (⟨.int, literal⟩ :: ts) [] (some (.integerTooLarge literal)) ts

variable {rule : Rule}

namespace Attempt

/-- The attempt takes this course. -/
def Runs (r : Attempt α n) (rule : Rule) (ts : List Token) (parts : List Stage) : Prop :=
  Course rule ts parts r.failure r.rest

variable {ts : List Token} {parts : List Stage}

theorem runs_succeed (a : α) (ts : List Token) : (succeed a ts).Runs rule ts [] :=
  .done

theorem runs_after {r : Attempt α n} {k : Nat} (h : r.Runs rule ts parts) :
    Runs (Reading.after k r) rule ts parts :=
  h

theorem runs_take {r : Attempt α n} {t : Token} (ht : t.kind.isPlain = true)
    (h : r.Runs rule ts parts) : Runs (Reading.after 1 r) rule (t :: ts) parts :=
  .take ht h

theorem runs_map {r : Attempt α n} (f : α → β) (h : r.Runs rule ts parts) :
    (r.map f).Runs rule ts parts := by
  obtain ⟨_ | a, reports, rest, hlen⟩ := r
  · exact h
  · exact h

/-- A phrase that is read by one other, and no more. -/
theorem runs_part (stage : Stage) {r : Attempt α n} (hrule : stage.rule.isInner = true)
    (hfailure : stage.failure = r.failure) (hrest : stage.rest = r.rest) :
    r.Runs rule stage.tokens [stage] := by
  obtain ⟨d | a, reports, rest, hlen⟩ := r
  · have hbroken : Course rule stage.tokens [stage] (some d) stage.rest := .broken hrule hfailure
    rwa [hrest] at hbroken
  · have hpart : Course rule stage.tokens [stage] none stage.rest := .part hrule hfailure .done
    rwa [hrest] at hpart

theorem runs_andThen (stage : Stage) {r : Attempt α n} {onward : α → List Token → List Stage}
    {next : α → (rest : List Token) → rest.length ≤ n → Attempt β rest.length}
    (hrule : stage.rule.isInner = true) (hfailure : stage.failure = r.failure)
    (hrest : stage.rest = r.rest)
    (h : ∀ a rest hrest, (next a rest hrest).Runs rule rest (onward a rest)) :
    (r.andThen next).Runs rule stage.tokens (stage :: r.onward onward) := by
  obtain ⟨d | a, reports, rest, hlen⟩ := r
  · exact runs_part stage (r := ⟨.error d, reports, rest, hlen⟩) hrule hfailure hrest
  · refine .part hrule hfailure ?_
    rw [hrest]
    exact h a rest hlen

/-- The last part: only tokens may come after it. -/
theorem runs_last (stage : Stage) {r : Attempt α n}
    {next : α → (rest : List Token) → rest.length ≤ n → Attempt β rest.length}
    (hrule : stage.rule.isInner = true) (hfailure : stage.failure = r.failure)
    (hrest : stage.rest = r.rest) (h : ∀ a rest hrest, (next a rest hrest).Runs rule rest []) :
    (r.andThen next).Runs rule stage.tokens [stage] := by
  have hnone : (r.onward fun _ _ => []) = [] := by
    unfold onward
    split <;> rfl
  have hlast : (r.andThen next).Runs rule stage.tokens (stage :: r.onward fun _ _ => []) :=
    runs_andThen stage hrule hfailure hrest h
  rwa [hnone] at hlast

end Attempt

namespace Phrase

open Attempt

/-- A required token is taken, or the attempt is given up where it should be. -/
theorem expect_cases {kind : TokenKind} (hkind : kind ∈ TokenKind.required) (ts : List Token) :
    (∃ token rest, ∃ h : ts = token :: rest, token.kind = kind ∧
      expect kind ts = h ▸ Reading.after 1 (succeed token rest)) ∨
    nextKind ts ≠ kind ∧ expect kind ts = giveUp (.unexpectedToken kind (nextKind ts)) ts := by
  cases ts with
  | nil =>
    refine .inr ⟨?_, rfl⟩
    rintro rfl
    revert hkind
    decide
  | cons token ts =>
    by_cases hk : token.kind = kind
    · exact .inl ⟨token, ts, rfl, hk, if_pos hk⟩
    · exact .inr ⟨hk, if_neg hk⟩

theorem runs_expect_andThen {kind : TokenKind} {ts : List Token}
    {onward : Token → List Token → List Stage}
    {next : Token → (rest : List Token) → rest.length ≤ ts.length → Attempt β rest.length}
    (hkind : kind ∈ TokenKind.required) (hplain : kind.isPlain = true)
    (h : ∀ a rest hrest, (next a rest hrest).Runs rule rest (onward a rest)) :
    ((expect kind ts).andThen next).Runs rule ts ((expect kind ts).onward onward) := by
  obtain ⟨token, rest, rfl, rfl, heq⟩ | ⟨hne, heq⟩ := expect_cases hkind ts
  · rw [heq]
    exact .take hplain (h token rest _)
  · rw [heq]
    exact .missing hkind hne

/-- A block after its opening brace. -/
theorem runs_expect_block {ts : List Token} (onward : List Token → List Stage)
    {next : List Stmt → (rest : List Token) → Attempt β rest.length}
    (h : ∀ ss rest, (next ss rest).Runs rule rest (onward rest)) :
    ((expect .braceLeft ts).andThen fun _ ts _ => Reading.andThen (Phrase.block ts)
      fun ss rest _ => next ss rest).Runs rule ts ((expect .braceLeft ts).onward fun _ ts =>
        .block ts :: onward (Phrase.block ts).rest) := by
  have hrequired : TokenKind.braceLeft ∈ TokenKind.required := by decide
  obtain ⟨⟨kind, l⟩, rest, rfl, rfl, heq⟩ | ⟨hne, heq⟩ := expect_cases hrequired ts
  · rw [heq]
    exact .block (h _ _)
  · rw [heq]
    exact .missing hrequired hne

theorem runs_expect {kind : TokenKind} (hkind : kind ∈ TokenKind.required)
    (hplain : kind.isPlain = true) (ts : List Token) : (expect kind ts).Runs rule ts [] := by
  obtain ⟨token, rest, rfl, rfl, heq⟩ | ⟨hne, heq⟩ := expect_cases hkind ts
  · rw [heq]
    exact .take hplain .done
  · rw [heq]
    exact .missing hkind hne

theorem runs_close (ts : List Token) : (expect .parenRight ts).Runs rule ts [] :=
  runs_expect (by decide) rfl ts

/-! ### The course of each phrase -/

theorem runs_integer (literal : String) (ts : List Token) :
    (integer literal ts).Runs rule (⟨.int, literal⟩ :: ts) [] := by
  unfold integer
  split
  · exact .take rfl .done
  · next h => exact .tooLarge (Integer.lt_of_ofExact?_eq_none h (Int.natCast_nonneg _))

theorem runs_ended (s : Stmt) (ts : List Token) : (ended s ts).Runs .statement ts [] := by
  unfold ended
  split
  · exact .semicolon rfl
  · exact .done

theorem runs_operand (first : Token) (ts : List Token) :
    (operand first ts).Runs rule (first :: ts) (Stage.operand first ts).parts := by
  rw [operand.eq_def, Stage.parts]
  obtain ⟨kind, literal⟩ := first
  dsimp only
  split
  · exact .take rfl .done
  · exact runs_integer literal ts
  · exact .take rfl .done
  · exact .take rfl .done
  · exact .take rfl (runs_map _ (runs_part (.expr .unary ts) rfl rfl rfl))
  · exact .take rfl (runs_map _ (runs_part (.expr .unary ts) rfl rfl rfl))
  · refine .take rfl (runs_last (.expr .lowest ts) rfl rfl rfl fun _ ts _ => ?_)
    exact runs_map _ (runs_close ts)
  · refine .take rfl (runs_expect_andThen (by decide) rfl fun _ ts _ => ?_)
    refine runs_andThen (.expr .lowest ts) rfl rfl rfl fun condition ts _ => ?_
    refine runs_expect_andThen (by decide) rfl fun _ ts _ => ?_
    refine runs_expect_block (fun ts => [.alternative ts]) fun consequence ts => ?_
    exact runs_map _ (runs_part (.alternative ts) rfl rfl rfl)
  · refine .take rfl (runs_expect_andThen (by decide) rfl fun _ ts _ => ?_)
    refine runs_andThen (.parameters ts) rfl rfl rfl fun parameters ts _ => ?_
    exact runs_expect_block (fun _ => []) fun body ts => runs_succeed _ ts
  · have hbegins : kind.beginsExpression = false := by
      cases kind with
      | keyword word => cases word <;> first | rfl | contradiction
      | _ => first | rfl | contradiction
    split <;> first | exact .noExpression (t := ⟨kind, literal⟩) hbegins | contradiction

theorem failure_exprFrom (min : Precedence) (first : Token) (ts : List Token) :
    (Stage.expr min (first :: ts)).failure = (exprFrom min first ts).failure := by
  rw [Stage.failure, expr]
  rfl

theorem rest_exprFrom (min : Precedence) (first : Token) (ts : List Token) :
    (Stage.expr min (first :: ts)).rest = (exprFrom min first ts).rest := by
  rw [Stage.rest, expr]
  rfl

theorem runs_expr (min : Precedence) (ts : List Token) :
    (expr min ts).Runs rule ts (Stage.expr min ts).parts := by
  cases ts with
  | nil =>
    rw [expr]
    exact .noExpressionAtEnd
  | cons first ts =>
    rw [expr, exprFrom, Stage.parts]
    refine runs_after (runs_andThen (.operand first ts) rfl rfl rfl fun left ts _ => ?_)
    exact runs_part (.operators min left ts) rfl rfl rfl

theorem runs_operators (min : Precedence) (left : Expr) (ts : List Token) :
    (operators min left ts).Runs rule ts (Stage.operators min left ts).parts := by
  cases ts with
  | nil =>
    rw [operators]
    exact .done
  | cons token ts =>
    rw [operators, Stage.parts]
    split
    · next hbinds =>
      have hplain := Precedence.isPlain_of_rank_lt hbinds
      cases BinaryOp.ofKind? token.kind with
      | some op =>
        refine runs_take hplain
          (runs_andThen (.expr _ ts) rfl rfl rfl fun right ts _ => ?_)
        exact runs_part (.operators min _ ts) rfl rfl rfl
      | none =>
        refine runs_take hplain
          (runs_andThen (.arguments ts) rfl rfl rfl fun es ts _ => ?_)
        exact runs_part (.operators min _ ts) rfl rfl rfl
    · exact .done

theorem runs_arguments (ts : List Token) :
    (arguments ts).Runs rule ts (Stage.arguments ts).parts := by
  obtain ⟨l, rest, rfl⟩ | hclose := starts_or_not .parenRight ts
  · rw [arguments, Stage.parts]
    exact .take rfl .done
  · rw [arguments, Stage.parts]
    · refine runs_andThen (.expr .lowest ts) rfl rfl rfl fun argument ts _ => ?_
      exact runs_map _ (runs_part (.moreArguments ts) rfl rfl rfl)
    · exact hclose
    · exact hclose

theorem runs_moreArguments (ts : List Token) :
    (moreArguments ts).Runs rule ts (Stage.moreArguments ts).parts := by
  obtain ⟨l, ts, rfl⟩ | hcomma := starts_or_not .comma ts
  · rw [moreArguments, Stage.parts]
    refine runs_take rfl
      (runs_andThen (.expr .lowest ts) rfl rfl rfl fun argument ts _ => ?_)
    exact runs_map _ (runs_part (.moreArguments ts) rfl rfl rfl)
  · rw [moreArguments, Stage.parts]
    · exact runs_map _ (runs_close ts)
    · exact hcomma
    · exact hcomma

theorem runs_parameters (ts : List Token) :
    (parameters ts).Runs rule ts (Stage.parameters ts).parts := by
  obtain ⟨l, rest, rfl⟩ | hclose := starts_or_not .parenRight ts
  · rw [parameters, Stage.parts]
    exact .take rfl .done
  · rw [parameters, Stage.parts]
    · refine runs_expect_andThen (by decide) rfl fun name ts _ => ?_
      exact runs_map _ (runs_part (.moreParameters ts) rfl rfl rfl)
    · exact hclose
    · exact hclose

theorem runs_moreParameters (ts : List Token) :
    (moreParameters ts).Runs rule ts (Stage.moreParameters ts).parts := by
  obtain ⟨l, ts, rfl⟩ | hcomma := starts_or_not .comma ts
  · rw [moreParameters, Stage.parts]
    refine runs_take rfl (runs_expect_andThen (by decide) rfl fun name ts _ => ?_)
    exact runs_map _ (runs_part (.moreParameters ts) rfl rfl rfl)
  · rw [moreParameters, Stage.parts]
    · exact runs_map _ (runs_close ts)
    · exact hcomma
    · exact hcomma

theorem runs_alternative (ts : List Token) :
    (alternative ts).Runs rule ts (Stage.alternative ts).parts := by
  obtain ⟨l, ts, rfl⟩ | helse := starts_or_not (.keyword .elseWord) ts
  · rw [alternative, Stage.parts]
    exact .take rfl (runs_expect_block (fun _ => []) fun ss ts => runs_succeed _ ts)
  · rw [alternative, Stage.parts]
    · exact .done
    · exact helse
    · exact helse

theorem runs_statement (first : Token) (ts : List Token) :
    (statement first ts).Runs .statement (first :: ts) (Stage.statement first ts).parts := by
  rw [statement.eq_def, Stage.parts]
  have hexpr : Attempt.Runs
      ((exprFrom .lowest first ts).andThen fun value ts _ => ended (.expr value) ts) .statement
      (first :: ts) [Stage.expr .lowest (first :: ts)] :=
    runs_last (.expr .lowest (first :: ts)) rfl (failure_exprFrom ..) (rest_exprFrom ..)
      fun value ts _ => runs_ended (.expr value) ts
  obtain ⟨kind, literal⟩ := first
  cases kind with
  | keyword word =>
    cases word with
    | letWord =>
      refine .take rfl (runs_expect_andThen (by decide) rfl fun name ts _ => ?_)
      refine runs_expect_andThen (by decide) rfl fun _ ts _ => ?_
      exact runs_last (.expr .lowest ts) rfl rfl rfl fun value ts _ => runs_ended _ ts
    | returnWord =>
      refine .take rfl (runs_last (.expr .lowest ts) rfl rfl rfl fun value ts _ => ?_)
      exact runs_ended _ ts
    | _ => exact hexpr
  | _ => exact hexpr

/-- A loop over statements is never given up; every other phrase takes a course. -/
theorem Stage.loops_or_course (stage : Stage) :
    (stage.rule = .text ∨ stage.rule = .block) ∧ stage.failure = none ∨
      Course stage.rule stage.tokens stage.parts stage.failure stage.rest := by
  cases stage with
  | text => exact .inl ⟨.inl rfl, rfl⟩
  | block => exact .inl ⟨.inr rfl, rfl⟩
  | statement first ts => exact .inr (runs_statement first ts)
  | expr min ts => exact .inr (runs_expr min ts)
  | operand first ts => exact .inr (runs_operand first ts)
  | operators min left ts => exact .inr (runs_operators min left ts)
  | arguments ts => exact .inr (runs_arguments ts)
  | moreArguments ts => exact .inr (runs_moreArguments ts)
  | parameters ts => exact .inr (runs_parameters ts)
  | moreParameters ts => exact .inr (runs_moreParameters ts)
  | alternative ts => exact .inr (runs_alternative ts)

theorem Stage.course {stage : Stage} (htext : stage.rule ≠ .text) (hblock : stage.rule ≠ .block) :
    Course stage.rule stage.tokens stage.parts stage.failure stage.rest :=
  stage.loops_or_course.resolve_left fun h => h.1.elim htext hblock

end Phrase

/-! ### The order of the parts -/

/-- The stages are read one after the other, in the tokens from `ts` on as far as `rest`. -/
def InOrder : List Token → List Stage → List Token → Prop
  | ts, [], rest => rest <:+ ts
  | ts, stage :: stages, rest => stage.tokens <:+ ts ∧ InOrder stage.rest stages rest

namespace InOrder

variable {ts us rest : List Token} {stages : List Stage}

theorem of_suffix (h : InOrder ts stages rest) (hts : ts <:+ us) : InOrder us stages rest := by
  cases stages with
  | nil => exact List.IsSuffix.trans h hts
  | cons stage stages => exact ⟨h.1.trans hts, h.2⟩

theorem suffix (h : InOrder ts stages rest)
    (hstages : ∀ stage ∈ stages, stage.rest <:+ stage.tokens) : rest <:+ ts := by
  induction stages generalizing ts with
  | nil => exact h
  | cons stage stages ih =>
    obtain ⟨hstage, hstages⟩ := List.forall_mem_cons.mp hstages
    exact ((ih h.2 hstages).trans hstage).trans h.1

end InOrder

theorem Course.inOrder {ts rest : List Token} {parts : List Stage} {failure : Option Diagnostic}
    (h : Course rule ts parts failure rest) : InOrder ts parts rest := by
  induction h with
  | done | missing | noExpressionAtEnd => exact List.suffix_rfl
  | semicolon | noExpression | tooLarge => exact List.suffix_cons _ _
  | take _ _ ih => exact ih.of_suffix (List.suffix_cons _ _)
  | part _ _ _ ih => exact ⟨List.suffix_rfl, ih⟩
  | broken => exact ⟨List.suffix_rfl, List.suffix_rfl⟩
  | block _ ih => exact ⟨List.suffix_cons _ _, ih⟩

/-- A phrase that is no loop has no statements as its parts. -/
theorem Course.isInner_or_block {ts rest : List Token} {parts : List Stage}
    {failure : Option Diagnostic} (h : Course rule ts parts failure rest) :
    ∀ part ∈ parts, part.rule.isInner = true ∨ part.rule = .block := by
  induction h with
  | done | missing | noExpressionAtEnd | semicolon | noExpression | tooLarge => exact nofun
  | take _ _ ih => exact ih
  | part hrule _ _ ih => exact List.forall_mem_cons.mpr ⟨.inl hrule, ih⟩
  | broken hrule => exact List.forall_mem_singleton.mpr (.inl hrule)
  | block _ ih => exact List.forall_mem_cons.mpr ⟨.inr rfl, ih⟩

namespace Phrase.Stage

theorem rest_text_cons (first : Token) (ts : List Token) :
    (text (first :: ts)).rest = (text (statement first ts).rest).rest := by
  rw [rest, statements, rest, rest, ← Attempt.rest_settle]
  rfl

/-- A block is at its end, at its closing brace, or at one more statement. -/
theorem block_cases (ts : List Token) :
    ts = [] ∧ (block ts).parts = [] ∧ (block ts).rest = [] ∨
    (∃ l after, ts = ⟨.braceRight, l⟩ :: after ∧ (block ts).parts = [] ∧ (block ts).rest = after) ∨
    ∃ first after, ts = first :: after ∧ first.kind ≠ .braceRight ∧
      (block ts).parts = [statement first after, block (Phrase.statement first after).rest] ∧
      (block ts).rest = (block (Phrase.statement first after).rest).rest := by
  cases ts with
  | nil =>
    refine .inl ⟨rfl, rfl, ?_⟩
    rw [rest, Phrase.block]
    rfl
  | cons first after =>
    obtain ⟨kind, l⟩ := first
    by_cases hclose : kind = .braceRight
    · obtain rfl := hclose
      refine .inr (.inl ⟨l, after, rfl, rfl, ?_⟩)
      rw [rest, Phrase.block]
      rfl
    · refine .inr (.inr ⟨_, after, rfl, hclose, if_neg hclose, ?_⟩)
      rw [rest, Phrase.block, if_neg hclose, rest, ← Attempt.rest_settle]
      rfl

theorem inOrder_text (ts : List Token) : InOrder ts (text ts).parts (text ts).rest := by
  cases ts with
  | nil =>
    rw [rest, rest_statements]
    exact List.suffix_rfl
  | cons first ts =>
    rw [rest_text_cons]
    exact ⟨List.suffix_rfl, List.suffix_rfl, List.suffix_rfl⟩

theorem inOrder_block (ts : List Token) : InOrder ts (block ts).parts (block ts).rest := by
  obtain ⟨rfl, hparts, hrest⟩ | ⟨l, after, rfl, hparts, hrest⟩ |
    ⟨first, after, rfl, -, hparts, hrest⟩ := block_cases ts
  · rw [hparts, hrest]
    exact List.suffix_rfl
  · rw [hparts, hrest]
    exact List.suffix_cons _ _
  · rw [hparts, hrest]
    exact ⟨List.suffix_rfl, List.suffix_rfl, List.suffix_rfl⟩

theorem inOrder (stage : Stage) : InOrder stage.tokens stage.parts stage.rest := by
  obtain ⟨hloop, -⟩ | hcourse := stage.loops_or_course
  · cases stage with
    | text ts => exact inOrder_text ts
    | block ts => exact inOrder_block ts
    | _ => simp [rule] at hloop
  · exact hcourse.inOrder

theorem rest_suffix (stage : Stage) : stage.rest <:+ stage.tokens :=
  wellFounded_parts.induction stage fun stage ih => stage.inOrder.suffix ih

end Phrase.Stage

end LetScript
