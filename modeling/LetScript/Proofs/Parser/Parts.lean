import LetScript.Parser.Phrases
import Mathlib.Data.List.Chain
import Mathlib.Logic.Relation

/-! The parts of a reading: which phrases a phrase is read by, in their order, and at what
tokens each of them starts. A loop is a phrase that has its next turn as its last part.
What is reported on the way is what the parts report, and a statement that is given up
adds one report of its own. -/
namespace LetScript

open Phrase (expect nextKind)

variable {α β : Type} {n : Nat}

namespace Phrase

/-- What reading is done by: a phrase, or one turn of the loop in it. -/
inductive Rule where
  | text
  | block
  | statement
  | expr
  | operand
  | operators
  | arguments
  | moreArguments
  | parameters
  | moreParameters
  | alternative
  deriving DecidableEq

/-- A phrase, or a turn of the loop in it, where its reading starts. -/
inductive Stage where
  | text (ts : List Token)
  | block (ts : List Token)
  | statement (first : Token) (ts : List Token)
  | expr (min : Precedence) (ts : List Token)
  | operand (first : Token) (ts : List Token)
  | operators (min : Precedence) (left : Expr) (ts : List Token)
  | arguments (ts : List Token)
  | moreArguments (ts : List Token)
  | parameters (ts : List Token)
  | moreParameters (ts : List Token)
  | alternative (ts : List Token)

end Phrase

open Phrase (Stage Rule)

/-- What comes after the attempt if it is not given up. -/
def Attempt.onward (r : Attempt α n) (next : α → List Token → List Stage) : List Stage :=
  match r.value with
  | .ok value => next value r.rest
  | .error _ => []

namespace Phrase.Stage

def rule : Stage → Rule
  | text _ => .text
  | block _ => .block
  | statement _ _ => .statement
  | expr _ _ => .expr
  | operand _ _ => .operand
  | operators _ _ _ => .operators
  | arguments _ => .arguments
  | moreArguments _ => .moreArguments
  | parameters _ => .parameters
  | moreParameters _ => .moreParameters
  | alternative _ => .alternative

/-- The tokens that are not read yet. -/
def tokens : Stage → List Token
  | statement first ts | operand first ts => first :: ts
  | text ts | block ts | expr _ ts | operators _ _ ts | arguments ts | moreArguments ts
  | parameters ts | moreParameters ts | alternative ts => ts

/-- The phrases that the phrase is read by. -/
def parts : Stage → List Stage
  | text [] => []
  | text (first :: ts) => [statement first ts, text (Phrase.statement first ts).rest]
  | block [] => []
  | block (first :: ts) =>
    if first.kind = .braceRight then []
    else [statement first ts, block (Phrase.statement first ts).rest]
  | statement first ts =>
    match first.kind with
    | .keyword .letWord =>
      (expect .identifier ts).onward fun _ ts =>
      (expect .equal ts).onward fun _ ts => [expr .lowest ts]
    | .keyword .returnWord => [expr .lowest ts]
    | _ => [expr .lowest (first :: ts)]
  | expr _ [] => []
  | expr min (first :: ts) =>
    operand first ts :: (Phrase.operand first ts).onward fun left ts => [operators min left ts]
  | operand first ts =>
    match first.kind with
    | .bang | .minus => [expr .unary ts]
    | .parenLeft => [expr .lowest ts]
    | .keyword .ifWord =>
      (expect .parenLeft ts).onward fun _ ts =>
        expr .lowest ts :: (Phrase.expr .lowest ts).onward fun _ ts =>
      (expect .parenRight ts).onward fun _ ts =>
      (expect .braceLeft ts).onward fun _ ts => [block ts, alternative (Phrase.block ts).rest]
    | .keyword .fnWord =>
      (expect .parenLeft ts).onward fun _ ts =>
        parameters ts :: (Phrase.parameters ts).onward fun _ ts =>
      (expect .braceLeft ts).onward fun _ ts => [block ts]
    | _ => []
  | operators _ _ [] => []
  | operators min left (token :: ts) =>
    if min.rank < (Precedence.ofKind token.kind).rank then
      match BinaryOp.ofKind? token.kind with
      | some op =>
        expr (.ofKind token.kind) ts :: (Phrase.expr (.ofKind token.kind) ts).onward
          fun right ts => [operators min (.binary op left right) ts]
      | none =>
        arguments ts :: (Phrase.arguments ts).onward
          fun arguments ts => [operators min (.call left arguments) ts]
    else []
  | arguments ts =>
    match ts with
    | ⟨.parenRight, _⟩ :: _ => []
    | ts => expr .lowest ts :: (Phrase.expr .lowest ts).onward fun _ ts => [moreArguments ts]
  | moreArguments ts =>
    match ts with
    | ⟨.comma, _⟩ :: ts =>
      expr .lowest ts :: (Phrase.expr .lowest ts).onward fun _ ts => [moreArguments ts]
    | _ => []
  | parameters ts =>
    match ts with
    | ⟨.parenRight, _⟩ :: _ => []
    | ts => (expect .identifier ts).onward fun _ ts => [moreParameters ts]
  | moreParameters ts =>
    match ts with
    | ⟨.comma, _⟩ :: ts => (expect .identifier ts).onward fun _ ts => [moreParameters ts]
    | _ => []
  | alternative ts =>
    match ts with
    | ⟨.keyword .elseWord, _⟩ :: ts => (expect .braceLeft ts).onward fun _ ts => [block ts]
    | _ => []

/-- What reading the phrase reports, the report on a statement that is given up included. -/
def reports : Stage → List Diagnostic
  | text ts => (Phrase.statements ts).reports
  | block ts => (Phrase.block ts).reports
  | statement first ts => (Phrase.statement first ts).settle.reports
  | expr min ts => (Phrase.expr min ts).reports
  | operand first ts => (Phrase.operand first ts).reports
  | operators min left ts => (Phrase.operators min left ts).reports
  | arguments ts => (Phrase.arguments ts).reports
  | moreArguments ts => (Phrase.moreArguments ts).reports
  | parameters ts => (Phrase.parameters ts).reports
  | moreParameters ts => (Phrase.moreParameters ts).reports
  | alternative ts => (Phrase.alternative ts).reports

/-- The report on the phrase itself, if it is a statement that is given up. -/
def dropped : Stage → List Diagnostic
  | statement first ts =>
    match (Phrase.statement first ts).value with
    | .ok _ => []
    | .error diagnostic => [diagnostic]
  | _ => []

end Phrase.Stage

/-- What is reported is what the stages report, one after the other. -/
def Reading.ReportsOf (r : Reading α n) (stages : List Stage) : Prop :=
  r.reports = stages.flatMap Stage.reports

theorem Reading.reportsOf_after {r : Reading α n} {k : Nat} {stages : List Stage}
    (h : r.ReportsOf stages) : (after k r).ReportsOf stages :=
  h

namespace Attempt

variable {stage : Stage} {parts : α → List Token → List Stage}
  {next : α → (rest : List Token) → rest.length ≤ n → Attempt β rest.length}

theorem reportsOf_andThen {r : Attempt α n} (hr : r.reports = stage.reports)
    (h : ∀ a ts hts, (next a ts hts).ReportsOf (parts a ts)) :
    (r.andThen next).ReportsOf (stage :: r.onward parts) := by
  obtain ⟨value, reports, rest, hlen⟩ := r
  cases value with
  | ok a => exact congrArg₂ (· ++ ·) hr (h a rest hlen)
  | error d => exact congrArg (· ++ []) hr

/-- The last part: no more is reported after it. -/
theorem reportsOf_last {r : Attempt α n} (hr : r.reports = stage.reports)
    (h : ∀ a ts hts, (next a ts hts).reports = []) : (r.andThen next).ReportsOf [stage] := by
  obtain ⟨value, reports, rest, hlen⟩ := r
  cases value with
  | ok a => exact congrArg₂ (· ++ ·) hr (h a rest hlen)
  | error d => exact congrArg (· ++ []) hr

theorem rest_settle (r : Attempt α n) : r.settle.rest = r.rest := by
  unfold settle
  split <;> rfl

end Attempt

namespace Phrase

theorem reports_expect (kind : TokenKind) (ts : List Token) : (expect kind ts).reports = [] := by
  cases ts with
  | nil => rfl
  | cons token ts =>
    rw [expect]
    split <;> rfl

/-- A required token is no part, and reports nothing. -/
theorem reportsOf_expect_andThen {kind : TokenKind} {ts : List Token}
    {parts : Token → List Token → List Stage}
    {next : Token → (rest : List Token) → rest.length ≤ ts.length → Attempt β rest.length}
    (h : ∀ a rest hrest, (next a rest hrest).ReportsOf (parts a rest)) :
    ((expect kind ts).andThen next).ReportsOf ((expect kind ts).onward parts) := by
  have hnone := reports_expect kind ts
  generalize expect kind ts = r at hnone
  obtain ⟨value, reports, rest, hlen⟩ := r
  cases hnone
  cases value with
  | ok a => exact h a rest hlen
  | error d => rfl

theorem reports_integer (literal : String) (ts : List Token) :
    (integer literal ts).reports = [] := by
  unfold integer
  split <;> rfl

theorem reports_ended (s : Stmt) (ts : List Token) : (ended s ts).reports = [] := by
  unfold ended
  split <;> rfl

theorem reports_exprFrom (min : Precedence) (first : Token) (ts : List Token) :
    (exprFrom min first ts).reports = (Stage.expr min (first :: ts)).reports := by
  rw [Stage.reports, expr]
  rfl

/-! ### The reports of each phrase are those of its parts -/

theorem reportsOf_expr (min : Precedence) (ts : List Token) :
    (expr min ts).ReportsOf (Stage.expr min ts).parts := by
  cases ts with
  | nil =>
    rw [expr]
    rfl
  | cons first ts =>
    rw [expr, exprFrom]
    refine Reading.reportsOf_after (Attempt.reportsOf_andThen rfl fun left rest _ => ?_)
    exact (List.append_nil _).symm

theorem reportsOf_operand (first : Token) (ts : List Token) :
    (operand first ts).ReportsOf (Stage.operand first ts).parts := by
  rw [operand.eq_def, Stage.parts]
  obtain ⟨kind, literal⟩ := first
  dsimp only
  split
  · rfl
  · exact reports_integer literal ts
  · rfl
  · rfl
  · exact (List.append_nil _).symm
  · exact (List.append_nil _).symm
  · exact Attempt.reportsOf_last rfl fun _ ts₁ _ => reports_expect .parenRight ts₁
  · refine reportsOf_expect_andThen fun _ ts₁ _ => ?_
    refine Attempt.reportsOf_andThen rfl fun _ ts₂ _ => ?_
    refine reportsOf_expect_andThen fun _ ts₃ _ => ?_
    refine reportsOf_expect_andThen fun _ ts₄ _ => ?_
    exact congrArg ((block ts₄).reports ++ ·) (List.append_nil _).symm
  · refine reportsOf_expect_andThen fun _ ts₁ _ => ?_
    refine Attempt.reportsOf_andThen rfl fun _ ts₂ _ => ?_
    refine reportsOf_expect_andThen fun _ ts₃ _ => ?_
    rfl
  · split <;> first | rfl | contradiction

theorem reportsOf_operators (min : Precedence) (left : Expr) (ts : List Token) :
    (operators min left ts).ReportsOf (Stage.operators min left ts).parts := by
  cases ts with
  | nil =>
    rw [operators]
    rfl
  | cons token ts =>
    rw [operators, Stage.parts]
    split
    · cases BinaryOp.ofKind? token.kind with
      | some op =>
        refine Reading.reportsOf_after (Attempt.reportsOf_andThen rfl fun right rest _ => ?_)
        exact (List.append_nil _).symm
      | none =>
        refine Reading.reportsOf_after (Attempt.reportsOf_andThen rfl fun es rest _ => ?_)
        exact (List.append_nil _).symm
    · rfl

/-- Some phrases are told from others by the kind of their first token. -/
theorem starts_or_not (kind : TokenKind) (ts : List Token) :
    (∃ l rest, ts = ⟨kind, l⟩ :: rest) ∨ ∀ l rest, ts = ⟨kind, l⟩ :: rest → False := by
  by_cases h : ∃ l rest, ts = ⟨kind, l⟩ :: rest
  · exact .inl h
  · exact .inr fun l rest heq => h ⟨l, rest, heq⟩

theorem reportsOf_arguments (ts : List Token) :
    (arguments ts).ReportsOf (Stage.arguments ts).parts := by
  obtain ⟨l, rest, rfl⟩ | hclose := starts_or_not .parenRight ts
  · rw [arguments, Stage.parts]
    rfl
  · rw [arguments, Stage.parts]
    · refine Attempt.reportsOf_andThen rfl fun argument rest _ => ?_
      exact (List.append_nil _).symm
    · exact hclose
    · exact hclose

theorem reportsOf_moreArguments (ts : List Token) :
    (moreArguments ts).ReportsOf (Stage.moreArguments ts).parts := by
  obtain ⟨l, rest, rfl⟩ | hcomma := starts_or_not .comma ts
  · rw [moreArguments, Stage.parts]
    refine Reading.reportsOf_after (Attempt.reportsOf_andThen rfl fun argument rest _ => ?_)
    exact (List.append_nil _).symm
  · rw [moreArguments, Stage.parts]
    · exact reports_expect .parenRight ts
    · exact hcomma
    · exact hcomma

theorem reportsOf_parameters (ts : List Token) :
    (parameters ts).ReportsOf (Stage.parameters ts).parts := by
  obtain ⟨l, rest, rfl⟩ | hclose := starts_or_not .parenRight ts
  · rw [parameters, Stage.parts]
    rfl
  · rw [parameters, Stage.parts]
    · refine reportsOf_expect_andThen fun name rest _ => ?_
      exact (List.append_nil _).symm
    · exact hclose
    · exact hclose

theorem reportsOf_moreParameters (ts : List Token) :
    (moreParameters ts).ReportsOf (Stage.moreParameters ts).parts := by
  obtain ⟨l, rest, rfl⟩ | hcomma := starts_or_not .comma ts
  · rw [moreParameters, Stage.parts]
    refine Reading.reportsOf_after (reportsOf_expect_andThen fun name rest _ => ?_)
    exact (List.append_nil _).symm
  · rw [moreParameters, Stage.parts]
    · exact reports_expect .parenRight ts
    · exact hcomma
    · exact hcomma

theorem reportsOf_alternative (ts : List Token) :
    (alternative ts).ReportsOf (Stage.alternative ts).parts := by
  obtain ⟨l, rest, rfl⟩ | helse := starts_or_not (.keyword .elseWord) ts
  · rw [alternative, Stage.parts]
    refine Reading.reportsOf_after (reportsOf_expect_andThen fun _ rest _ => ?_)
    rfl
  · rw [alternative, Stage.parts]
    · rfl
    · exact helse
    · exact helse

theorem reportsOf_statement (first : Token) (ts : List Token) :
    (statement first ts).ReportsOf (Stage.statement first ts).parts := by
  rw [statement.eq_def, Stage.parts]
  have hfirst := reports_exprFrom .lowest first ts
  have hexpr : Reading.ReportsOf
      ((exprFrom .lowest first ts).andThen fun value rest _ => ended (.expr value) rest)
      [Stage.expr .lowest (first :: ts)] :=
    Attempt.reportsOf_last hfirst fun value rest _ => reports_ended (.expr value) rest
  obtain ⟨kind, literal⟩ := first
  cases kind with
  | keyword word =>
    cases word with
    | letWord =>
      refine reportsOf_expect_andThen fun name ts₁ _ => ?_
      refine reportsOf_expect_andThen fun _ ts₂ _ => ?_
      exact Attempt.reportsOf_last rfl fun value ts₃ _ =>
        reports_ended (.bind name.literal value) ts₃
    | returnWord =>
      exact Attempt.reportsOf_last rfl fun value ts₁ _ => reports_ended (.ret value) ts₁
    | _ => exact hexpr
  | _ => exact hexpr

theorem reportsOf_block (ts : List Token) : (block ts).ReportsOf (Stage.block ts).parts := by
  cases ts with
  | nil =>
    rw [block]
    rfl
  | cons first ts =>
    rw [block, Stage.parts]
    split
    · rfl
    · rw [← Attempt.rest_settle]
      exact congrArg ((statement first ts).settle.reports ++ ·) (List.append_nil _).symm

theorem reportsOf_statements (ts : List Token) :
    (statements ts).ReportsOf (Stage.text ts).parts := by
  cases ts with
  | nil =>
    rw [statements]
    rfl
  | cons first ts =>
    rw [statements, Stage.parts, ← Attempt.rest_settle]
    exact congrArg ((statement first ts).settle.reports ++ ·) (List.append_nil _).symm

/-- What reading a phrase reports is what its parts report, one after the other, and last of all
that the phrase itself is dropped. -/
theorem Stage.reports_eq (stage : Stage) :
    stage.reports = stage.parts.flatMap reports ++ stage.dropped := by
  cases stage with
  | text ts => exact (reportsOf_statements ts).trans (List.append_nil _).symm
  | block ts => exact (reportsOf_block ts).trans (List.append_nil _).symm
  | statement first ts =>
    have hstatement := reportsOf_statement first ts
    rw [Stage.reports, ← hstatement, Attempt.settle, dropped]
    split
    · next hvalue =>
      rw [hvalue]
      exact (List.append_nil _).symm
    · next hvalue => rw [hvalue]
  | expr min ts => exact (reportsOf_expr min ts).trans (List.append_nil _).symm
  | operand first ts => exact (reportsOf_operand first ts).trans (List.append_nil _).symm
  | operators min left ts => exact (reportsOf_operators min left ts).trans (List.append_nil _).symm
  | arguments ts => exact (reportsOf_arguments ts).trans (List.append_nil _).symm
  | moreArguments ts => exact (reportsOf_moreArguments ts).trans (List.append_nil _).symm
  | parameters ts => exact (reportsOf_parameters ts).trans (List.append_nil _).symm
  | moreParameters ts => exact (reportsOf_moreParameters ts).trans (List.append_nil _).symm
  | alternative ts => exact (reportsOf_alternative ts).trans (List.append_nil _).symm

end Phrase

end LetScript
