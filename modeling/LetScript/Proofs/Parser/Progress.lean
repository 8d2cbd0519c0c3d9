import LetScript.Parser
import LetScript.Proofs.Parser.Parts
import Mathlib.Data.List.Chain
import Mathlib.Logic.Relation

/-! Reading ends. Every part of a phrase starts at the same token as the phrase, or at a
later one; a part that starts at the same one is read by a rule of lower rank. So between
two readings by one rule, one inside the other or one turn of a loop after the other, a
token is passed, and the tokens that are left bound how deep phrases nest and how often
loops turn. -/
namespace LetScript

namespace Phrase

/-- A phrase starts phrases of lower rank only, unless it has passed a token. -/
def Rule.rank : Rule → Nat
  | .text | .block => 3
  | .statement | .arguments => 2
  | .expr | .parameters => 1
  | .operand | .operators | .moreArguments | .moreParameters | .alternative => 0

theorem Rule.rank_le (rule : Rule) : rule.rank ≤ 3 := by
  cases rule <;> decide

end Phrase

open Phrase (Stage)

variable {α : Type} {n : Nat}

theorem Attempt.mem_onward {r : Attempt α n} {next : α → List Token → List Stage} {stage : Stage}
    (h : stage ∈ r.onward next) : ∃ a ts, ts.length ≤ n ∧ stage ∈ next a ts := by
  unfold onward at h
  split at h
  · exact ⟨_, r.rest, r.length_rest_le, h⟩
  · cases h

theorem Attempt.mem_onward_singleton {r : Attempt α n} {next : α → List Token → Stage}
    {stage : Stage} (h : stage ∈ r.onward fun a ts => [next a ts]) :
    ∃ a ts, ts.length ≤ n ∧ stage = next a ts := by
  obtain ⟨a, ts, hts, h⟩ := mem_onward h
  exact ⟨a, ts, hts, List.mem_singleton.mp h⟩

namespace Phrase.Stage

/-- How many tokens are left. -/
def left (stage : Stage) : Nat :=
  stage.tokens.length

/-- What every part of a phrase has less of. -/
def size (stage : Stage) : Nat :=
  4 * stage.left + stage.rule.rank

variable {a b : Stage}

theorem size_lt_of_left_lt (h : b.left < a.left) : b.size < a.size := by
  have := b.rule.rank_le
  unfold size
  omega

theorem size_lt_of_rank_lt (h : b.left ≤ a.left) (hrank : b.rule.rank < a.rule.rank) :
    b.size < a.size := by
  unfold size
  omega

/-- The parts of a phrase that starts with `first` after that token. -/
theorem size_lt_of_passed {k : Nat} (hb : b.left ≤ k) (ha : a.left = k + 1) : b.size < a.size :=
  size_lt_of_left_lt (by omega)

theorem size_lt_of_mem_parts_statement {first : Token} {ts : List Token}
    (h : b ∈ (statement first ts).parts) : b.size < (statement first ts).size := by
  rw [parts] at h
  split at h
  · obtain ⟨_, ts₁, hts₁, h⟩ := Attempt.mem_onward h
    obtain ⟨_, ts₂, hts₂, rfl⟩ := Attempt.mem_onward_singleton h
    exact size_lt_of_passed (Nat.le_trans hts₂ hts₁) rfl
  · obtain rfl := List.mem_singleton.mp h
    exact size_lt_of_passed (Nat.le_refl _) rfl
  · obtain rfl := List.mem_singleton.mp h
    exact size_lt_of_rank_lt (Nat.le_refl _) (by simp [rule, Rule.rank])

theorem size_lt_of_mem_parts_operand {first : Token} {ts : List Token}
    (h : b ∈ (operand first ts).parts) : b.size < (operand first ts).size := by
  rw [parts] at h
  split at h
  · obtain rfl := List.mem_singleton.mp h
    exact size_lt_of_passed (Nat.le_refl _) rfl
  · obtain rfl := List.mem_singleton.mp h
    exact size_lt_of_passed (Nat.le_refl _) rfl
  · obtain rfl := List.mem_singleton.mp h
    exact size_lt_of_passed (Nat.le_refl _) rfl
  · obtain ⟨_, ts₁, hts₁, h⟩ := Attempt.mem_onward h
    obtain rfl | h := List.mem_cons.mp h
    · exact size_lt_of_passed hts₁ rfl
    · obtain ⟨_, ts₂, hts₂, h⟩ := Attempt.mem_onward h
      obtain ⟨_, ts₃, hts₃, h⟩ := Attempt.mem_onward h
      obtain ⟨_, ts₄, hts₄, h⟩ := Attempt.mem_onward h
      have hblock : ts₄.length ≤ ts.length := by omega
      have hrest := (Phrase.block ts₄).length_rest_le
      obtain rfl | rfl := List.mem_pair.mp h
      · exact size_lt_of_passed hblock rfl
      · exact size_lt_of_passed (Nat.le_trans hrest hblock) rfl
  · obtain ⟨_, ts₁, hts₁, h⟩ := Attempt.mem_onward h
    obtain rfl | h := List.mem_cons.mp h
    · exact size_lt_of_passed hts₁ rfl
    · obtain ⟨_, ts₂, hts₂, h⟩ := Attempt.mem_onward h
      obtain ⟨_, ts₃, hts₃, rfl⟩ := Attempt.mem_onward_singleton h
      have hblock : ts₃.length ≤ ts.length := by omega
      exact size_lt_of_passed hblock rfl
  · cases h

theorem size_lt_of_mem_parts_operators {min : Precedence} {left : Expr} {ts : List Token}
    (h : b ∈ (operators min left ts).parts) : b.size < (operators min left ts).size := by
  cases ts with
  | nil => cases h
  | cons token ts =>
    rw [parts] at h
    split at h
    · split at h
      · obtain rfl | h := List.mem_cons.mp h
        · exact size_lt_of_passed (Nat.le_refl _) rfl
        · obtain ⟨_, ts₁, hts₁, rfl⟩ := Attempt.mem_onward_singleton h
          exact size_lt_of_passed hts₁ rfl
      · obtain rfl | h := List.mem_cons.mp h
        · exact size_lt_of_passed (Nat.le_refl _) rfl
        · obtain ⟨_, ts₁, hts₁, rfl⟩ := Attempt.mem_onward_singleton h
          exact size_lt_of_passed hts₁ rfl
    · cases h

theorem size_lt_of_mem_parts (h : b ∈ a.parts) : b.size < a.size := by
  cases a with
  | statement first ts => exact size_lt_of_mem_parts_statement h
  | operand first ts => exact size_lt_of_mem_parts_operand h
  | operators min left ts => exact size_lt_of_mem_parts_operators h
  | text ts =>
    cases ts with
    | nil => cases h
    | cons first ts =>
      obtain rfl | rfl := List.mem_pair.mp h
      · exact size_lt_of_rank_lt (Nat.le_refl _) (by simp [rule, Rule.rank])
      · exact size_lt_of_passed (Phrase.statement first ts).length_rest_le rfl
  | block ts =>
    cases ts with
    | nil => cases h
    | cons first ts =>
      rw [parts] at h
      split at h
      · cases h
      · obtain rfl | rfl := List.mem_pair.mp h
        · exact size_lt_of_rank_lt (Nat.le_refl _) (by simp [rule, Rule.rank])
        · exact size_lt_of_passed (Phrase.statement first ts).length_rest_le rfl
  | expr min ts =>
    cases ts with
    | nil => cases h
    | cons first ts =>
      obtain rfl | h := List.mem_cons.mp h
      · exact size_lt_of_rank_lt (Nat.le_refl _) (by simp [rule, Rule.rank])
      · obtain ⟨_, ts₁, hts₁, rfl⟩ := Attempt.mem_onward_singleton h
        exact size_lt_of_passed hts₁ rfl
  | arguments ts =>
    rw [parts.eq_def] at h
    dsimp only at h
    split at h
    · cases h
    · obtain rfl | h := List.mem_cons.mp h
      · exact size_lt_of_rank_lt (Nat.le_refl _) (by simp [rule, Rule.rank])
      · obtain ⟨_, ts₁, hts₁, rfl⟩ := Attempt.mem_onward_singleton h
        exact size_lt_of_rank_lt hts₁ (by simp [rule, Rule.rank])
  | moreArguments ts =>
    rw [parts.eq_def] at h
    dsimp only at h
    split at h
    · obtain rfl | h := List.mem_cons.mp h
      · exact size_lt_of_passed (Nat.le_refl _) rfl
      · obtain ⟨_, ts₁, hts₁, rfl⟩ := Attempt.mem_onward_singleton h
        exact size_lt_of_passed hts₁ rfl
    · cases h
  | parameters ts =>
    rw [parts.eq_def] at h
    dsimp only at h
    split at h
    · cases h
    · obtain ⟨_, ts₁, hts₁, rfl⟩ := Attempt.mem_onward_singleton h
      exact size_lt_of_rank_lt hts₁ (by simp [rule, Rule.rank])
  | moreParameters ts =>
    rw [parts.eq_def] at h
    dsimp only at h
    split at h
    · obtain ⟨_, ts₁, hts₁, rfl⟩ := Attempt.mem_onward_singleton h
      exact size_lt_of_passed hts₁ rfl
    · cases h
  | alternative ts =>
    rw [parts.eq_def] at h
    dsimp only at h
    split at h
    · obtain ⟨_, ts₁, hts₁, rfl⟩ := Attempt.mem_onward_singleton h
      exact size_lt_of_passed hts₁ rfl
    · cases h

/-- The second stage is a part of the first, or a part of a part, and so on. -/
def Contains : Stage → Stage → Prop :=
  Relation.TransGen fun whole part => part ∈ whole.parts

theorem Contains.size_lt (h : a.Contains b) : b.size < a.size := by
  induction h with
  | single h => exact size_lt_of_mem_parts h
  | tail _ h ih => exact Nat.lt_trans (size_lt_of_mem_parts h) ih

/-- Where a rule comes back to itself, a token has been passed. -/
theorem Contains.left_lt (h : a.Contains b) (hrule : b.rule = a.rule) : b.left < a.left := by
  have hsize := h.size_lt
  rw [size, size, hrule] at hsize
  omega

theorem wellFounded_parts : WellFounded fun part whole : Stage => part ∈ whole.parts :=
  Subrelation.wf size_lt_of_mem_parts (InvImage.wf size Nat.lt_wfRel.wf)

theorem length_le_size {nested : List Stage}
    (h : (a :: nested).IsChain fun whole part => part ∈ whole.parts) : nested.length ≤ a.size := by
  induction nested generalizing a with
  | nil => exact Nat.zero_le _
  | cons b nested ih =>
    obtain ⟨hpart, hchain⟩ := List.isChain_cons_cons.mp h
    exact Nat.lt_of_le_of_lt (ih hchain) (size_lt_of_mem_parts hpart)

theorem length_le_left {nested : List Stage} (h : (a :: nested).IsChain Contains)
    (hrule : ∀ b ∈ nested, b.rule = a.rule) : nested.length ≤ a.left := by
  induction nested generalizing a with
  | nil => exact Nat.zero_le _
  | cons b nested ih =>
    obtain ⟨hcontains, hchain⟩ := List.isChain_cons_cons.mp h
    obtain ⟨hb, hnested⟩ := List.forall_mem_cons.mp hrule
    have hlength := ih hchain fun c hc => (hnested c hc).trans hb.symm
    exact Nat.lt_of_le_of_lt hlength (hcontains.left_lt hb)

end Phrase.Stage

namespace Lexer

theorem kind_tokenAt_ne_eof (c : Char) (rest : List Char) : (tokenAt c rest).1.kind ≠ .eof := by
  unfold tokenAt
  split
  · nofun
  · nofun
  · split
    · next kind h =>
      rintro rfl
      unfold symbol? at h
      split at h <;> cases h
    · split
      · show TokenKind.ofWord _ ≠ .eof
        unfold TokenKind.ofWord
        split <;> nofun
      · split <;> nofun

/-- The mark of the end is none of the tokens that are cut from a text. -/
theorem kind_ne_eof_of_mem_tokens {cs : List Char} {token : Token} (h : token ∈ tokens cs) :
    token.kind ≠ .eof := by
  fun_induction tokens cs with
  | case1 => cases h
  | case2 cs c rest _ ih =>
    obtain rfl | h := List.mem_cons.mp h
    · exact kind_tokenAt_ne_eof c rest
    · exact ih h

end Lexer

theorem Phrase.rest_statements (ts : List Token) : (statements ts).rest = [] := by
  cases ts with
  | nil =>
    rw [statements]
    rfl
  | cons first ts =>
    rw [statements]
    exact rest_statements (statement first ts).settle.rest
termination_by ts.length
decreasing_by
  have := (statement first ts).settle.length_rest_le
  simp only [List.length_cons]
  omega

namespace Parser

theorem tokens_program (parser : Parser) : parser.program.2.tokens = [] :=
  Phrase.rest_statements parser.tokens

/-- There is nothing to read after the end of the text, and nothing to report. -/
theorem program_of_tokens_eq_nil {parser : Parser} (h : parser.tokens = []) :
    parser.program = (⟨[]⟩, parser) := by
  obtain ⟨tokens, diagnostics⟩ := parser
  cases h
  rw [program, Phrase.statements]
  simp [Reading.done]

/-- Reading ends. Whatever the text, a rule that comes back to itself, in a phrase of the phrase or
in the next turn of a loop, has passed a token, so the tokens that are left bound how often it does,
and how long any chain of phrases is; and reading on after the end reads and reports nothing. The
parts of a phrase are all that is read in it: what it reports is what they report. -/
theorem passes_tokens :
    (∀ a b : Stage, a.Contains b → b.rule = a.rule → b.left < a.left) ∧
    (∀ (a : Stage) (nested : List Stage), (a :: nested).IsChain Stage.Contains →
      (∀ b ∈ nested, b.rule = a.rule) → nested.length ≤ a.left) ∧
    WellFounded (fun part whole : Stage => part ∈ whole.parts) ∧
    (∀ (text : String) (nested : List Stage),
      (Stage.text (ofText text).tokens :: nested).IsChain (fun whole part => part ∈ whole.parts) →
        nested.length ≤ 4 * (ofText text).tokens.length + 3) ∧
    (∀ stage : Stage, stage.reports = stage.parts.flatMap Stage.reports ++ stage.dropped) ∧
    (∀ (text : String), ∀ token ∈ (ofText text).tokens, token.kind ≠ .eof) ∧
    ∀ parser : Parser, parser.program.2.tokens = [] ∧
      parser.program.2.program = (⟨[]⟩, parser.program.2) := by
  refine ⟨fun a b => Stage.Contains.left_lt, fun a nested => Stage.length_le_left,
    Stage.wellFounded_parts, fun text nested => Stage.length_le_size, Stage.reports_eq,
    fun text token => Lexer.kind_ne_eof_of_mem_tokens, fun parser => ?_⟩
  have hend := parser.tokens_program
  exact ⟨hend, program_of_tokens_eq_nil hend⟩

/-- In `fn() { x }` the statement between the braces starts when two of the six tokens are left. -/
theorem passes_tokens_to_body :
    let inner := Stage.statement ⟨.identifier, "x"⟩ [⟨.braceRight, "\x7d"⟩]
    let outer := Stage.statement ⟨.keyword .fnWord, "fn"⟩ [⟨.parenLeft, "("⟩, ⟨.parenRight, ")"⟩,
      ⟨.braceLeft, "\x7b"⟩, ⟨.identifier, "x"⟩, ⟨.braceRight, "\x7d"⟩]
    outer.Contains inner ∧ inner.rule = outer.rule ∧ inner.left < outer.left ∧
      [inner].length ≤ outer.left := by
  intro inner outer
  have hcontains : outer.Contains inner :=
    .head (List.mem_singleton.mpr rfl) (.head List.mem_cons_self
      (.head (List.mem_cons_of_mem _ List.mem_cons_self) (.single List.mem_cons_self)))
  refine ⟨hcontains, rfl, passes_tokens.1 outer inner hcontains rfl, ?_⟩
  exact passes_tokens.2.1 outer [inner] (List.isChain_pair.mpr hcontains)
    (List.forall_mem_singleton.mpr rfl)

end Parser

end LetScript
