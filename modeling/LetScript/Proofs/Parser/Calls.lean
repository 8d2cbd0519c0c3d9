import LetScript.Proofs.Parser.Course
import LetScript.Proofs.Parser.Progress
import Mathlib.Data.List.Perm.Subperm

/-! The statements that are started while a text is read, at any depth, also in phrases that
are given up later. Each of them starts at a token of its own. A text's diagnostics are
those of the statements that are given up, one of each, so none is dropped silently. -/
namespace LetScript

open Phrase (Stage Rule)

namespace Phrase.Stage

/-- The phrases within a phrase and then the phrase itself, in the order in which reading them
ends. -/
def within (whole : Stage) : List Stage :=
  whole.parts.attach.flatMap (fun part => within part.1) ++ [whole]
termination_by whole.size
decreasing_by exact size_lt_of_mem_parts part.2

theorem within_eq (whole : Stage) : whole.within = whole.parts.flatMap within ++ [whole] := by
  rw [within]
  simp

/-- The statements within a phrase. -/
def calls (whole : Stage) : List Stage :=
  whole.within.filter (·.rule = .statement)

/-- The statements in the parts of a phrase. -/
def nested (whole : Stage) : List Stage :=
  whole.parts.flatMap calls

theorem calls_eq (whole : Stage) :
    whole.calls = whole.nested ++ if whole.rule = .statement then [whole] else [] := by
  rw [calls, within_eq, List.filter_append, List.filter_flatMap, List.filter_singleton]
  simp only [Bool.cond_decide]
  rfl

theorem mem_calls {whole call : Stage} :
    call ∈ whole.calls ↔ call ∈ whole.nested ∨ call = whole ∧ whole.rule = .statement := by
  rw [calls_eq, List.mem_append]
  split <;> simp_all

theorem mem_nested {whole call : Stage} :
    call ∈ whole.nested ↔ ∃ part ∈ whole.parts, call ∈ part.calls :=
  List.mem_flatMap

theorem rule_of_mem_calls {whole call : Stage} (h : call ∈ whole.calls) :
    call.rule = .statement := by
  simpa using List.of_mem_filter h

theorem contains_of_mem_nested {whole call : Stage} (h : call ∈ whole.nested) :
    whole.Contains call := by
  induction whole using wellFounded_parts.induction with
  | _ whole ih =>
    obtain ⟨part, hpart, hcall⟩ := mem_nested.mp h
    obtain hcall | ⟨rfl, -⟩ := mem_calls.mp hcall
    · exact .head hpart (ih part hpart hcall)
    · exact .single hpart

theorem mem_nested_of_contains {whole call : Stage} (h : whole.Contains call)
    (hrule : call.rule = .statement) : call ∈ whole.nested := by
  induction h using Relation.TransGen.head_induction_on with
  | single hpart => exact mem_nested.mpr ⟨call, hpart, mem_calls.mpr (.inr ⟨rfl, hrule⟩)⟩
  | head hpart _ ih => exact mem_nested.mpr ⟨_, hpart, mem_calls.mpr (.inl ih)⟩

/-! ### What is reported -/

theorem dropped_eq (whole : Stage) :
    whole.dropped = if whole.rule = .statement then whole.failure.toList else [] := by
  cases whole with
  | statement first ts =>
    simp only [dropped, rule, failure, Attempt.failure]
    split <;> simp_all
  | _ => simp [dropped, rule]

theorem reports_eq_failures (whole : Stage) : whole.reports = whole.calls.filterMap failure := by
  induction whole using wellFounded_parts.induction with
  | _ whole ih =>
    rw [reports_eq, calls_eq, nested, List.filterMap_append, List.filterMap_flatMap, dropped_eq]
    congr 1
    · exact List.flatMap_congr ih
    · split
      · cases h : whole.failure <;> simp [h]
      · rfl

end Phrase.Stage

/-! ### Where statements start -/

namespace InOrder

variable {ts rest : List Token} {stages : List Stage}

theorem mem (h : InOrder ts stages rest) {stage : Stage} (hstage : stage ∈ stages) :
    stage.tokens <:+ ts ∧ rest <:+ stage.rest := by
  induction stages generalizing ts with
  | nil => cases hstage
  | cons first stages ih =>
    obtain rfl | hstage := List.mem_cons.mp hstage
    · exact ⟨h.1, h.2.suffix fun stage _ => stage.rest_suffix⟩
    · obtain ⟨htokens, hrest⟩ := ih h.2 hstage
      exact ⟨(htokens.trans first.rest_suffix).trans h.1, hrest⟩

theorem pairwise (h : InOrder ts stages rest) :
    stages.Pairwise fun a b => b.tokens <:+ a.rest := by
  induction stages generalizing ts with
  | nil => exact .nil
  | cons first stages ih => exact .cons (fun stage hstage => (h.2.mem hstage).1) (ih h.2)

end InOrder

namespace Phrase.Stage

theorem suffix_of_mem_calls {whole call : Stage} (h : call ∈ whole.calls) :
    call.tokens <:+ whole.tokens ∧ whole.rest <:+ call.rest := by
  induction whole using wellFounded_parts.induction with
  | _ whole ih =>
    obtain hcall | ⟨rfl, -⟩ := mem_calls.mp h
    · obtain ⟨part, hpart, hcall⟩ := mem_nested.mp hcall
      obtain ⟨htokens, hrest⟩ := ih part hpart hcall
      obtain ⟨hpart, hafter⟩ := whole.inOrder.mem hpart
      exact ⟨htokens.trans hpart, hafter.trans hrest⟩
    · exact ⟨List.suffix_rfl, List.suffix_rfl⟩

/-- Of two statements the later one starts where the earlier one has ended, or the earlier one is in
a part of the later one. -/
theorem pairwise_calls {R : Stage → Stage → Prop} (whole : Stage)
    (hnext : ∀ a ∈ whole.calls, ∀ b ∈ whole.calls, b.tokens <:+ a.rest → R a b)
    (hnested : ∀ b ∈ whole.calls, ∀ a ∈ b.nested, R a b) : whole.calls.Pairwise R := by
  induction whole using wellFounded_parts.induction with
  | _ whole ih =>
    have hpart {part call : Stage} (hpart : part ∈ whole.parts) (hcall : call ∈ part.calls) :
        call ∈ whole.calls :=
      mem_calls.mpr (.inl (mem_nested.mpr ⟨part, hpart, hcall⟩))
    have hparts : whole.nested.Pairwise R := by
      refine List.pairwise_flatMap.mpr ⟨fun part hp => ?_, ?_⟩
      · exact ih part hp (fun a ha b hb => hnext a (hpart hp ha) b (hpart hp hb))
          fun b hb => hnested b (hpart hp hb)
      · refine whole.inOrder.pairwise.imp_of_mem fun {p q} hp hq hpq a ha b hb => ?_
        have hafter := (suffix_of_mem_calls hb).1.trans (hpq.trans (suffix_of_mem_calls ha).2)
        exact hnext a (hpart hp ha) b (hpart hq hb) hafter
    rw [calls_eq]
    split
    · next hrule =>
      refine List.pairwise_append.mpr ⟨hparts, List.pairwise_singleton _ _, fun a ha b hb => ?_⟩
      obtain rfl := List.mem_singleton.mp hb
      exact hnested b (mem_calls.mpr (.inr ⟨rfl, hrule⟩)) a ha
    · rwa [List.append_nil]

/-- A statement takes its first token. -/
theorem length_rest_lt {call : Stage} (h : call.rule = .statement) :
    call.rest.length < call.left := by
  cases call with
  | statement first ts => exact Nat.lt_succ_of_le (Phrase.statement first ts).length_rest_le
  | _ => cases h

theorem nodup_calls (whole : Stage) : (whole.calls.map left).Nodup := by
  refine List.pairwise_map.mpr (whole.pairwise_calls (fun a ha b hb h => ?_) fun b hb a ha => ?_)
  · have := length_rest_lt (rule_of_mem_calls ha)
    have : b.left ≤ a.rest.length := h.length_le
    omega
  · have hcontains := contains_of_mem_nested ha
    obtain ⟨_, _, ha⟩ := mem_nested.mp ha
    exact (hcontains.left_lt ((rule_of_mem_calls ha).trans (rule_of_mem_calls hb).symm)).ne

theorem length_calls_le (whole : Stage) : whole.calls.length ≤ whole.left := by
  have hsubset : whole.calls.map left ⊆ List.range' 1 whole.left := by
    intro k hk
    obtain ⟨call, hcall, rfl⟩ := List.mem_map.mp hk
    have hstart := length_rest_lt (rule_of_mem_calls hcall)
    have hend : call.left ≤ whole.left := (suffix_of_mem_calls hcall).1.length_le
    exact List.mem_range'_1.mpr (by omega)
  simpa using (List.Nodup.subperm whole.nodup_calls hsubset).length_le

/-- Only the loops over statements start statements. -/
theorem rule_of_statement_mem_parts {whole part : Stage} (h : part ∈ whole.parts)
    (hrule : part.rule = .statement) : whole.rule = .text ∨ whole.rule = .block := by
  obtain ⟨hloop, -⟩ | hcourse := whole.loops_or_course
  · exact hloop
  · have hpart := hcourse.isInner_or_block part h
    rw [hrule] at hpart
    obtain h | h := hpart <;> cases h

end Phrase.Stage

/-! ### What becomes of statements -/

theorem Attempt.value_settle {α : Type} {n : Nat} (r : Attempt α n) :
    r.settle.value = r.value.toOption.toList := by
  obtain ⟨value, reports, rest, hlen⟩ := r
  cases value <;> rfl

theorem Attempt.exists_toOption_iff {α : Type} {n : Nat} {r : Attempt α n} :
    (∃ a, r.value.toOption = some a) ↔ r.failure = none := by
  obtain ⟨value, reports, rest, hlen⟩ := r
  cases value with
  | ok a => exact ⟨fun _ => rfl, fun _ => ⟨a, rfl⟩⟩
  | error d => exact ⟨nofun, nofun⟩

namespace Phrase

/-- The statements that the loop over a text starts itself, one in each turn. -/
def turns : List Token → List Stage
  | [] => []
  | first :: ts => .statement first ts :: turns (statement first ts).rest
termination_by ts => ts.length
decreasing_by exact Nat.lt_succ_of_le (statement first ts).length_rest_le

/-- The statement that is read, unless it is given up. -/
def Stage.statement? : Stage → Option Stmt
  | .statement first ts => (Phrase.statement first ts).value.toOption
  | _ => none

theorem Stage.exists_statement?_iff {call : Stage} (h : call.rule = .statement) :
    (∃ s, call.statement? = some s) ↔ call.failure = none := by
  cases call with
  | statement first ts => exact Attempt.exists_toOption_iff
  | _ => cases h

theorem value_statements_cons (first : Token) (ts : List Token) :
    (statements (first :: ts)).value =
      (statement first ts).settle.value ++ (statements (statement first ts).rest).value := by
  rw [statements, ← Attempt.rest_settle]
  rfl

theorem turns_sublist_calls (ts : List Token) : (turns ts).Sublist (Stage.text ts).calls := by
  induction ts using turns.induct with
  | case1 =>
    rw [turns]
    exact List.nil_sublist _
  | case2 first ts ih =>
    have hcalls : (Stage.text (first :: ts)).calls =
        (Stage.statement first ts).calls ++ (Stage.text (statement first ts).rest).calls := by
      rw [Stage.calls_eq, Stage.nested, Stage.parts]
      simp [Stage.rule]
    have hfirst : [Stage.statement first ts].Sublist (Stage.statement first ts).calls :=
      List.singleton_sublist.mpr (Stage.mem_calls.mpr (.inr ⟨rfl, rfl⟩))
    rw [turns, hcalls]
    exact hfirst.append ih

/-- The tree has the statements of the turns, one of each that is not given up. -/
theorem value_statements (ts : List Token) :
    (statements ts).value = (turns ts).filterMap Stage.statement? := by
  induction ts using turns.induct with
  | case1 =>
    rw [statements, turns]
    rfl
  | case2 first ts ih =>
    have hfirst : (Stage.statement first ts).statement? = (statement first ts).value.toOption := rfl
    rw [value_statements_cons, turns, ih, Attempt.value_settle, List.filterMap_cons, hfirst]
    cases (statement first ts).value.toOption <;> rfl

end Phrase

theorem Parser.diagnostics_program (text : String) :
    (ofText text).program.2.diagnostics = (Stage.text (ofText text).tokens).reports :=
  List.nil_append _

theorem Program.exists_parse_eq_ok_iff {text : String} :
    (∃ p, Program.parse text = .ok p) ↔ (Parser.ofText text).program.2.diagnostics = [] := by
  rw [Program.parse, ← List.isEmpty_iff]
  dsimp only
  split <;> simp_all

/-- One diagnostic for each statement that is given up. The statements that are started are those
of the loops over the text and over blocks, at any depth. The diagnostics of a text are those of
the started statements that are given up, in the order in which they end, so a text is a program
just when none is. Each starts at another token, none of them the mark of the end. Those that the
loop over the text has started itself make up the tree, without the ones that are given up. -/
theorem Parser.one_diagnostic_per_dropped (text : String) :
    let calls := (Stage.text (ofText text).tokens).calls
    let diagnostics := (ofText text).program.2.diagnostics
    let turns := Phrase.turns (ofText text).tokens
    (∀ call, call ∈ calls ↔
      (Stage.text (ofText text).tokens).Contains call ∧ call.rule = .statement) ∧
    (∀ whole part : Stage, part ∈ whole.parts → part.rule = .statement →
      whole.rule = .text ∨ whole.rule = .block) ∧
    diagnostics = calls.filterMap Stage.failure ∧
    diagnostics.length = calls.countP (·.failure.isSome) ∧
    ((∃ p, Program.parse text = .ok p) ↔ ∀ call ∈ calls, call.failure = none) ∧
    (calls.map Stage.left).Nodup ∧
    (∀ call ∈ calls, ∃ first rest, call.tokens = first :: rest ∧ first.kind ≠ .eof ∧
      first :: rest <:+ (ofText text).tokens) ∧
    diagnostics.length ≤ (tokenize text).countP (·.kind ≠ .eof) ∧
    (ofText text).program.1.statements = turns.filterMap Stage.statement? ∧
    turns.Sublist calls ∧
    ∀ call ∈ calls, (∃ s, call.statement? = some s) ↔ call.failure = none := by
  intro calls diagnostics turns
  have hdiagnostics : diagnostics = calls.filterMap Stage.failure :=
    (diagnostics_program text).trans (Stage.reports_eq_failures _)
  have hlength : diagnostics.length = calls.countP (·.failure.isSome) := by
    rw [hdiagnostics, List.length_filterMap_eq_countP]
  have hkinds : ∀ token ∈ (ofText text).tokens, token.kind ≠ .eof := fun token =>
    Lexer.kind_ne_eof_of_mem_tokens
  refine ⟨fun call => ?_, fun whole part => Stage.rule_of_statement_mem_parts, hdiagnostics,
    hlength, ?_, Stage.nodup_calls _, fun call hcall => ?_, ?_, Phrase.value_statements _,
    Phrase.turns_sublist_calls _, fun call hcall => ?_⟩
  · rw [Stage.mem_calls]
    constructor
    · rintro (h | ⟨-, h⟩)
      · obtain ⟨_, _, hcall⟩ := Stage.mem_nested.mp h
        exact ⟨Stage.contains_of_mem_nested h, Stage.rule_of_mem_calls hcall⟩
      · cases h
    · exact fun h => .inl (Stage.mem_nested_of_contains h.1 h.2)
  · rw [Program.exists_parse_eq_ok_iff, ← List.filterMap_eq_nil_iff, ← hdiagnostics]
  · have hrule := Stage.rule_of_mem_calls hcall
    have hsuffix := (Stage.suffix_of_mem_calls hcall).1
    cases call with
    | statement first ts =>
      exact ⟨first, ts, rfl, hkinds first (hsuffix.subset List.mem_cons_self), hsuffix⟩
    | _ => cases hrule
  · have htokens : (tokenize text).countP (·.kind ≠ .eof) = (ofText text).tokens.length := by
      have hall := List.countP_eq_length.mpr fun t ht => decide_eq_true (hkinds t ht)
      rw [tokenize, List.countP_append]
      exact congrArg (· + 0) hall
    rw [hlength, htokens]
    exact List.countP_le_length.trans (Stage.length_calls_le _)
  · exact Stage.exists_statement?_iff (Stage.rule_of_mem_calls hcall)

end LetScript
