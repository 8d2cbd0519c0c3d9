import LetScript.Proofs.Parser.Calls

/-! Where diagnostics point. A statement is given up at some token, which is the next one if
another is required there, and the one just passed if it cannot be read. A number says
which: it goes down from each statement that ends to the next, except at the end of the
text. So diagnostics are in the order of their tokens, and at most two of them are about
one token, unless that is the mark of the end. -/
namespace LetScript

open Phrase (Stage Rule nextKind)

namespace Diagnostic

/-- What the diagnostic says is true of the token. -/
inductive IsAbout : Diagnostic → Token → Prop where
  | unexpectedToken {expected t} (hexpected : expected ∈ TokenKind.required)
      (hne : expected ≠ t.kind) : IsAbout (.unexpectedToken expected t.kind) t
  | noExpression {t}
      (h : ∀ level l ts e rest, ¬ Grammar.Expression level (⟨t.kind, l⟩ :: ts) e rest) :
      IsAbout (.noExpression t.kind) t
  | integerTooLarge {literal} (h : Int64.maxValue.toInt < Text.Decimal.value literal.toList) :
      IsAbout (.integerTooLarge literal) ⟨.int, literal⟩

/-- Is about a token that is passed over. -/
def passes : Diagnostic → Bool
  | unexpectedToken _ _ => false
  | noExpression found => found ≠ .eof
  | integerTooLarge _ => true

/-- Is about a token of the list, or the mark of its end, that `k` tokens come after, the mark
counted. -/
def Blames (d : Diagnostic) (ts : List Token) (k : Nat) : Prop :=
  ∃ t after, t :: after <:+ ts ++ [.eof] ∧ after.length = k ∧ d.IsAbout t

variable {d : Diagnostic} {t : Token} {ts us : List Token} {k : Nat}

theorem Blames.of_suffix (h : d.Blames ts k) (hts : ts <:+ us) : d.Blames us k := by
  obtain ⟨t, after, hsuffix, hk, habout⟩ := h
  obtain ⟨before, rfl⟩ := hts
  refine ⟨t, after, hsuffix.trans ?_, hk, habout⟩
  rw [List.append_assoc]
  exact List.suffix_append _ _

theorem Blames.le (h : d.Blames ts k) : k ≤ ts.length := by
  obtain ⟨t, after, hsuffix, rfl, -⟩ := h
  have hlength := hsuffix.length_le
  simp only [List.length_append, List.length_cons, List.length_nil] at hlength
  omega

theorem Blames.getElem? (h : d.Blames ts k) :
    ∃ t, (ts ++ [.eof])[ts.length - k]? = some t ∧ d.IsAbout t := by
  obtain ⟨t, after, ⟨before, heq⟩, rfl, habout⟩ := h
  have hlength := congrArg List.length heq
  simp only [List.length_append, List.length_cons, List.length_nil] at hlength
  refine ⟨t, ?_, habout⟩
  rw [← heq, show ts.length - after.length = before.length by omega]
  simp

theorem blames_next {expected : TokenKind} (hexpected : expected ∈ TokenKind.required)
    (hne : nextKind ts ≠ expected) :
    (unexpectedToken expected (nextKind ts)).Blames ts ts.length := by
  cases ts with
  | nil =>
    have habout : (unexpectedToken expected Token.eof.kind).IsAbout .eof :=
      .unexpectedToken hexpected hne.symm
    exact ⟨.eof, [], List.suffix_rfl, rfl, habout⟩
  | cons t ts =>
    exact ⟨t, ts ++ [.eof], List.suffix_rfl, by simp, .unexpectedToken hexpected hne.symm⟩

theorem blames_passed (h : d.IsAbout t) : d.Blames (t :: ts) (ts.length + 1) :=
  ⟨t, ts ++ [.eof], List.suffix_rfl, by simp, h⟩

theorem not_expression_of_begins {t : Token} (h : t.kind.beginsExpression = false)
    (level : Precedence) (l : String) (ts : List Token) (e : Expr) (rest : List Token) :
    ¬ Grammar.Expression level (⟨t.kind, l⟩ :: ts) e rest := by
  intro hexpr
  obtain ⟨first, _, heq, hbegins⟩ := hexpr.begins
  cases heq
  rw [h] at hbegins
  cases hbegins

end Diagnostic

/-! ### Where a phrase stops -/

/-- Where a phrase stops, as a number: twice the tokens that are left, and one more, or two if it is
given up at a token that is passed over. Half of it are the tokens from the blamed one on. -/
def stopAt (failure : Option Diagnostic) (rest : List Token) : Nat :=
  2 * rest.length + if failure.any Diagnostic.passes then 2 else 1

theorem lt_stopAt (failure : Option Diagnostic) (rest : List Token) :
    2 * rest.length < stopAt failure rest := by
  unfold stopAt
  split <;> omega

theorem stopAt_le (failure : Option Diagnostic) (rest : List Token) :
    stopAt failure rest ≤ 2 * rest.length + 2 := by
  unfold stopAt
  split <;> omega

theorem half_stopAt_of_passes {d : Diagnostic} {rest : List Token} (h : d.passes = true) :
    stopAt (some d) rest / 2 = rest.length + 1 := by
  rw [stopAt, Option.any_some, if_pos h]
  omega

theorem half_stopAt_of_not_passes {d : Diagnostic} {rest : List Token} (h : d.passes = false) :
    stopAt (some d) rest / 2 = rest.length := by
  rw [stopAt, Option.any_some, if_neg (by simp [h])]
  omega

namespace Course

variable {rule : Rule} {ts rest : List Token} {parts : List Stage} {failure : Option Diagnostic}

/-- A token that is passed over is one of the phrase. -/
theorem length_rest_lt (h : Course rule ts parts failure rest)
    (hparts : ∀ part ∈ parts, part.failure.any Diagnostic.passes → part.rest.length < part.left)
    (hpasses : failure.any Diagnostic.passes) : rest.length < ts.length := by
  induction h with
  | done | semicolon | missing | noExpressionAtEnd => cases hpasses
  | noExpression | tooLarge => exact Nat.lt_succ_self _
  | take _ _ ih => exact Nat.lt_succ_of_lt (ih hparts hpasses)
  | @part stage _ _ _ _ _ _ ih =>
    have hlater := ih (List.forall_mem_cons.mp hparts).2 hpasses
    exact Nat.lt_of_lt_of_le hlater stage.rest_suffix.length_le
  | broken _ hs => exact List.forall_mem_singleton.mp hparts (hs ▸ hpasses)
  | @block _ ts _ _ _ _ ih =>
    have hlater := ih (List.forall_mem_cons.mp hparts).2 hpasses
    exact Nat.lt_succ_of_lt (Nat.lt_of_lt_of_le hlater (Phrase.block ts).length_rest_le)

end Course

namespace Phrase.Stage

def stop (stage : Stage) : Nat :=
  stopAt stage.failure stage.rest

theorem stop_of_failure_eq_none {stage : Stage} (h : stage.failure = none) :
    stage.stop = 2 * stage.rest.length + 1 := by
  rw [stop, h]
  rfl

theorem length_rest_lt_of_passes (stage : Stage) (h : stage.failure.any Diagnostic.passes) :
    stage.rest.length < stage.left := by
  induction stage using wellFounded_parts.induction with
  | _ stage ih =>
    obtain ⟨-, hfailure⟩ | hcourse := stage.loops_or_course
    · rw [hfailure] at h
      cases h
    · exact hcourse.length_rest_lt ih h

end Phrase.Stage

namespace Course

variable {rule : Rule} {ts rest : List Token} {parts : List Stage} {failure : Option Diagnostic}

theorem stopAt_le (h : Course rule ts parts failure rest) :
    stopAt failure rest ≤ 2 * ts.length + 1 := by
  have hsuffix : rest.length ≤ ts.length :=
    (h.inOrder.suffix fun stage _ => stage.rest_suffix).length_le
  unfold stopAt
  split
  · next hpasses =>
    have := h.length_rest_lt (fun part _ => part.length_rest_lt_of_passes) hpasses
    omega
  · omega

/-- No part stops after the phrase. -/
theorem stopAt_le_stop (h : Course rule ts parts failure rest) :
    ∀ part ∈ parts, stopAt failure rest ≤ part.stop := by
  induction h with
  | done | missing | noExpressionAtEnd | semicolon | noExpression | tooLarge => exact nofun
  | take _ _ ih => exact ih
  | part _ hs h ih =>
    refine List.forall_mem_cons.mpr ⟨?_, ih⟩
    rw [Stage.stop_of_failure_eq_none hs]
    exact h.stopAt_le
  | broken _ hs =>
    refine List.forall_mem_singleton.mpr ?_
    rw [Stage.stop, hs]
  | @block _ ts _ _ _ h ih =>
    refine List.forall_mem_cons.mpr ⟨?_, ih⟩
    have hblock : (Stage.block ts).failure = none := rfl
    rw [Stage.stop_of_failure_eq_none hblock]
    exact h.stopAt_le

/-- What a phrase is given up for is true of the token where it stops. -/
theorem blames (h : Course rule ts parts failure rest) (hkinds : ∀ t ∈ ts, t.kind ≠ .eof)
    (hparts : ∀ part ∈ parts, ∀ d ∈ part.failure, d.Blames part.tokens (part.stop / 2)) :
    ∀ d ∈ failure, d.Blames ts (stopAt failure rest / 2) := by
  induction h with
  | done | semicolon => exact nofun
  | take _ _ ih =>
    have hts := (List.forall_mem_cons.mp hkinds).2
    exact fun d hd => (ih hts hparts d hd).of_suffix (List.suffix_cons _ _)
  | @part stage _ _ _ _ _ _ ih =>
    have hsuffix := stage.rest_suffix
    have hrest : ∀ t ∈ stage.rest, t.kind ≠ .eof := fun t ht => hkinds t (hsuffix.subset ht)
    have hlater := ih hrest (List.forall_mem_cons.mp hparts).2
    exact fun d hd => (hlater d hd).of_suffix hsuffix
  | broken _ hs =>
    rintro d ⟨⟩
    have hstage := List.forall_mem_singleton.mp hparts _ hs
    rwa [Stage.stop, hs] at hstage
  | @block _ ts _ _ _ _ ih =>
    have hsuffix : (Phrase.block ts).rest <:+ ts := (Stage.block ts).rest_suffix
    have hrest : ∀ t ∈ (Phrase.block ts).rest, t.kind ≠ .eof := fun t ht =>
      hkinds t (List.mem_cons_of_mem _ (hsuffix.subset ht))
    have hlater := ih hrest (List.forall_mem_cons.mp hparts).2
    exact fun d hd => (hlater d hd).of_suffix (hsuffix.trans (List.suffix_cons _ _))
  | missing hexpected hne =>
    rintro d ⟨⟩
    rw [half_stopAt_of_not_passes rfl]
    exact Diagnostic.blames_next hexpected hne
  | @noExpression t _ ht =>
    rintro d ⟨⟩
    have hpasses : (Diagnostic.noExpression t.kind).passes = true :=
      decide_eq_true (hkinds t List.mem_cons_self)
    rw [half_stopAt_of_passes hpasses]
    exact Diagnostic.blames_passed (.noExpression (Diagnostic.not_expression_of_begins ht))
  | noExpressionAtEnd =>
    rintro d ⟨⟩
    have habout : (Diagnostic.noExpression Token.eof.kind).IsAbout .eof :=
      .noExpression (Diagnostic.not_expression_of_begins rfl)
    exact ⟨.eof, [], List.suffix_rfl, rfl, habout⟩
  | tooLarge h =>
    rintro d ⟨⟩
    rw [half_stopAt_of_passes rfl]
    exact Diagnostic.blames_passed (.integerTooLarge h)

end Course

namespace Phrase.Stage

theorem stop_le_of_mem_parts {whole part : Stage} (h : part ∈ whole.parts) :
    whole.stop ≤ part.stop := by
  obtain ⟨-, hfailure⟩ | hcourse := whole.loops_or_course
  · have hafter := (whole.inOrder.mem h).2.length_le
    have hstop := lt_stopAt part.failure part.rest
    rw [stop_of_failure_eq_none hfailure, stop]
    omega
  · exact hcourse.stopAt_le_stop part h

theorem blames (stage : Stage) (hkinds : ∀ t ∈ stage.tokens, t.kind ≠ .eof) :
    ∀ d ∈ stage.failure, d.Blames stage.tokens (stage.stop / 2) := by
  induction stage using wellFounded_parts.induction with
  | _ stage ih =>
    obtain ⟨-, hfailure⟩ | hcourse := stage.loops_or_course
    · rw [hfailure]
      exact nofun
    · refine hcourse.blames hkinds fun part hpart => ih part hpart fun t ht => ?_
      exact hkinds t ((stage.inOrder.mem hpart).1.subset ht)

/-! ### The order of stops -/

/-- A block takes a token unless the text ends. -/
theorem length_rest_block_lt (ts : List Token) :
    (block ts).rest.length < ts.length ∨ (block ts).rest = [] := by
  obtain ⟨-, -, hrest⟩ | ⟨l, after, rfl, -, hrest⟩ | ⟨first, after, rfl, -, -, hrest⟩ :=
    block_cases ts
  · exact .inr hrest
  · rw [hrest]
    exact .inl (Nat.lt_succ_self _)
  · rw [hrest]
    have hstatement := (Phrase.statement first after).length_rest_le
    have hblock := (block (Phrase.statement first after).rest).rest_suffix.length_le
    exact .inl (Nat.lt_succ_of_le (Nat.le_trans hblock hstatement))

/-- What stands in a block, after its opening brace. -/
theorem mem_parts_block {ts : List Token} {part : Stage} (h : part ∈ (block ts).parts) :
    ∃ first after, part = statement first after ∧
        (block ts).rest = (block (statement first after).rest).rest ∨
      part = block (Phrase.statement first after).rest := by
  obtain ⟨-, hparts, -⟩ | ⟨_, _, -, hparts, -⟩ | ⟨first, after, -, -, hparts, hrest⟩ :=
    block_cases ts
  · rw [hparts] at h
    cases h
  · rw [hparts] at h
    cases h
  · rw [hparts] at h
    obtain rfl | rfl := List.mem_pair.mp h
    · exact ⟨first, after, .inl ⟨rfl, hrest⟩⟩
    · exact ⟨first, after, .inr rfl⟩

theorem rule_ne_text_of_mem_parts {whole part : Stage} (h : part ∈ whole.parts)
    (hwhole : whole.rule ≠ .text) : part.rule ≠ .text := by
  obtain ⟨hloop, -⟩ | hcourse := whole.loops_or_course
  · cases whole with
    | block ts => obtain ⟨_, _, ⟨rfl, -⟩ | rfl⟩ := mem_parts_block h <;> nofun
    | text => exact absurd rfl hwhole
    | _ => simp [rule] at hloop
  · rintro hpart
    obtain h | h := hpart ▸ hcourse.isInner_or_block part h <;> cases h

/-- A phrase stops before what a statement in it leaves, unless the text ends: the block that the
statement is in takes a token after it. -/
theorem stop_le_of_mem_nested {whole call : Stage} (hwhole : whole.rule ≠ .text)
    (h : call ∈ whole.nested) : whole.stop ≤ 2 * call.rest.length ∨ whole.stop = 1 := by
  induction whole using wellFounded_parts.induction with
  | _ whole ih =>
    obtain ⟨part, hpart, hcall⟩ := mem_nested.mp h
    have hstop := stop_le_of_mem_parts hpart
    have hpos : 0 < whole.stop := Nat.zero_lt_of_lt (lt_stopAt _ _)
    obtain hcall | ⟨rfl, hrule⟩ := mem_calls.mp hcall
    · have := ih part hpart (rule_ne_text_of_mem_parts hpart hwhole) hcall
      omega
    · -- The statement stands in a block, and what the block reads after it takes a token.
      obtain hloop | hloop := rule_of_statement_mem_parts hpart hrule
      · exact absurd hloop hwhole
      · cases whole with
        | block ts =>
          obtain ⟨first, after, ⟨rfl, hrest⟩ | rfl⟩ := mem_parts_block hpart
          · have hfailure : (block ts).failure = none := rfl
            rw [stop_of_failure_eq_none hfailure, hrest]
            have := length_rest_block_lt (statement first after).rest
            rw [← List.length_eq_zero_iff] at this
            omega
          · cases hrule
        | _ => cases hloop

/-- Of two statements the one that ends later stops at the smaller number, unless the text has
ended. -/
theorem pairwise_stop (whole : Stage) :
    whole.calls.Pairwise fun a b => b.stop < a.stop ∨ b.stop = 1 := by
  refine whole.pairwise_calls (fun a _ b hb h => .inl ?_) fun b hb a ha => ?_
  · have hrest : b.left ≤ a.rest.length := h.length_le
    have hstatement := length_rest_lt (rule_of_mem_calls hb)
    have hle := LetScript.stopAt_le b.failure b.rest
    have hlt := lt_stopAt a.failure a.rest
    unfold stop
    omega
  · have htext : b.rule ≠ .text := by
      rw [rule_of_mem_calls hb]
      nofun
    have hlt := lt_stopAt a.failure a.rest
    obtain h | h := stop_le_of_mem_nested htext ha
    · exact .inl (Nat.lt_of_le_of_lt h hlt)
    · exact .inr h

end Phrase.Stage

/-- At most two of the stops have the same half, other than 0. -/
theorem countP_half_le_two {stops : List Nat} (h : stops.Pairwise fun a b => b < a ∨ b = 1)
    {k : Nat} (hk : 0 < k) : stops.countP (· / 2 = k) ≤ 2 := by
  have hnodup : (stops.filter (· / 2 = k)).Nodup := by
    -- The half of 1 is 0, so the stops in question do go down.
    refine (h.filter _).imp_of_mem fun {a b} _ hb hab => ?_
    have hhalf : b / 2 = k := by simpa using (List.mem_filter.mp hb).2
    omega
  have hsubset : stops.filter (· / 2 = k) ⊆ [2 * k, 2 * k + 1] := by
    intro m hm
    have hhalf : m / 2 = k := by simpa using (List.mem_filter.mp hm).2
    simp only [List.mem_cons, List.not_mem_nil, or_false]
    omega
  rw [List.countP_eq_length_filter]
  exact (List.Nodup.subperm hnodup hsubset).length_le

namespace Phrase.Stage

/-- The diagnostics of the statements within a phrase, each with the stop of its statement. -/
def findings (whole : Stage) : List (Diagnostic × Nat) :=
  whole.calls.filterMap fun call => call.failure.map fun d => (d, call.stop)

theorem reports_eq_findings (whole : Stage) : whole.reports = whole.findings.map Prod.fst := by
  rw [reports_eq_failures, findings, List.map_filterMap]
  simp [Function.comp_def]

theorem pairwise_findings (whole : Stage) :
    (whole.findings.map Prod.snd).Pairwise fun a b => b < a ∨ b = 1 := by
  refine List.pairwise_map.mpr (whole.pairwise_stop.filterMap _ fun a b hab f hf g hg => ?_)
  obtain ⟨_, _, rfl⟩ := Option.map_eq_some_iff.mp hf
  obtain ⟨_, _, rfl⟩ := Option.map_eq_some_iff.mp hg
  exact hab

theorem blames_of_mem_findings (whole : Stage) (hkinds : ∀ t ∈ whole.tokens, t.kind ≠ .eof)
    {finding : Diagnostic × Nat} (h : finding ∈ whole.findings) :
    finding.1.Blames whole.tokens (finding.2 / 2) := by
  obtain ⟨call, hcall, hfinding⟩ := List.mem_filterMap.mp h
  obtain ⟨d, hd, rfl⟩ := Option.map_eq_some_iff.mp hfinding
  have hsuffix := (suffix_of_mem_calls hcall).1
  exact (call.blames (fun t ht => hkinds t (hsuffix.subset ht)) d hd).of_suffix hsuffix

end Phrase.Stage

/-- Diagnostics are true and in the order of the text: they stand for tokens at positions that do
not go down, each for one that it is true of. Only the mark of the end has more than two. -/
theorem Parser.diagnostics_located (text : String) :
    ∃ positions : List Nat, positions.Pairwise (· ≤ ·) ∧
      List.Forall₂ (fun d i => ∃ t, (tokenize text)[i]? = some t ∧ d.IsAbout t)
        (ofText text).program.2.diagnostics positions ∧
      ∀ i, (tokenize text)[i]? ≠ some .eof → positions.count i ≤ 2 := by
  have hkinds : ∀ token ∈ (ofText text).tokens, token.kind ≠ .eof := fun token =>
    Lexer.kind_ne_eof_of_mem_tokens
  let whole := Stage.text (ofText text).tokens
  let position (stop : Nat) : Nat := whole.left - stop / 2
  have hblames : ∀ finding ∈ whole.findings, finding.1.Blames whole.tokens (finding.2 / 2) :=
    fun finding => whole.blames_of_mem_findings hkinds
  refine ⟨(whole.findings.map Prod.snd).map position, ?_, ?_, fun i hi => ?_⟩
  · refine List.pairwise_map.mpr (whole.pairwise_findings.imp fun {a b} hab => ?_)
    have hhalf : b / 2 ≤ a / 2 := by omega
    exact Nat.sub_le_sub_left hhalf _
  · rw [diagnostics_program, Stage.reports_eq_findings, List.map_map]
    refine List.forall₂_map_left_iff.mpr (List.forall₂_map_right_iff.mpr ?_)
    exact List.forall₂_same.mpr fun finding hfinding => (hblames finding hfinding).getElem?
  · have hend : i ≠ whole.left := by
      rintro rfl
      exact hi (List.getElem?_concat_length ..)
    by_cases hlast : i < whole.left
    · rw [List.count_eq_countP, List.countP_map]
      refine Nat.le_trans (List.countP_mono_left fun m hm hposition => ?_)
        (countP_half_le_two whole.pairwise_findings (Nat.sub_pos_of_lt hlast))
      obtain ⟨finding, hfinding, rfl⟩ := List.mem_map.mp hm
      have hle : finding.2 / 2 ≤ whole.left := (hblames finding hfinding).le
      have hposition : whole.left - finding.2 / 2 = i := by simpa [position] using hposition
      exact decide_eq_true (by omega)
    · have hnone : i ∉ (whole.findings.map Prod.snd).map position := by
        intro hmem
        obtain ⟨m, -, rfl⟩ := List.mem_map.mp hmem
        have : position m ≤ whole.left := Nat.sub_le ..
        omega
      rw [List.count_eq_zero_of_not_mem hnone]
      exact Nat.zero_le 2

end LetScript
