import LetScript.Proofs.Parser.Places
import Mathlib.Data.List.Infix

/-! How far a faulty text reaches into what follows it. Every brace that reading comes to
opens or closes a block or is passed over because no expression starts with it. So where a
text closes all its braces and ends with a semicolon, no block of it is open at its end
unless more closing than opening braces were passed over, and the statements that come after
it are read as they are alone. -/
namespace LetScript

open Phrase (Stage Rule)
open Grammar (unclosed unclosed_append)

/-- How many more opening than closing braces are reported as starting no expression, and so are
passed over. -/
def passedOver (ds : List Diagnostic) : Int :=
  (ds.count (.noExpression .braceLeft) : Int) - ds.count (.noExpression .braceRight)

theorem passedOver_append (ds es : List Diagnostic) :
    passedOver (ds ++ es) = passedOver ds + passedOver es := by
  simp only [passedOver, List.count_append]
  omega

theorem passedOver_nil : passedOver [] = 0 := rfl

/-- There is a last token, and it is a semicolon. -/
def EndsStatement (ts : List Token) : Prop :=
  ts.getLast?.map Token.kind = some .semicolon

namespace EndsStatement

variable {t : Token} {ts left more : List Token}

theorem ne_nil (h : EndsStatement ts) : ts ≠ [] := by
  rintro rfl
  cases h

theorem exists_cons (h : EndsStatement ts) {us : List Token} (heq : t :: us = ts ++ more) :
    ∃ after, ts = t :: after ∧ us = after ++ more := by
  obtain ⟨rfl, -⟩ | h := List.cons_eq_append_iff.mp heq
  · exact absurd rfl h.ne_nil
  · exact h

theorem tail (h : EndsStatement (t :: ts)) (ht : t.kind ≠ .semicolon) : EndsStatement ts := by
  cases ts with
  | nil => exact absurd (Option.some.inj h) ht
  | cons u ts => simpa [EndsStatement] using h

theorem of_suffix (h : EndsStatement ts) (hsuffix : left <:+ ts) (hne : left ≠ []) :
    EndsStatement left := by
  obtain ⟨used, rfl⟩ := hsuffix
  rwa [EndsStatement, List.getLast?_append_of_ne_nil _ hne] at h

end EndsStatement

theorem unclosed_cons (t : Token) (ts : List Token) :
    unclosed (t :: ts) = unclosed [t] + unclosed ts :=
  unclosed_append [t] ts

theorem unclosed_singleton_of_isPlain {t : Token} (h : t.kind.isPlain = true) :
    unclosed [t] = 0 := by
  obtain ⟨kind, l⟩ := t
  cases kind <;> first | rfl | cases h

/-- A token that is passed over counts as it does among the braces. -/
theorem passedOver_noExpression (t : Token) : passedOver [.noExpression t.kind] = unclosed [t] := by
  obtain ⟨kind, l⟩ := t
  cases kind <;> rfl

/-- Where reading `ts`, before `more`, ends: at or before the end of `ts`, where every brace is
accounted for, or not before the end of the text, which leaves a brace open. -/
def Ends (more ts : List Token) (due : Int) (found : List Diagnostic) (free : Prop)
    (rest : List Token) : Prop :=
  (∃ left, rest = left ++ more ∧ (left = [] → free) ∧
    unclosed ts = unclosed left + due + passedOver found) ∨
  rest = [] ∧ 1 + due + passedOver found ≤ unclosed ts

namespace Ends

variable {more ts rest : List Token} {t : Token} {due : Int} {found : List Diagnostic} {free : Prop}

theorem here (hfound : passedOver found = 0) (hfree : ts = [] → free) :
    Ends more ts 0 found free (ts ++ more) :=
  .inl ⟨ts, rfl, hfree, by omega⟩

theorem afterToken (hfound : passedOver found = unclosed [t]) (hfree : free) :
    Ends more (t :: ts) 0 found free (ts ++ more) := by
  refine .inl ⟨ts, rfl, fun _ => hfree, ?_⟩
  rw [unclosed_cons]
  omega

theorem cons (h : Ends more ts due found free rest) :
    Ends more (t :: ts) (due + unclosed [t]) found free rest := by
  rw [Ends, unclosed_cons]
  obtain ⟨left, hrest, hfree, hbraces⟩ | ⟨hrest, hbraces⟩ := h
  · exact .inl ⟨left, hrest, hfree, by omega⟩
  · exact .inr ⟨hrest, by omega⟩

theorem imp {free' : Prop} (h : Ends more ts due found free rest) (hfree : free → free') :
    Ends more ts due found free' rest := by
  obtain ⟨left, hrest, hleft, hbraces⟩ | hbeyond := h
  · exact .inl ⟨left, hrest, fun hnil => hfree (hleft hnil), hbraces⟩
  · exact .inr hbeyond

/-- What is read next adds up with what was read, unless that ends with the text. -/
theorem andThen {due' : Int} {found' : List Diagnostic} {free' : Prop} {rest' : List Token}
    (h : Ends more ts due found free rest) (hdue : due' ≤ 0)
    (hlater : ∀ left, (left = [] → free) → rest = left ++ more →
      Ends more left due' found' free' rest')
    (hbeyond : rest = [] → rest' = [] ∧ passedOver found' = 0) :
    Ends more ts (due + due') (found ++ found') free' rest' := by
  rw [Ends, passedOver_append]
  obtain ⟨left, hrest, hfree, hbraces⟩ | ⟨hrest, hbraces⟩ := h
  · obtain ⟨left', hrest', hfree', hbraces'⟩ | ⟨hrest', hbraces'⟩ := hlater left hfree hrest
    · exact .inl ⟨left', hrest', hfree', by omega⟩
    · exact .inr ⟨hrest', by omega⟩
  · obtain ⟨hrest', hfound'⟩ := hbeyond hrest
    exact .inr ⟨hrest', by omega⟩

end Ends

namespace Phrase.Stage

/-- What is reported in the phrase, and why it is given up. -/
def found (whole : Stage) : List Diagnostic :=
  whole.parts.flatMap reports ++ whole.failure.toList

/-- The braces that a phrase opens and leaves open. A block closes the one before it. -/
def due (whole : Stage) : Int :=
  if whole.rule = .block then -1 else 0

/-- A phrase that starts in `ts` ends there, before its end unless it is a statement or is given up,
or it reaches into `more`. -/
def EndsIn (more : List Token) (whole : Stage) : Prop :=
  ∀ ts, whole.tokens = ts ++ more → EndsStatement ts →
    Ends more ts whole.due whole.found (whole.failure ≠ none ∨ whole.rule = .statement) whole.rest

theorem found_of_statement {whole : Stage} (h : whole.rule = .statement) :
    whole.found = whole.reports := by
  rw [found, reports_eq, dropped_eq, if_pos h]

theorem found_of_ne_statement {whole : Stage} (h : whole.rule ≠ .statement) :
    whole.found = whole.reports ++ whole.failure.toList := by
  rw [found, reports_eq, dropped_eq, if_neg h, List.append_nil]

theorem found_of_failure_eq_none {whole : Stage} (hfailure : whole.failure = none)
    (h : whole.rule ≠ .statement) : whole.found = whole.reports := by
  rw [found_of_ne_statement h, hfailure]
  exact List.append_nil _

theorem due_nonpos (whole : Stage) : whole.due ≤ 0 := by
  unfold due
  split <;> decide

theorem due_of_ne_block {whole : Stage} (h : whole.rule ≠ .block) : whole.due = 0 :=
  if_neg h

/-- What is left of `ts` after a phrase ends as `ts` does. -/
theorem endsStatement_of_rest (whole : Stage) {more ts left : List Token}
    (htokens : whole.tokens = ts ++ more) (hrest : whole.rest = left ++ more)
    (hends : EndsStatement ts) (hne : left ≠ []) : EndsStatement left := by
  have hsuffix := whole.rest_suffix
  rw [htokens, hrest, List.suffix_append_self_iff] at hsuffix
  exact hends.of_suffix hsuffix hne

theorem reports_of_tokens_eq_nil {whole : Stage} (h : whole.tokens = []) : whole.reports = [] := by
  have hlength := whole.length_calls_le
  rw [left, h] at hlength
  rw [reports_eq_failures, List.eq_nil_of_length_eq_zero (Nat.le_zero.mp hlength)]
  rfl

end Phrase.Stage

/-- The end of the text is no brace. -/
theorem Diagnostic.Blames.passedOver_eq_zero {d : Diagnostic} {k : Nat} (h : d.Blames [] k) :
    passedOver [d] = 0 := by
  obtain ⟨t, after, hsuffix, -, habout⟩ := h
  obtain rfl : t = .eof := List.mem_singleton.mp (hsuffix.subset List.mem_cons_self)
  generalize heof : Token.eof = t at habout
  cases habout with
  | unexpectedToken => rfl
  | noExpression =>
    rw [passedOver_noExpression, ← heof]
    rfl
  | integerTooLarge => cases heof

namespace Course

variable {rule : Rule} {us rest : List Token} {parts : List Stage} {failure : Option Diagnostic}

theorem passedOver_at_end (h : Course rule [] parts failure rest) :
    rest = [] ∧ passedOver (parts.flatMap Stage.reports ++ failure.toList) = 0 := by
  have htokens {part : Stage} (hpart : part ∈ parts) : part.tokens = [] :=
    List.suffix_nil.mp (h.inOrder.mem hpart).1
  have hreports : parts.flatMap Stage.reports = [] :=
    List.flatMap_eq_nil_iff.mpr fun part hpart => Stage.reports_of_tokens_eq_nil (htokens hpart)
  have hblames := h.blames nofun fun part hpart => part.blames (htokens hpart ▸ nofun)
  refine ⟨List.suffix_nil.mp (h.inOrder.suffix fun stage _ => stage.rest_suffix), ?_⟩
  rw [hreports, List.nil_append]
  cases failure with
  | none => rfl
  | some d => exact (hblames d rfl).passedOver_eq_zero

variable {more : List Token}

/-- A phrase goes on after its part: to where it ends then, if the part ends before the end of `ts`,
and otherwise no further. -/
theorem ends_andThen {part : Stage} {ts : List Token} {free : Prop}
    (hpart : part.EndsIn more) (hfailure : part.failure = none) (hrule : part.rule ≠ .statement)
    (htokens : part.tokens = ts ++ more) (hends : EndsStatement ts)
    (h : Course rule part.rest parts failure rest)
    (hlater : ∀ {left}, part.rest = left ++ more → EndsStatement left →
      Ends more left 0 (parts.flatMap Stage.reports ++ failure.toList) free rest) :
    Ends more ts part.due ((part :: parts).flatMap Stage.reports ++ failure.toList) free rest := by
  rw [List.flatMap_cons, List.append_assoc, ← Stage.found_of_failure_eq_none hfailure hrule]
  refine Int.add_zero part.due ▸ (hpart ts htokens hends).andThen (Int.le_refl 0)
    (fun left hfree hrest => hlater hrest ?_) fun hrest => ?_
  · have hne : left ≠ [] := fun hnil => (hfree hnil).elim (· hfailure) hrule
    exact part.endsStatement_of_rest htokens hrest hends hne
  · rw [hrest] at h
    exact h.passedOver_at_end

/-- One step of a phrase for each thing it does. Only a statement can end with `ts`, unless it is
given up, as every other phrase leaves at least the last semicolon. -/
theorem ends (h : Course rule us parts failure rest)
    (hparts : ∀ part ∈ parts, part.EndsIn more) {ts : List Token}
    (hus : us = ts ++ more) (hends : EndsStatement ts) :
    Ends more ts 0 (parts.flatMap Stage.reports ++ failure.toList)
      (failure ≠ none ∨ rule = .statement) rest := by
  induction h generalizing ts with
  | done =>
    rw [hus]
    exact .here rfl fun h => absurd h hends.ne_nil
  | @take t _ _ _ _ ht _ ih =>
    -- The last token of `ts` is a semicolon, so this one is not the last.
    obtain ⟨after, rfl, hafter⟩ := hends.exists_cons hus
    have hkind : t.kind ≠ .semicolon := by
      intro hkind
      rw [hkind] at ht
      cases ht
    have hlater := (ih hparts hafter (hends.tail hkind)).cons (t := t)
    rwa [unclosed_singleton_of_isPlain ht] at hlater
  | semicolon hrule =>
    obtain ⟨after, rfl, rfl⟩ := hends.exists_cons hus
    exact .afterToken rfl (.inr hrule)
  | @part stage _ _ _ hrule hs h ih =>
    obtain ⟨hstage, hparts⟩ := List.forall_mem_cons.mp hparts
    have hnext := ends_andThen hstage hs (Rule.ne_of_isInner hrule rfl) hus hends h (ih hparts)
    rwa [Stage.due_of_ne_block (Rule.ne_of_isInner hrule rfl)] at hnext
  | @broken stage d hrule hs =>
    have hstage := List.forall_mem_singleton.mp hparts ts hus hends
    rw [Stage.due_of_ne_block (Rule.ne_of_isInner hrule rfl),
      Stage.found_of_ne_statement (Rule.ne_of_isInner hrule rfl), hs] at hstage
    rw [List.flatMap_singleton]
    exact hstage.imp fun _ => .inl nofun
  | @block l ts _ _ _ h ih =>
    obtain ⟨hblock, hparts⟩ := List.forall_mem_cons.mp hparts
    obtain ⟨after, rfl, hafter⟩ := hends.exists_cons hus
    have hnext := ends_andThen hblock rfl nofun hafter (hends.tail (by simp)) h (ih hparts)
    exact hnext.cons
  | missing =>
    rw [hus]
    exact .here rfl fun _ => .inl nofun
  | @noExpression t =>
    obtain ⟨after, rfl, rfl⟩ := hends.exists_cons hus
    exact .afterToken (passedOver_noExpression t) (.inl nofun)
  | noExpressionAtEnd => exact absurd (List.append_eq_nil_iff.mp hus.symm).1 hends.ne_nil
  | tooLarge =>
    obtain ⟨after, rfl, rfl⟩ := hends.exists_cons hus
    exact .afterToken rfl (.inl nofun)

end Course

/-- Statements to the end of the text are also the rest of a block that is not closed. -/
theorem Grammar.Statements.block {ts : List Token} {ss : List Stmt} (h : Statements ts ss) :
    Block ts ss [] := by
  induction h with
  | nil => exact .endOfText
  | cons hs _ ih => exact .cons hs ih

namespace Phrase.Stage

variable {more : List Token} {ss : List Stmt}

theorem found_block (us : List Token) : (block us).found = (block us).reports := by
  have hrule : (block us).rule ≠ .statement := nofun
  exact found_of_failure_eq_none rfl hrule

/-- A block that is open where `more` begins takes all of it. -/
theorem ends_block_of_nil (hmore : Grammar.Statements more ss) {free : Prop} :
    Ends more [] (block more).due (block more).found free (block more).rest := by
  obtain ⟨-, hreports, hrest⟩ := Phrase.reads_block hmore.block
  have hfound : (block more).found = [] := (found_block more).trans hreports
  rw [hfound]
  exact .inr ⟨hrest, Int.le_refl 0⟩

theorem endsIn_block (hmore : Grammar.Statements more ss) {us : List Token}
    (ih : ∀ part ∈ (block us).parts, part.EndsIn more) : (block us).EndsIn more := by
  intro ts htokens hends
  obtain ⟨rfl, -, -⟩ | ⟨l, after, rfl, hparts, hrest⟩ | ⟨first, after, rfl, -, hparts, hrest⟩ :=
    block_cases us
  · exact absurd (List.append_eq_nil_iff.mp htokens.symm).1 hends.ne_nil
  · obtain ⟨after, rfl, rfl⟩ := hends.exists_cons htokens
    have hne : after ≠ [] := (hends.tail (by simp)).ne_nil
    rw [hrest, found, hparts]
    exact (Ends.here rfl (absurd · hne)).cons
  · rw [hparts] at ih
    obtain ⟨hstatement, hblock⟩ := List.forall_mem_cons.mp ih
    have hblock := List.forall_mem_singleton.mp hblock
    have hfound : (block (first :: after)).found = (statement first after).found ++
        (block (Phrase.statement first after).rest).found := by
      rw [found, hparts, found_block, found_of_statement rfl]
      simp [failure]
    have hdue : (block (first :: after)).due =
        (statement first after).due + (block (Phrase.statement first after).rest).due := rfl
    rw [hfound, hdue, hrest]
    refine (hstatement ts htokens hends).andThen (due_nonpos _) (fun left _ hleft => ?_)
      fun hnil => ?_
    · -- The statement may be the last of `ts`, and then the block goes on in `more`.
      by_cases hne : left = []
      · obtain rfl := hne
        rw [show (Phrase.statement first after).rest = more from hleft]
        exact ends_block_of_nil hmore
      · exact hblock left hleft
          ((statement first after).endsStatement_of_rest htokens hleft hends hne)
    · rw [show (Phrase.statement first after).rest = [] from hnil, found_block,
        reports_of_tokens_eq_nil rfl]
      exact ⟨List.suffix_nil.mp (block []).rest_suffix, rfl⟩

theorem endsIn (hmore : Grammar.Statements more ss) (whole : Stage) (h : whole.rule ≠ .text) :
    whole.EndsIn more := by
  induction whole using wellFounded_parts.induction with
  | _ whole ih =>
    have hparts : ∀ part ∈ whole.parts, part.EndsIn more := fun part hpart =>
      ih part hpart (rule_ne_text_of_mem_parts hpart h)
    by_cases hblock : whole.rule = .block
    · cases whole with
      | block us => exact endsIn_block hmore hparts
      | _ => cases hblock
    · intro ts htokens hends
      rw [due_of_ne_block hblock]
      exact (course h hblock).ends hparts htokens hends

end Phrase.Stage

/-! ### The statements after a faulty text -/

namespace Phrase

theorem reports_statements_cons (first : Token) (ts : List Token) :
    (statements (first :: ts)).reports =
      (Stage.statement first ts).found ++ (statements (statement first ts).rest).reports := by
  rw [Stage.found_of_statement rfl, statements, ← Attempt.rest_settle]
  rfl

/-- One statement after the other, from the first one of `ts` to the last. -/
theorem statements_recover {more : List Token} {ss : List Stmt}
    (hmore : Grammar.Statements more ss) (ts : List Token) (hends : ts = [] ∨ EndsStatement ts) :
    ss <:+ (statements (ts ++ more)).value ∨
      1 + passedOver (statements (ts ++ more)).reports ≤ unclosed ts := by
  induction hn : ts.length using Nat.strong_induction_on generalizing ts with | _ n ih
  cases ts with
  | nil =>
    rw [List.nil_append, (reads_statements hmore).1]
    exact .inl List.suffix_rfl
  | cons first ts =>
    have hends := hends.resolve_left (List.cons_ne_nil _ _)
    have hvalue := value_statements_cons first (ts ++ more)
    have hreports := reports_statements_cons first (ts ++ more)
    have hlength := (statement first (ts ++ more)).length_rest_le
    have hstatement : Ends more (first :: ts) 0 (Stage.statement first (ts ++ more)).found _
        (statement first (ts ++ more)).rest :=
      Stage.endsIn hmore (.statement first (ts ++ more)) (by nofun) (first :: ts) rfl hends
    rw [List.cons_append, hvalue, hreports, passedOver_append]
    obtain ⟨left, hrest, -, hbraces⟩ | ⟨hrest, hbraces⟩ := hstatement
    · have hleft : left = [] ∨ EndsStatement left :=
        or_iff_not_imp_left.mpr fun hne =>
          Stage.endsStatement_of_rest (.statement first (ts ++ more)) rfl hrest hends hne
      have hshorter : left.length < n := by
        rw [hrest, List.length_append, List.length_append] at hlength
        rw [List.length_cons] at hn
        omega
      rw [hrest]
      obtain hsuffix | hbeyond := ih left.length hshorter left hleft rfl
      · exact .inl (hsuffix.trans (List.suffix_append _ _))
      · exact .inr (by omega)
    · have hnone : (statements []).reports = [] := (Stage.text []).reports_of_tokens_eq_nil rfl
      rw [hrest, hnone, passedOver_nil]
      exact .inr (by omega)

end Phrase

/-- A text that closes all its braces and ends with a semicolon may be faulty: the statements of a
program after it are still the last ones that are read, unless more closing than opening braces were
passed over. -/
theorem Parser.statements_suffix_append {text more : String} {p : Program} (h : Terminated text)
    (hmore : Program.parse more = .ok p)
    (hpassed : 0 ≤ passedOver (ofText (text ++ more)).program.2.diagnostics) :
    p.statements <:+ (ofText (text ++ more)).program.1.statements := by
  have hbraces : unclosed (Lexer.tokens text.toList) = 0 := by
    rw [unclosed, h.braces, Int.sub_self]
  have htokens : (ofText (text ++ more)).tokens =
      Lexer.tokens text.toList ++ Lexer.tokens more.toList := by
    rw [ofText, String.toList_append, Lexer.tokens_append h.last]
  rw [diagnostics_program, Stage.reports, htokens] at hpassed
  rw [program, htokens]
  have hstatements := (Program.parse_eq_ok_iff_derivation more p).mp hmore
  obtain hsuffix | hbeyond := Phrase.statements_recover hstatements _ (.inr h.last)
  · exact hsuffix
  · omega

/-- In `if (a) { let };` a name is missing. The closing brace is left to the block. -/
theorem Parser.statements_suffix_missing_name :
    let text := "if (a) \x7b let \x7d;"
    Terminated text ∧ Program.parse "y" = .ok ⟨[.expr (.name "y")]⟩ ∧
      0 ≤ passedOver (ofText (text ++ "y")).program.2.diagnostics ∧
      [.expr (.name "y")] <:+ (ofText (text ++ "y")).program.1.statements := by
  intro text
  have hterminated : Terminated text := ⟨by decide +kernel, by decide +kernel⟩
  have hmore : Program.parse "y" = .ok ⟨[.expr (.name "y")]⟩ := by decide +kernel
  have hpassed : 0 ≤ passedOver (ofText (text ++ "y")).program.2.diagnostics := by
    have hdiagnostics : (ofText (text ++ "y")).program.2.diagnostics =
        [.unexpectedToken .identifier .braceRight] := by
      decide +kernel
    rw [hdiagnostics]
    decide
  exact ⟨hterminated, hmore, hpassed, statements_suffix_append hterminated hmore hpassed⟩

/-- The condition is needed, also where braces are nested. After `if (a) { 1 + };` the closing brace
is passed over as no expression starts with it, and what comes then is read in the block. -/
theorem Parser.not_statements_suffix_append :
    ¬ ∀ (text more : String) (p : Program), Terminated text →
      (∀ ts, ts <+: Lexer.tokens text.toList → 0 ≤ unclosed ts) → Program.parse more = .ok p →
        p.statements <:+ (ofText (text ++ more)).program.1.statements := by
  intro h
  have htokens : Lexer.tokens "if (a) \x7b 1 + \x7d;".toList =
      [⟨.keyword .ifWord, "if"⟩, ⟨.parenLeft, "("⟩, ⟨.identifier, "a"⟩, ⟨.parenRight, ")"⟩,
        ⟨.braceLeft, "\x7b"⟩, ⟨.int, "1"⟩, ⟨.plus, "+"⟩, ⟨.braceRight, "\x7d"⟩,
        ⟨.semicolon, ";"⟩] := by
    decide +kernel
  have htree : (ofText ("if (a) \x7b 1 + \x7d;" ++ "y")).program.1.statements =
      [.expr (.ifElse (.name "a") [.expr (.name "y")] none)] := by
    decide +kernel
  have hterminated : Terminated "if (a) \x7b 1 + \x7d;" :=
    ⟨by rw [htokens]; rfl, by rw [htokens]; rfl⟩
  have hnested : ∀ ts ∈ (Lexer.tokens "if (a) \x7b 1 + \x7d;".toList).inits, 0 ≤ unclosed ts := by
    rw [htokens]
    decide
  have hsuffix := h _ "y" ⟨[.expr (.name "y")]⟩ hterminated
    (fun ts hts => hnested ts ((List.mem_inits _ _).mpr hts)) (by decide +kernel)
  rw [htree] at hsuffix
  revert hsuffix
  decide

end LetScript
