import LetScript.Proofs.Parser.Acceptance
import LetScript.Proofs.Parser.Progress
import LetScript.Proofs.Token.Lexer
import Mathlib.Logic.Relation

/-! Texts read one after the other. A phrase is the same before other tokens as long as
the next one is of the same kind, and a statement with a semicolon before any tokens at
all, unless a block in it is closed only by the end of the text. A count of the braces
excludes that: every phrase opens at least as many as it closes, and more of them where a
block is left open. So the statements of a text that ends with a semicolon and closes all
its braces are also the first statements of any text that begins with it. -/
namespace LetScript

/-- Kinds of token that neither open nor close a block nor end a statement. -/
def TokenKind.isPlain : TokenKind → Bool
  | .braceLeft | .braceRight | .semicolon => false
  | _ => true

theorem UnaryOp.isPlain_kind (op : UnaryOp) : op.kind.isPlain = true := by
  cases op <;> rfl

theorem BinaryOp.isPlain_kind (op : BinaryOp) : op.kind.isPlain = true := by
  cases op <;> rfl

namespace Grammar

open Phrase (nextKind)
open Relation (Comp)

/-- How many more braces the tokens open than they close. -/
def unclosed (ts : List Token) : Int :=
  (ts.countP (·.kind = .braceLeft) : Int) - ts.countP (·.kind = .braceRight)

theorem unclosed_append (ts us : List Token) : unclosed (ts ++ us) = unclosed ts + unclosed us := by
  simp only [unclosed, List.countP_append]
  omega

/-- There is a last token, and it is no semicolon. -/
def EndsPlain (ts : List Token) : Prop :=
  ∃ t ∈ ts.getLast?, t.kind ≠ .semicolon

theorem EndsPlain.append {us : List Token} (h : EndsPlain us) (ts : List Token) :
    EndsPlain (ts ++ us) := by
  obtain ⟨t, hlast, ht⟩ := h
  exact ⟨t, by rw [List.getLast?_append, hlast]; rfl, ht⟩

theorem EndsPlain.nextKind_append {ts : List Token} (h : EndsPlain ts) (us us' : List Token) :
    nextKind (ts ++ us) = nextKind (ts ++ us') := by
  cases ts with
  | nil => obtain ⟨_, ⟨⟩, _⟩ := h
  | cons => rfl

/-- The tokens `ts` are those of a phrase and then `rest`. The phrase leaves at least `least` braces
open. If it leaves just so many, then no block in it is left to the end of the text: it `ends` as
given, and it is a `P` before all tokens of which the first is of the same kind. -/
def Piece (least : Int) (ends : List Token → Prop) (P : List Token → List Token → Prop)
    (ts rest : List Token) : Prop :=
  ∃ used, ts = used ++ rest ∧ least ≤ unclosed used ∧
    (unclosed used = least →
      ends used ∧ ∀ more, nextKind more = nextKind rest → P (used ++ more) more)

namespace Piece

variable {m n : Int} {ends : List Token → Prop} {P Q : List Token → List Token → Prop}
  {ts mid rest : List Token}

theorem imp (h : Piece n ends P ts rest)
    (hPQ : ∀ {ts more}, nextKind more = nextKind rest → P ts more → Q ts more) :
    Piece n ends Q ts rest := by
  obtain ⟨used, rfl, hleast, hwhole⟩ := h
  refine ⟨used, rfl, hleast, fun hclosed => ?_⟩
  obtain ⟨hends, hmoves⟩ := hwhole hclosed
  exact ⟨hends, fun more hnext => hPQ hnext (hmoves more hnext)⟩

theorem andThen (h : Piece m ends P ts mid) (h' : Piece n EndsPlain Q mid rest) :
    Piece (m + n) EndsPlain (Comp P Q) ts rest := by
  obtain ⟨used, rfl, hleast, hwhole⟩ := h
  obtain ⟨used', rfl, hleast', hwhole'⟩ := h'
  refine ⟨used ++ used', (List.append_assoc ..).symm, ?_, fun hclosed => ?_⟩
  · rw [unclosed_append]
    exact Int.add_le_add hleast hleast'
  · -- Neither leaves more braces open than it must, as the other cannot make up for that.
    rw [unclosed_append] at hclosed
    obtain ⟨-, hmoves⟩ := hwhole (by omega)
    obtain ⟨hends', hmoves'⟩ := hwhole' (by omega)
    refine ⟨hends'.append used, fun more hnext => ⟨used' ++ more, ?_, hmoves' more hnext⟩⟩
    rw [List.append_assoc]
    exact hmoves _ (hends'.nextKind_append more rest)

theorem of_token {t : Token} (ht : t.kind ≠ .semicolon) (hleast : unclosed [t] = n)
    (hP : ∀ {rest}, P (t :: rest) rest) : Piece n EndsPlain P (t :: rest) rest :=
  ⟨[t], rfl, Int.le_of_eq hleast.symm, fun _ => ⟨⟨t, rfl, ht⟩, fun _ _ => hP⟩⟩

theorem token {kind : TokenKind} {l : String} (h : kind.isPlain = true)
    (hP : ∀ {rest}, P (⟨kind, l⟩ :: rest) rest) :
    Piece 0 EndsPlain P (⟨kind, l⟩ :: rest) rest := by
  have hkind : kind ≠ .semicolon := by
    rintro rfl
    cases h
  have hleast : unclosed [⟨kind, l⟩] = 0 := by
    cases kind <;> first | rfl | cases h
  exact of_token hkind hleast hP

theorem after {kind : TokenKind} {l : String} (h : kind.isPlain = true)
    (hP : Piece n EndsPlain P ts rest) :
    Piece n EndsPlain (Comp (fun ts mid => ts = ⟨kind, l⟩ :: mid) P) (⟨kind, l⟩ :: ts) rest :=
  Int.zero_add n ▸ (token h rfl).andThen hP

theorem afterBrace {l : String} (hP : Piece (-1) EndsPlain P ts rest) :
    Piece 0 EndsPlain (Comp (fun ts mid => ts = ⟨.braceLeft, l⟩ :: mid) P)
      (⟨.braceLeft, l⟩ :: ts) rest := by
  have hbrace : Piece 1 EndsPlain (fun ts mid => ts = ⟨.braceLeft, l⟩ :: mid)
      (⟨.braceLeft, l⟩ :: ts) ts := of_token nofun rfl rfl
  exact hbrace.andThen hP

theorem upTo {kind : TokenKind} {l : String} (hP : Piece n ends P ts (⟨kind, l⟩ :: rest))
    (h : kind.isPlain = true) :
    Piece n EndsPlain (fun ts rest => P ts (⟨kind, l⟩ :: rest)) ts rest := by
  have htoken : Piece 0 EndsPlain (fun ts mid => ts = ⟨kind, l⟩ :: mid) (⟨kind, l⟩ :: rest) rest :=
    token h rfl
  refine (Int.add_zero n ▸ hP.andThen htoken).imp ?_
  rintro _ _ - ⟨_, hP, rfl⟩
  exact hP

end Piece

/-- A statement without a semicolon ends plainly. One with a semicolon is there whatever follows. -/
def Ended (s : Stmt) (used : List Token) : Prop :=
  EndsPlain used ∨ ∀ more, Statement (used ++ more) s more

theorem Piece.terminated {P : List Token → List Token → Prop} {s : Stmt} {ts mid rest : List Token}
    (h : Piece 0 EndsPlain P ts mid) (ht : Terminator mid rest)
    (hP : ∀ {ts mid rest}, P ts mid → Terminator mid rest → Statement ts s rest) :
    Piece 0 (Ended s) (Statement · s ·) ts rest := by
  obtain ⟨used, rfl, hleast, hwhole⟩ := h
  cases ht with
  | @semicolon l =>
    have hsemicolon : unclosed (used ++ [⟨.semicolon, l⟩]) = unclosed used := by
      rw [unclosed_append]
      exact Int.add_zero _
    refine ⟨used ++ [⟨.semicolon, l⟩], by simp, ?_, fun hclosed => ?_⟩
    · rwa [hsemicolon]
    · rw [hsemicolon] at hclosed
      obtain ⟨-, hmoves⟩ := hwhole hclosed
      have hfree more : Statement ((used ++ [⟨.semicolon, l⟩]) ++ more) s more := by
        rw [List.append_assoc]
        exact hP (hmoves (⟨.semicolon, l⟩ :: more) rfl) .semicolon
      exact ⟨.inr hfree, fun more _ => hfree more⟩
  | omitted hs hp ho =>
    refine ⟨used, rfl, hleast, fun hclosed => ?_⟩
    obtain ⟨hends, hmoves⟩ := hwhole hclosed
    refine ⟨.inl hends, fun more hnext => hP (hmoves more hnext) ?_⟩
    rw [← hnext] at hs hp ho
    exact .omitted hs hp ho

theorem piece_moreParameters {ts : List Token} {names : List String} {rest : List Token}
    (h : MoreParameters ts names rest) : Piece 0 EndsPlain (MoreParameters · names ·) ts rest := by
  induction h with
  | close => exact .token (by decide) .close
  | comma _ ih =>
    refine (Piece.after (by decide) (Piece.after (by decide) ih)).imp ?_
    rintro _ _ - ⟨_, rfl, _, rfl, h⟩
    exact .comma h

theorem piece_parameters {ts : List Token} {names : List String} {rest : List Token}
    (h : Parameters ts names rest) : Piece 0 EndsPlain (Parameters · names ·) ts rest := by
  cases h with
  | none => exact .token (by decide) .none
  | some h =>
    refine (Piece.after (by decide) (piece_moreParameters h)).imp ?_
    rintro _ _ - ⟨_, rfl, h⟩
    exact .some h

mutual

theorem piece_expr : ∀ {level ts e rest}, Expression level ts e rest →
    Piece 0 EndsPlain (Expression level · e ·) ts rest
  | _, _, _, _, .tighter h => (piece_expr h).imp fun _ => .tighter
  | _, _, _, _, @Expression.binary op _ _ _ _ _ _ hl hr => by
    refine ((piece_expr hl).andThen (Piece.after op.isPlain_kind (piece_expr hr))).imp ?_
    rintro _ _ - ⟨_, hl, _, rfl, hr⟩
    exact .binary hl hr
  | _, _, _, _, @Expression.unary op _ _ _ _ h => by
    refine (Piece.after op.isPlain_kind (piece_expr h)).imp ?_
    rintro _ _ - ⟨_, rfl, h⟩
    exact .unary h
  | _, _, _, _, .call hc ha => by
    refine ((piece_expr hc).andThen (Piece.after (by decide) (piece_arguments ha))).imp ?_
    rintro _ _ - ⟨_, hc, _, rfl, ha⟩
    exact .call hc ha
  | _, _, _, _, .name => .token (by decide) .name
  | _, _, _, _, .int hvalue => .token (by decide) (.int hvalue)
  | _, _, _, _, .trueWord => .token (by decide) .trueWord
  | _, _, _, _, .falseWord => .token (by decide) .falseWord
  | _, _, _, _, .group h => by
    refine (Piece.after (by decide) ((piece_expr h).upTo (by decide))).imp ?_
    rintro _ _ - ⟨_, rfl, h⟩
    exact .group h
  | _, _, _, _, .ifElse hc hb ha => by
    refine (piece_alternative ha (Piece.after (by decide) (Piece.after (by decide)
      (((piece_expr hc).upTo (by decide)).andThen (piece_block hb).afterBrace)))).imp ?_
    rintro _ _ - ⟨_, ⟨_, rfl, _, rfl, _, hc, _, rfl, hb⟩, ha⟩
    exact .ifElse hc hb ha
  | _, _, _, _, .function hp hb => by
    refine (Piece.after (by decide) (Piece.after (by decide)
      ((piece_parameters hp).andThen (piece_block hb).afterBrace))).imp ?_
    rintro _ _ - ⟨_, rfl, _, rfl, _, hp, _, rfl, hb⟩
    exact .function hp hb

theorem piece_arguments : ∀ {ts es rest}, Arguments ts es rest →
    Piece 0 EndsPlain (Arguments · es ·) ts rest
  | _, _, _, .none => .token (by decide) .none
  | _, _, _, .some he hes => by
    refine ((piece_expr he).andThen (piece_moreArguments hes)).imp ?_
    rintro _ _ - ⟨_, he, hes⟩
    exact .some he hes

theorem piece_moreArguments : ∀ {ts es rest}, MoreArguments ts es rest →
    Piece 0 EndsPlain (MoreArguments · es ·) ts rest
  | _, _, _, .close => .token (by decide) .close
  | _, _, _, .comma he hes => by
    refine (Piece.after (by decide) ((piece_expr he).andThen (piece_moreArguments hes))).imp ?_
    rintro _ _ - ⟨_, rfl, _, he, hes⟩
    exact .comma he hes

/-- A block closes the brace before it, unless the end of the text does. -/
theorem piece_block : ∀ {ts ss rest}, Block ts ss rest →
    Piece (-1) EndsPlain (Block · ss ·) ts rest
  | _, _, _, .close => .of_token nofun rfl .close
  | _, _, _, .endOfText => ⟨[], rfl, by decide, nofun⟩
  | _, _, _, .cons hs hss => by
    refine ((piece_statement hs).andThen (piece_block hss)).imp ?_
    rintro _ _ - ⟨_, hs, hss⟩
    exact .cons hs hss

/-- An alternative may have no tokens. It is added to what stands before it. -/
theorem piece_alternative : ∀ {ts alternative rest}, Alternative ts alternative rest →
    ∀ {P before}, Piece 0 EndsPlain P before ts →
      Piece 0 EndsPlain (Comp P (Alternative · alternative ·)) before rest
  | _, _, _, .none helse, _, _, h => h.imp fun hnext hP => ⟨_, hP, .none (hnext ▸ helse)⟩
  | _, _, _, .some hb, _, _, h => by
    refine (h.andThen (Piece.after (by decide) (piece_block hb).afterBrace)).imp ?_
    rintro _ _ - ⟨_, hP, _, rfl, _, rfl, hb⟩
    exact ⟨_, hP, .some hb⟩

theorem piece_statement : ∀ {ts s rest}, Statement ts s rest →
    Piece 0 (Ended s) (Statement · s ·) ts rest
  | _, _, _, .bind hv ht => by
    refine (Piece.after (by decide) (Piece.after (by decide) (Piece.after (by decide)
      (piece_expr hv)))).terminated ht ?_
    rintro _ _ _ ⟨_, rfl, _, rfl, _, rfl, hv⟩ ht
    exact .bind hv ht
  | _, _, _, .ret hv ht => by
    refine (Piece.after (by decide) (piece_expr hv)).terminated ht ?_
    rintro _ _ _ ⟨_, rfl, hv⟩ ht
    exact .ret hv ht
  | _, _, _, .expr hv ht => (piece_expr hv).terminated ht .expr

end

theorem Statements.unclosed_nonneg {ts : List Token} {ss : List Stmt} (h : Statements ts ss) :
    0 ≤ unclosed ts := by
  induction h with
  | nil => exact Int.le_refl _
  | cons hs _ ih =>
    obtain ⟨used, rfl, hleast, -⟩ := piece_statement hs
    rw [unclosed_append]
    exact Int.add_nonneg hleast ih

end Grammar

namespace Phrase

open Grammar

/-- A statement is read first, whether or not the tokens after it make statements. -/
theorem statements_of_statement {ts rest : List Token} {s : Stmt} (h : Statement ts s rest) :
    (statements ts).value = s :: (statements rest).value ∧
      (statements ts).reports = (statements rest).reports := by
  obtain ⟨first, tail, rfl, -, hstmt⟩ := reads_statement h
  obtain ⟨hvalue, hreports, rfl⟩ := Attempt.settle_reads hstmt
  rw [statements]
  constructor
  · show (statement first tail).settle.value ++ _ = _
    rw [hvalue]
    rfl
  · show (statement first tail).settle.reports ++ _ = _
    rw [hreports]
    rfl

/-- A statement of `ss` can be the last only if a semicolon ends it, and so none of them depends on
what comes after `ts`. -/
theorem statements_append {ts : List Token} {ss : List Stmt} (h : Statements ts ss)
    (hclosed : unclosed ts = 0) (hlast : ∀ t ∈ ts.getLast?, t.kind = .semicolon)
    (more : List Token) :
    (statements (ts ++ more)).value = ss ++ (statements more).value ∧
      (statements (ts ++ more)).reports = (statements more).reports := by
  induction h with
  | nil => exact ⟨rfl, rfl⟩
  | @cons _ s mid ss hs hss ih =>
    obtain ⟨used, rfl, hleast, hwhole⟩ := piece_statement hs
    have hnonneg := hss.unclosed_nonneg
    rw [unclosed_append] at hclosed
    obtain ⟨hended, hmoves⟩ := hwhole (by omega)
    have hlater := ih (by omega) fun t ht => hlast t (by rw [List.getLast?_append, ht]; rfl)
    have hstmt : Statement (used ++ (mid ++ more)) s (mid ++ more) := by
      cases mid with
      | cons first mid => exact hmoves _ rfl
      | nil =>
        obtain ⟨t, ht, hplain⟩ | hfree := hended
        · exact absurd (hlast t (by rwa [List.append_nil])) hplain
        · exact hfree more
    obtain ⟨hvalue, hreports⟩ := statements_of_statement hstmt
    rw [List.append_assoc, hvalue, hreports, hlater.1, hlater.2]
    exact ⟨rfl, rfl⟩

end Phrase

/-- The text ends with a semicolon and closes as many braces as it opens. -/
structure Parser.Terminated (text : String) : Prop where
  last : (Lexer.tokens text.toList).getLast?.map Token.kind = some .semicolon
  braces : (Lexer.tokens text.toList).countP (·.kind = .braceLeft) =
    (Lexer.tokens text.toList).countP (·.kind = .braceRight)

theorem Parser.program_ofText_append {text : String} {p : Program}
    (hp : Program.parse text = .ok p) (h : Terminated text) (more : String) :
    (ofText (text ++ more)).program =
      (⟨p.statements ++ (ofText more).program.1.statements⟩, (ofText more).program.2) := by
  obtain ⟨_, hreads⟩ := Program.parse_eq_ok_iff_reads.mp hp
  have hbraces : Grammar.unclosed (Lexer.tokens text.toList) = 0 := by
    rw [Grammar.unclosed, h.braces, Int.sub_self]
  have hlast : ∀ t ∈ (Lexer.tokens text.toList).getLast?, t.kind = .semicolon := by
    intro t ht
    simpa [Option.mem_def.mp ht] using h.last
  obtain ⟨hvalue, hreports⟩ := Phrase.statements_append (Phrase.statements_sound _ hreads) hbraces
    hlast (Lexer.tokens more.toList)
  have htokens : ofText (text ++ more) =
      ⟨Lexer.tokens text.toList ++ Lexer.tokens more.toList, []⟩ := by
    rw [ofText, String.toList_append, Lexer.tokens_append h.last]
  rw [htokens]
  simp only [program, ofText, hvalue, hreports, Phrase.rest_statements]

theorem Program.parse_append {text more : String} {p q : Program} (hp : parse text = .ok p)
    (h : Parser.Terminated text) (hq : parse more = .ok q) :
    parse (text ++ more) = .ok ⟨p.statements ++ q.statements⟩ := by
  rw [parse] at hq ⊢
  rw [Parser.program_ofText_append hp h more]
  dsimp only at hq ⊢
  split at hq
  · next hnone =>
    cases hq
    rw [if_pos hnone]
  · cases hq

end LetScript
