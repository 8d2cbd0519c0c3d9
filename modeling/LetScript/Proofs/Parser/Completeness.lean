import LetScript.Proofs.Parser.Soundness

/-! What the grammar derives is read, without a report and to the same end. An expression
of a level is read as a left operand with which the loop over operators then goes on,
wherever the next token binds no tighter than the level. -/
namespace LetScript

/-- Kinds of token that an expression can start with. -/
def TokenKind.beginsExpression : TokenKind → Bool
  | .identifier | .int | .bang | .minus | .parenLeft => true
  | .keyword .trueWord | .keyword .falseWord | .keyword .ifWord | .keyword .fnWord => true
  | _ => false

theorem UnaryOp.beginsExpression_kind (op : UnaryOp) : op.kind.beginsExpression = true := by
  cases op <;> rfl

namespace Precedence

theorem rank_le_tighter (level : Precedence) : level.rank ≤ level.tighter.rank := by
  cases level <;> decide

theorem Admits.tighter {min level : Precedence} (h : min.Admits level) :
    min.Admits level.tighter := by
  obtain h | ⟨rfl, rfl | rfl⟩ := h
  · exact .inl (Nat.lt_of_lt_of_le h level.rank_le_tighter)
  · exact .inl (by decide)
  · exact .inl (by decide)

theorem admits_tighter_level (op : BinaryOp) : op.level.Admits op.level.tighter :=
  .inl (by cases op <;> decide)

theorem admits_lowest : lowest.Admits lowest := .inr ⟨rfl, .inl rfl⟩

theorem admits_unary : unary.Admits unary := .inr ⟨rfl, .inr rfl⟩

theorem Admits.rank_lt_call {min : Precedence} (h : min.Admits call) : min.rank < call.rank := by
  obtain h | ⟨-, h | h⟩ := h
  · exact h
  · cases h
  · cases h

end Precedence

namespace Grammar

open Phrase (nextKind)

theorem Terminator.rank_next_le {ts rest : List Token} (h : Terminator ts rest) :
    (Precedence.ofKind (nextKind ts)).rank ≤ Precedence.lowest.rank := by
  cases h with
  | semicolon => exact Nat.le_refl _
  | omitted hs hp ho =>
    refine Nat.le_of_not_lt fun hbinds => ?_
    cases hop : BinaryOp.ofKind? (nextKind ts) with
    | none => exact hp (Precedence.kind_of_rank_pos hbinds hop)
    | some op => exact ho op (BinaryOp.ofKind?_eq_some_iff.mp hop)

theorem MoreArguments.rank_next_le {ts rest : List Token} {es : List Expr}
    (h : MoreArguments ts es rest) :
    (Precedence.ofKind (nextKind ts)).rank ≤ Precedence.lowest.rank := by
  cases h <;> exact Nat.le_refl _

theorem Expression.begins : ∀ {level ts e rest}, Expression level ts e rest →
    ∃ first tail, ts = first :: tail ∧ first.kind.beginsExpression = true
  | _, _, _, _, .tighter h => h.begins
  | _, _, _, _, .binary hl _ => hl.begins
  | _, _, _, _, .unary _ => ⟨_, _, rfl, UnaryOp.beginsExpression_kind _⟩
  | _, _, _, _, .call hc _ => hc.begins
  | _, _, _, _, .name | _, _, _, _, .int _ | _, _, _, _, .trueWord | _, _, _, _, .falseWord
  | _, _, _, _, .group _ | _, _, _, _, .ifElse _ _ _ | _, _, _, _, .function _ _ => ⟨_, _, rfl, rfl⟩

end Grammar

namespace Phrase

open Grammar

theorem operators_stop {min : Precedence} {e : Expr} {rest : List Token}
    (h : (Precedence.ofKind (nextKind rest)).rank ≤ min.rank) :
    (operators min e rest).Reads (.ok e) rest := by
  cases rest with
  | nil =>
    rw [operators]
    exact Attempt.reads_succeed.mpr ⟨rfl, rfl⟩
  | cons token rest =>
    have hstop : ¬ min.rank < (Precedence.ofKind token.kind).rank := Nat.not_lt.mpr h
    rw [operators, if_neg hstop]
    exact Attempt.reads_succeed.mpr ⟨rfl, rfl⟩

theorem operators_binary {min : Precedence} {op : BinaryOp} {l : String} {left right e : Expr}
    {mid next rest : List Token} (hmin : min.rank < op.level.rank)
    (hr : (expr op.level mid).Reads (.ok right) next)
    (h : (operators min (.binary op left right) next).Reads (.ok e) rest) :
    (operators min left (⟨op.kind, l⟩ :: mid)).Reads (.ok e) rest := by
  rw [operators, if_pos (by rwa [Precedence.ofKind_kind])]
  simp only [BinaryOp.ofKind?_kind, Precedence.ofKind_kind]
  exact Reading.reads_after.mpr (Attempt.andThen_reads hr h)

theorem operators_call {min : Precedence} {l : String} {callee e : Expr} {es : List Expr}
    {mid next rest : List Token} (hmin : min.rank < Precedence.call.rank)
    (ha : (arguments mid).Reads (.ok es) next)
    (h : (operators min (.call callee es) next).Reads (.ok e) rest) :
    (operators min callee (⟨.parenLeft, l⟩ :: mid)).Reads (.ok e) rest := by
  have hbinds : min.rank < (Precedence.ofKind .parenLeft).rank := hmin
  simp only [operators, if_pos hbinds, BinaryOp.ofKind?]
  exact Reading.reads_after.mpr (Attempt.andThen_reads ha h)

theorem exprFrom_of_operand {min : Precedence} {first : Token} {left e : Expr}
    {ts mid rest : List Token} (ho : (operand first ts).Reads (.ok left) mid)
    (h : (operators min left mid).Reads (.ok e) rest) :
    (expr min (first :: ts)).Reads (.ok e) rest := by
  rw [expr, exprFrom]
  exact Reading.reads_after.mpr (Attempt.andThen_reads ho h)

theorem operand_unary {op : UnaryOp} {l : String} {e : Expr} {ts rest : List Token}
    (h : (expr .unary ts).Reads (.ok e) rest) :
    (operand ⟨op.kind, l⟩ ts).Reads (.ok (.unary op e)) rest := by
  cases op <;> rw [operand] <;> exact Attempt.map_reads _ h

theorem reads_moreParameters {ts : List Token} {names : List String} {rest : List Token}
    (h : MoreParameters ts names rest) : (moreParameters ts).Reads (.ok names) rest := by
  induction h with
  | close =>
    rw [moreParameters.eq_def]
    exact Attempt.map_reads _ (reads_expect.mpr ⟨rfl, rfl⟩)
  | comma _ ih =>
    rw [moreParameters]
    refine Reading.reads_after.mpr (Attempt.andThen_reads (reads_expect.mpr ⟨rfl, rfl⟩) ?_)
    exact Attempt.map_reads _ ih

theorem reads_parameters {ts : List Token} {names : List String} {rest : List Token}
    (h : Parameters ts names rest) : (parameters ts).Reads (.ok names) rest := by
  cases h with
  | none => exact Attempt.reads_succeed.mpr ⟨rfl, rfl⟩
  | some h =>
    exact Attempt.andThen_reads (reads_expect.mpr ⟨rfl, rfl⟩)
      (Attempt.map_reads _ (reads_moreParameters h))

theorem reads_ended_of_terminator {stmt : Stmt} {ts rest : List Token} (h : Terminator ts rest) :
    (ended stmt ts).Reads (.ok stmt) rest := by
  cases h with
  | semicolon => exact reads_ended.mpr ⟨rfl, .inl ⟨_, rfl⟩⟩
  | omitted hs => exact reads_ended.mpr ⟨rfl, .inr ⟨hs, rfl⟩⟩

/-- A statement that starts with neither `let` nor `return` is an expression. -/
theorem statement_expr {first : Token} {value : Expr} {ts mid rest : List Token}
    (hbegins : first.kind.beginsExpression = true)
    (hv : (expr .lowest (first :: ts)).Reads (.ok value) mid) (ht : Terminator mid rest) :
    (statement first ts).Reads (.ok (.expr value)) rest := by
  rw [expr] at hv
  rw [statement.eq_def]
  split
  · next hk =>
    rw [hk] at hbegins
    cases hbegins
  · next hk =>
    rw [hk] at hbegins
    cases hbegins
  · exact Attempt.andThen_reads hv (reads_ended_of_terminator ht)

theorem arguments_some {first : Token} {e : Expr} {es : List Expr} {ts mid rest : List Token}
    (hbegins : first.kind.beginsExpression = true)
    (he : (expr .lowest (first :: ts)).Reads (.ok e) mid)
    (hes : (moreArguments mid).Reads (.ok es) rest) :
    (arguments (first :: ts)).Reads (.ok (e :: es)) rest := by
  have hopen : ∀ l tail, first :: ts = ⟨.parenRight, l⟩ :: tail → False := by
    rintro l tail ⟨⟩
    cases hbegins
  rw [arguments]
  · exact Attempt.andThen_reads he (Attempt.map_reads _ hes)
  · exact hopen

/-- Wherever the expression is admitted, it is read first and then gone on with. -/
structure ReadsOn (level : Precedence) (ts : List Token) (e : Expr) (rest : List Token) : Prop where
  reads : ∀ {min e' rest'}, min.Admits level →
    (Precedence.ofKind (nextKind rest)).rank ≤ level.rank →
      (operators min e rest).Reads (.ok e') rest' → (expr min ts).Reads (.ok e') rest'

theorem ReadsOn.whole {level : Precedence} {ts rest : List Token} {e : Expr}
    (h : ReadsOn level ts e rest) (hlevel : level.Admits level)
    (hnext : (Precedence.ofKind (nextKind rest)).rank ≤ level.rank) :
    (expr level ts).Reads (.ok e) rest :=
  h.reads hlevel hnext (operators_stop hnext)

theorem ReadsOn.of_operand {level : Precedence} {first : Token} {ts rest : List Token} {e : Expr}
    (h : (operand first ts).Reads (.ok e) rest) : ReadsOn level (first :: ts) e rest :=
  ⟨fun _ _ hs => exprFrom_of_operand h hs⟩

mutual

theorem reads_expr : ∀ {level ts e rest}, Expression level ts e rest → ReadsOn level ts e rest
  | level, _, _, _, .tighter h => by
    refine ⟨fun hmin hnext hs => ?_⟩
    exact (reads_expr h).reads hmin.tighter (Nat.le_trans hnext level.rank_le_tighter) hs
  | _, _, _, _, @Expression.binary op _ _ _ _ _ _ hl hr => by
    refine ⟨fun hmin hnext hs => ?_⟩
    have hright := (reads_expr hr).reads (Precedence.admits_tighter_level op)
      (Nat.le_trans hnext op.level.rank_le_tighter) (operators_stop hnext)
    refine (reads_expr hl).reads hmin ?_ (operators_binary hmin.rank_lt hright hs)
    exact Nat.le_of_eq (congrArg Precedence.rank (Precedence.ofKind_kind op))
  | _, _, _, _, .unary h => by
    refine ⟨fun hmin hnext hs => ?_⟩
    have hoperand := (reads_expr h).whole Precedence.admits_unary hnext
    exact exprFrom_of_operand (operand_unary hoperand) hs
  | _, _, _, _, .call hc ha => by
    refine ⟨fun hmin hnext hs => ?_⟩
    refine (reads_expr hc).reads hmin (Nat.le_refl _) ?_
    exact operators_call hmin.rank_lt_call (reads_arguments ha) hs
  | _, _, _, _, .name => by
    refine .of_operand ?_
    rw [operand]
    exact Attempt.reads_succeed.mpr ⟨rfl, rfl⟩
  | _, _, _, _, .int hvalue => by
    refine .of_operand ?_
    rw [operand]
    exact reads_integer.mpr ⟨_, hvalue, rfl, rfl⟩
  | _, _, _, _, .trueWord => by
    refine .of_operand ?_
    rw [operand]
    exact Attempt.reads_succeed.mpr ⟨rfl, rfl⟩
  | _, _, _, _, .falseWord => by
    refine .of_operand ?_
    rw [operand]
    exact Attempt.reads_succeed.mpr ⟨rfl, rfl⟩
  | _, _, _, _, .group h => by
    have hinner := (reads_expr h).whole Precedence.admits_lowest (Nat.le_refl _)
    refine .of_operand ?_
    rw [operand]
    exact Attempt.andThen_reads hinner (Attempt.map_reads _ (reads_expect.mpr ⟨rfl, rfl⟩))
  | _, _, _, _, .ifElse hc hb ha => by
    have hcondition := (reads_expr hc).whole Precedence.admits_lowest (Nat.le_refl _)
    refine .of_operand ?_
    rw [operand]
    refine Attempt.andThen_reads (reads_expect.mpr ⟨rfl, rfl⟩) ?_
    refine Attempt.andThen_reads hcondition ?_
    refine Attempt.andThen_reads (reads_expect.mpr ⟨rfl, rfl⟩) ?_
    refine Attempt.andThen_reads (reads_expect.mpr ⟨rfl, rfl⟩) ?_
    exact Reading.andThen_reads (reads_block hb) (Attempt.map_reads _ (reads_alternative ha))
  | _, _, _, _, .function hp hb => by
    refine .of_operand ?_
    rw [operand]
    refine Attempt.andThen_reads (reads_expect.mpr ⟨rfl, rfl⟩) ?_
    refine Attempt.andThen_reads (reads_parameters hp) ?_
    refine Attempt.andThen_reads (reads_expect.mpr ⟨rfl, rfl⟩) ?_
    exact Reading.andThen_reads (reads_block hb) (Attempt.reads_succeed.mpr ⟨rfl, rfl⟩)

theorem reads_arguments : ∀ {ts es rest}, Arguments ts es rest →
    (arguments ts).Reads (.ok es) rest
  | _, _, _, .none => by
    rw [arguments.eq_def]
    exact Reading.reads_after.mpr (Attempt.reads_succeed.mpr ⟨rfl, rfl⟩)
  | _, _, _, .some he hes => by
    have hargument := (reads_expr he).whole Precedence.admits_lowest hes.rank_next_le
    obtain ⟨first, tail, rfl, hbegins⟩ := he.begins
    exact arguments_some hbegins hargument (reads_moreArguments hes)

theorem reads_moreArguments : ∀ {ts es rest}, MoreArguments ts es rest →
    (moreArguments ts).Reads (.ok es) rest
  | _, _, _, .close => by
    rw [moreArguments.eq_def]
    exact Attempt.map_reads _ (reads_expect.mpr ⟨rfl, rfl⟩)
  | _, _, _, .comma he hes => by
    have hargument := (reads_expr he).whole Precedence.admits_lowest hes.rank_next_le
    rw [moreArguments]
    refine Reading.reads_after.mpr (Attempt.andThen_reads hargument ?_)
    exact Attempt.map_reads _ (reads_moreArguments hes)

theorem reads_block : ∀ {ts ss rest}, Block ts ss rest → (block ts).Reads ss rest
  | _, _, _, .close => by
    rw [block]
    exact Reading.reads_done.mpr ⟨rfl, rfl⟩
  | _, _, _, .endOfText => by
    rw [block]
    exact Reading.reads_done.mpr ⟨rfl, rfl⟩
  | _, _, _, .cons hs hss => by
    obtain ⟨first, tail, rfl, hk, hstmt⟩ := reads_statement hs
    rw [block, if_neg hk]
    refine Reading.reads_after.mpr (Reading.andThen_reads (Attempt.settle_reads hstmt) ?_)
    exact Reading.reads_map.mpr ⟨_, reads_block hss, rfl⟩

theorem reads_alternative : ∀ {ts ss rest}, Alternative ts ss rest →
    (alternative ts).Reads (.ok ss) rest
  | _, _, _, .none hk => by
    rw [alternative.eq_def]
    split
    · exact absurd rfl hk
    · exact Attempt.reads_succeed.mpr ⟨rfl, rfl⟩
  | _, _, _, .some h => by
    rw [alternative]
    refine Reading.reads_after.mpr (Attempt.andThen_reads (reads_expect.mpr ⟨rfl, rfl⟩) ?_)
    exact Reading.andThen_reads (reads_block h) (Attempt.reads_succeed.mpr ⟨rfl, rfl⟩)

theorem reads_statement : ∀ {ts s rest}, Statement ts s rest →
    ∃ first tail, ts = first :: tail ∧ first.kind ≠ .braceRight ∧
      (statement first tail).Reads (.ok s) rest
  | _, _, _, .bind hv ht => by
    have hvalue := (reads_expr hv).whole Precedence.admits_lowest ht.rank_next_le
    refine ⟨_, _, rfl, nofun, ?_⟩
    rw [statement]
    refine Attempt.andThen_reads (reads_expect.mpr ⟨rfl, rfl⟩) ?_
    refine Attempt.andThen_reads (reads_expect.mpr ⟨rfl, rfl⟩) ?_
    exact Attempt.andThen_reads hvalue (reads_ended_of_terminator ht)
  | _, _, _, .ret hv ht => by
    have hvalue := (reads_expr hv).whole Precedence.admits_lowest ht.rank_next_le
    refine ⟨_, _, rfl, nofun, ?_⟩
    rw [statement]
    exact Attempt.andThen_reads hvalue (reads_ended_of_terminator ht)
  | _, _, _, .expr hv ht => by
    have hvalue := (reads_expr hv).whole Precedence.admits_lowest ht.rank_next_le
    obtain ⟨first, tail, rfl, hbegins⟩ := hv.begins
    refine ⟨first, tail, rfl, ?_, statement_expr hbegins hvalue ht⟩
    intro hk
    rw [hk] at hbegins
    cases hbegins

end

theorem reads_statements {ts : List Token} {ss : List Stmt} (h : Statements ts ss) :
    (statements ts).Reads ss [] := by
  induction h with
  | nil =>
    rw [statements]
    exact Reading.reads_done.mpr ⟨rfl, rfl⟩
  | cons hs _ ih =>
    obtain ⟨first, tail, rfl, -, hstmt⟩ := reads_statement hs
    rw [statements]
    refine Reading.reads_after.mpr (Reading.andThen_reads (Attempt.settle_reads hstmt) ?_)
    exact Reading.reads_map.mpr ⟨_, ih, rfl⟩

end Phrase

end LetScript
