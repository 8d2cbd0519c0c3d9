import LetScript.Proofs.Parser.Grammar
import LetScript.Proofs.Parser.Reading

/-! What is read without a report is derived by the grammar. The loop over operators has
a left operand of some level at hand, and the next token binds no tighter than that
level; each turn joins the operand to the operator on its right and keeps it so. -/
namespace LetScript

theorem UnaryOp.ofKind?_eq_some_iff {kind : TokenKind} {op : UnaryOp} :
    UnaryOp.ofKind? kind = some op ↔ kind = op.kind := by
  cases op <;> unfold UnaryOp.ofKind? <;> split <;> simp_all [UnaryOp.kind]

theorem BinaryOp.ofKind?_eq_some_iff {kind : TokenKind} {op : BinaryOp} :
    BinaryOp.ofKind? kind = some op ↔ kind = op.kind := by
  unfold BinaryOp.ofKind?
  split <;> cases op <;> simp_all [BinaryOp.kind]

@[simp] theorem BinaryOp.ofKind?_kind (op : BinaryOp) : BinaryOp.ofKind? op.kind = some op :=
  BinaryOp.ofKind?_eq_some_iff.mpr rfl

theorem BinaryOp.level_ne_lowest (op : BinaryOp) : op.level ≠ .lowest := by
  cases op <;> decide

theorem BinaryOp.level_ne_unary (op : BinaryOp) : op.level ≠ .unary := by
  cases op <;> decide

theorem BinaryOp.level_ne_call (op : BinaryOp) : op.level ≠ .call := by
  cases op <;> decide

namespace Precedence

@[simp] theorem ofKind_kind (op : BinaryOp) : ofKind op.kind = op.level := by
  cases op <;> rfl

/-- A token that binds and is no operator opens the arguments of a call. -/
theorem kind_of_rank_pos {kind : TokenKind} (h : 0 < (ofKind kind).rank)
    (hn : BinaryOp.ofKind? kind = none) : kind = .parenLeft := by
  cases kind <;> first | rfl | exact absurd h (Nat.lt_irrefl 0) | cases hn

theorem rank_le_call (level : Precedence) : level.rank ≤ call.rank := by
  cases level <;> decide

theorem rank_tighter {a b : Precedence} (h : a.rank < b.rank) : a.tighter.rank = a.rank + 1 := by
  have := rank_le_call b
  cases a <;> first | rfl | exact absurd h (by omega)

theorem eq_of_rank_eq {a b : Precedence} (h : a.rank = b.rank) : a = b := by
  cases a <;> cases b <;> first | rfl | cases h

/-- An expression of the level is what is read where only operators tighter than `min` join. Two
levels have no operator to be kept out. -/
def Admits (min level : Precedence) : Prop :=
  min.rank < level.rank ∨ min = level ∧ (level = lowest ∨ level = unary)

theorem Admits.rank_le {min level : Precedence} (h : min.Admits level) : min.rank ≤ level.rank := by
  obtain h | ⟨rfl, -⟩ := h
  · exact Nat.le_of_lt h
  · exact Nat.le_refl _

theorem Admits.rank_lt {min : Precedence} {op : BinaryOp} (h : min.Admits op.level) :
    min.rank < op.level.rank := by
  obtain h | ⟨-, h | h⟩ := h
  · exact h
  · exact absurd h op.level_ne_lowest
  · exact absurd h op.level_ne_unary

theorem admits_of_unary_le {min level : Precedence} (hmin : min ≠ call)
    (h : unary.rank ≤ level.rank) : min.Admits level := by
  cases min <;> cases level <;> simp_all [Admits, rank]

end Precedence

namespace BinaryOp

/-- What is read on the right of an operator binds tighter. -/
theorem rank_tighter_level_le {op : BinaryOp} {tight : Precedence} (h : op.level.Admits tight) :
    op.level.tighter.rank ≤ tight.rank := by
  obtain hlt | ⟨rfl, h | h⟩ := h
  · rw [Precedence.rank_tighter hlt]
    exact hlt
  · exact absurd h op.level_ne_lowest
  · exact absurd h op.level_ne_unary

end BinaryOp

namespace Grammar

open Phrase (nextKind)

/-- An expression of a level also stands at every looser one. -/
theorem Expression.loosen {ts : List Token} {e : Expr} {rest : List Token}
    (level tight : Precedence) (h : Expression tight ts e rest) (hle : level.rank ≤ tight.rank) :
    Expression level ts e rest := by
  by_cases heq : level.rank = tight.rank
  · exact Precedence.eq_of_rank_eq heq ▸ h
  · have hlt : level.rank < tight.rank := by omega
    have hstep := Precedence.rank_tighter hlt
    exact .tighter (h.loosen level.tighter tight (by omega))
termination_by tight.rank - level.rank

/-- An expression that joins with operators tighter than `min` only, up to where none follows. -/
def ExpressionAbove (min : Precedence) (ts : List Token) (e : Expr) (rest : List Token) : Prop :=
  ∃ level, min.Admits level ∧ Expression level ts e rest ∧
    (Precedence.ofKind (nextKind rest)).rank ≤ min.rank

/-- A unary operation, which no call follows, or an atom. -/
def Operand (ts : List Token) (e : Expr) (rest : List Token) : Prop :=
  ∃ level, Precedence.unary.rank ≤ level.rank ∧ Expression level ts e rest ∧
    (Precedence.ofKind (nextKind rest)).rank ≤ level.rank

variable {ts rest : List Token} {e : Expr}

theorem Expression.operand (h : Expression .call ts e rest) : Operand ts e rest :=
  ⟨.call, by decide, h, Precedence.rank_le_call _⟩

theorem ExpressionAbove.lowest (h : ExpressionAbove .lowest ts e rest) :
    Expression .lowest ts e rest := by
  obtain ⟨level, -, he, -⟩ := h
  exact he.loosen .lowest level (Nat.zero_le _)

theorem ExpressionAbove.unary (h : ExpressionAbove .unary ts e rest) (op : UnaryOp) (l : String) :
    Operand (⟨op.kind, l⟩ :: ts) (.unary op e) rest := by
  obtain ⟨level, hlevel, he, hnext⟩ := h
  exact ⟨.unary, Nat.le_refl _, .unary (he.loosen .unary level hlevel.rank_le), hnext⟩

end Grammar

namespace Phrase

open Grammar

theorem reads_expect {kind : TokenKind} {ts rest : List Token} {token : Token} :
    (expect kind ts).Reads (.ok token) rest ↔ token.kind = kind ∧ ts = token :: rest := by
  cases ts with
  | nil => simp [expect]
  | cons first ts =>
    simp only [expect]
    split
    · next h =>
      simp only [Reading.reads_after, Attempt.reads_succeed, List.cons.injEq]
      constructor
      · rintro ⟨rfl, rfl⟩
        exact ⟨h, rfl, rfl⟩
      · exact fun h => h.2
    · next h =>
      constructor
      · exact fun hr => absurd hr Attempt.not_reads_giveUp
      · rintro ⟨hk, hts⟩
        cases hts
        exact absurd hk h

theorem reads_integer {literal : String} {ts rest : List Token} {e : Expr} :
    (integer literal ts).Reads (.ok e) rest ↔
      ∃ value : Int64, value.toInt = Text.Decimal.value literal.toList ∧ e = .int value ∧
        ts = rest := by
  unfold integer
  split
  · next value h =>
    have hv := Integer.ofExact?_eq_some_iff.mp h
    simp only [Attempt.reads_succeed]
    constructor
    · rintro ⟨rfl, rfl⟩
      exact ⟨value, hv, rfl, rfl⟩
    · rintro ⟨w, hw, rfl, rfl⟩
      exact ⟨by rw [Int64.toInt_inj.mp (hv.trans hw.symm)], rfl⟩
  · next h =>
    constructor
    · exact fun hr => absurd hr Attempt.not_reads_giveUp
    · rintro ⟨w, hw, -⟩
      rw [Integer.ofExact?_eq_some_iff.mpr hw] at h
      cases h

theorem reads_ended {stmt s : Stmt} {ts rest : List Token} :
    (ended stmt ts).Reads (.ok s) rest ↔
      stmt = s ∧ ((∃ l, ts = ⟨.semicolon, l⟩ :: rest) ∨ nextKind ts ≠ .semicolon ∧ ts = rest) := by
  unfold ended
  split
  · simp [nextKind]
  · next h =>
    have hk : nextKind ts ≠ .semicolon := by
      rcases ts with _ | ⟨⟨kind, l⟩, ts⟩
      · simp [nextKind]
      · rintro rfl
        exact h l ts rfl
    simp only [Attempt.reads_succeed]
    constructor
    · rintro ⟨rfl, rfl⟩
      exact ⟨rfl, .inr ⟨hk, rfl⟩⟩
    · rintro ⟨rfl, ⟨l, rfl⟩ | ⟨-, rfl⟩⟩
      · exact absurd rfl hk
      · exact ⟨rfl, rfl⟩

theorem moreParameters_sound (ts : List Token) {names : List String} {rest : List Token}
    (h : (moreParameters ts).Reads (.ok names) rest) : MoreParameters ts names rest := by
  rw [moreParameters.eq_def] at h
  split at h
  · next l ts =>
    obtain ⟨⟨kind, name⟩, mid, hmid, hname, hmore⟩ :=
      Attempt.reads_andThen.mp (Reading.reads_after.mp h)
    obtain ⟨rfl, rfl⟩ := reads_expect.mp hname
    obtain ⟨names, hnames, rfl⟩ := Attempt.reads_map.mp hmore
    exact .comma (moreParameters_sound mid hnames)
  · obtain ⟨⟨kind, r⟩, hclose, rfl⟩ := Attempt.reads_map.mp h
    obtain ⟨rfl, rfl⟩ := reads_expect.mp hclose
    exact .close
termination_by ts.length
decreasing_by
  subst_vars
  simp only [List.length_cons]
  omega

theorem parameters_sound {ts : List Token} {names : List String} {rest : List Token}
    (h : (parameters ts).Reads (.ok names) rest) : Parameters ts names rest := by
  unfold parameters at h
  split at h
  · obtain ⟨rfl, rfl⟩ := Attempt.reads_succeed.mp (Reading.reads_after.mp h)
    exact .none
  · obtain ⟨⟨kind, name⟩, mid, hmid, hname, hmore⟩ := Attempt.reads_andThen.mp h
    obtain ⟨rfl, rfl⟩ := reads_expect.mp hname
    obtain ⟨names, hnames, rfl⟩ := Attempt.reads_map.mp hmore
    exact .some (moreParameters_sound mid hnames)

/-- A statement has ended where the expression in it has. -/
theorem terminator_of_reads_ended {before ts rest : List Token} {value : Expr} {stmt s : Stmt}
    (hvalue : ExpressionAbove .lowest before value ts) (h : (ended stmt ts).Reads (.ok s) rest) :
    stmt = s ∧ Terminator ts rest := by
  obtain ⟨_, -, -, hnext⟩ := hvalue
  obtain ⟨hs, ⟨l, rfl⟩ | ⟨hk, rfl⟩⟩ := reads_ended.mp h
  · exact ⟨hs, .semicolon⟩
  · refine ⟨hs, .omitted hk ?_ ?_⟩
    · intro hp
      rw [hp] at hnext
      exact absurd hnext (by decide)
    · intro op ho
      rw [ho] at hnext
      cases op <;> exact absurd hnext (by decide)

mutual

theorem expr_sound (min : Precedence) (ts : List Token) {e : Expr} {rest : List Token}
    (hmin : min ≠ .call) (h : (expr min ts).Reads (.ok e) rest) :
    ExpressionAbove min ts e rest := by
  cases ts with
  | nil =>
    rw [expr] at h
    exact absurd h Attempt.not_reads_giveUp
  | cons first ts =>
    rw [expr] at h
    exact exprFrom_sound min first ts hmin (Reading.reads_after.mp h)
termination_by 4 * ts.length
decreasing_by
  subst_vars
  simp only [List.length_cons]
  omega

theorem exprFrom_sound (min : Precedence) (first : Token) (ts : List Token) {e : Expr}
    {rest : List Token} (hmin : min ≠ .call) (h : (exprFrom min first ts).Reads (.ok e) rest) :
    ExpressionAbove min (first :: ts) e rest := by
  rw [exprFrom] at h
  obtain ⟨left, mid, hmid, ho, h⟩ := Attempt.reads_andThen.mp h
  obtain ⟨level, hlevel, hleft, hnext⟩ := operand_sound first ts ho
  exact operators_sound min left mid hmin (Precedence.admits_of_unary_le hmin hlevel) hleft hnext h
termination_by 4 * ts.length + 2
decreasing_by all_goals omega

theorem operand_sound (first : Token) (ts : List Token) {e : Expr} {rest : List Token}
    (h : (operand first ts).Reads (.ok e) rest) : Operand (first :: ts) e rest := by
  rw [operand.eq_def] at h
  obtain ⟨kind, literal⟩ := first
  split at h
  · next hk =>
    obtain ⟨rfl, rfl⟩ := Attempt.reads_succeed.mp h
    cases hk
    exact Expression.name.operand
  · next hk =>
    obtain ⟨value, hvalue, rfl, rfl⟩ := reads_integer.mp h
    cases hk
    exact (Expression.int hvalue).operand
  · next hk =>
    obtain ⟨rfl, rfl⟩ := Attempt.reads_succeed.mp h
    cases hk
    exact Expression.trueWord.operand
  · next hk =>
    obtain ⟨rfl, rfl⟩ := Attempt.reads_succeed.mp h
    cases hk
    exact Expression.falseWord.operand
  · next hk =>
    obtain ⟨operand, ho, rfl⟩ := Attempt.reads_map.mp h
    cases hk
    exact (expr_sound .unary ts (by decide) ho).unary .not literal
  · next hk =>
    obtain ⟨operand, ho, rfl⟩ := Attempt.reads_map.mp h
    cases hk
    exact (expr_sound .unary ts (by decide) ho).unary .minus literal
  · next hk =>
    obtain ⟨inner, mid, hmid, hi, hrest⟩ := Attempt.reads_andThen.mp h
    obtain ⟨⟨kind, r⟩, hclose, rfl⟩ := Attempt.reads_map.mp hrest
    obtain ⟨rfl, rfl⟩ := reads_expect.mp hclose
    cases hk
    have hgroup := (expr_sound .lowest ts (by decide) hi).lowest
    exact (Expression.group hgroup).operand
  · next hk =>
    obtain ⟨⟨k, l⟩, ts₁, hlen₁, hopen, h₁⟩ := Attempt.reads_andThen.mp h
    obtain ⟨rfl, rfl⟩ := reads_expect.mp hopen
    obtain ⟨condition, ts₂, hlen₂, hc, h₂⟩ := Attempt.reads_andThen.mp h₁
    obtain ⟨⟨k', r⟩, ts₃, hlen₃, hclose, h₃⟩ := Attempt.reads_andThen.mp h₂
    obtain ⟨rfl, rfl⟩ := reads_expect.mp hclose
    obtain ⟨⟨k'', b⟩, ts₄, hlen₄, hbrace, h₄⟩ := Attempt.reads_andThen.mp h₃
    obtain ⟨rfl, rfl⟩ := reads_expect.mp hbrace
    obtain ⟨consequence, ts₅, hlen₅, hb, h₅⟩ := Reading.reads_andThen.mp h₄
    obtain ⟨alternative, ha, rfl⟩ := Attempt.reads_map.mp h₅
    cases hk
    have hcondition := (expr_sound .lowest ts₁ (by decide) hc).lowest
    have hconsequence := block_sound ts₄ hb
    have halternative := alternative_sound ts₅ ha
    exact (Expression.ifElse hcondition hconsequence halternative).operand
  · next hk =>
    obtain ⟨⟨k, l⟩, ts₁, hlen₁, hopen, h₁⟩ := Attempt.reads_andThen.mp h
    obtain ⟨rfl, rfl⟩ := reads_expect.mp hopen
    obtain ⟨names, ts₂, hlen₂, hp, h₂⟩ := Attempt.reads_andThen.mp h₁
    obtain ⟨⟨k', b⟩, ts₃, hlen₃, hbrace, h₃⟩ := Attempt.reads_andThen.mp h₂
    obtain ⟨rfl, rfl⟩ := reads_expect.mp hbrace
    obtain ⟨body, ts₄, hlen₄, hb, h₄⟩ := Reading.reads_andThen.mp h₃
    obtain ⟨rfl, rfl⟩ := Attempt.reads_succeed.mp h₄
    cases hk
    have hbody := block_sound ts₃ hb
    exact (Expression.function (parameters_sound hp) hbody).operand
  · exact absurd h Attempt.not_reads_giveUp
termination_by 4 * ts.length + 1
decreasing_by all_goals omega

/-- Joins a left operand that was read from `ts₀` to what follows it. -/
theorem operators_sound (min : Precedence) (left : Expr) (ts : List Token) {ts₀ rest : List Token}
    {level : Precedence} {e : Expr} (hmin : min ≠ .call) (hlevel : min.Admits level)
    (hleft : Expression level ts₀ left ts)
    (hnext : (Precedence.ofKind (nextKind ts)).rank ≤ level.rank)
    (h : (operators min left ts).Reads (.ok e) rest) : ExpressionAbove min ts₀ e rest := by
  cases ts with
  | nil =>
    rw [operators] at h
    obtain ⟨rfl, rfl⟩ := Attempt.reads_succeed.mp h
    exact ⟨level, hlevel, hleft, Nat.zero_le _⟩
  | cons token ts =>
    rw [operators] at h
    split at h
    · next hbinds =>
      split at h
      · next op hop =>
        obtain ⟨kind, l⟩ := token
        obtain rfl := BinaryOp.ofKind?_eq_some_iff.mp hop
        simp only [nextKind, Precedence.ofKind_kind] at hbinds hnext h
        obtain ⟨right, mid, hmid, hr, hs⟩ := Attempt.reads_andThen.mp (Reading.reads_after.mp h)
        obtain ⟨tight, htight, hright, hnext'⟩ := expr_sound op.level ts op.level_ne_call hr
        have hjoined := Expression.binary (hleft.loosen op.level level hnext)
          (hright.loosen op.level.tighter tight (op.rank_tighter_level_le htight))
        exact operators_sound min (.binary op left right) mid hmin (.inl hbinds) hjoined hnext' hs
      · next hop =>
        obtain ⟨kind, l⟩ := token
        obtain rfl := Precedence.kind_of_rank_pos (Nat.zero_lt_of_lt hbinds) hop
        obtain ⟨es, mid, hmid, ha, hs⟩ := Attempt.reads_andThen.mp (Reading.reads_after.mp h)
        have hcall := Expression.call (hleft.loosen .call level hnext) (arguments_sound ts ha)
        exact operators_sound min (.call left es) mid hmin (.inl hbinds) hcall
          (Precedence.rank_le_call _) hs
    · next hstop =>
      obtain ⟨rfl, rfl⟩ := Attempt.reads_succeed.mp h
      exact ⟨level, hlevel, hleft, Nat.le_of_not_lt hstop⟩
termination_by 4 * ts.length
decreasing_by
  all_goals subst_vars
  all_goals simp only [List.length_cons]
  all_goals omega

theorem arguments_sound (ts : List Token) {es : List Expr} {rest : List Token}
    (h : (arguments ts).Reads (.ok es) rest) : Arguments ts es rest := by
  rw [arguments.eq_def] at h
  split at h
  · obtain ⟨rfl, rfl⟩ := Attempt.reads_succeed.mp (Reading.reads_after.mp h)
    exact .none
  · obtain ⟨e, mid, hmid, he, hmore⟩ := Attempt.reads_andThen.mp h
    obtain ⟨es, hes, rfl⟩ := Attempt.reads_map.mp hmore
    exact .some (expr_sound .lowest ts (by decide) he).lowest
      (moreArguments_sound mid hes)
termination_by 4 * ts.length + 1
decreasing_by all_goals omega

theorem moreArguments_sound (ts : List Token) {es : List Expr} {rest : List Token}
    (h : (moreArguments ts).Reads (.ok es) rest) : MoreArguments ts es rest := by
  rw [moreArguments.eq_def] at h
  split at h
  · next l ts =>
    obtain ⟨e, mid, hmid, he, hmore⟩ := Attempt.reads_andThen.mp (Reading.reads_after.mp h)
    obtain ⟨es, hes, rfl⟩ := Attempt.reads_map.mp hmore
    exact .comma (expr_sound .lowest ts (by decide) he).lowest
      (moreArguments_sound mid hes)
  · obtain ⟨⟨kind, r⟩, hclose, rfl⟩ := Attempt.reads_map.mp h
    obtain ⟨rfl, rfl⟩ := reads_expect.mp hclose
    exact .close
termination_by 4 * ts.length
decreasing_by
  all_goals subst_vars
  all_goals simp only [List.length_cons]
  all_goals omega

theorem block_sound (ts : List Token) {ss : List Stmt} {rest : List Token}
    (h : (block ts).Reads ss rest) : Block ts ss rest := by
  cases ts with
  | nil =>
    rw [block] at h
    obtain ⟨rfl, rfl⟩ := Reading.reads_done.mp h
    exact .endOfText
  | cons first ts =>
    rw [block] at h
    split at h
    · next hk =>
      obtain ⟨kind, l⟩ := first
      obtain ⟨rfl, rfl⟩ := Reading.reads_done.mp (Reading.reads_after.mp h)
      cases hk
      exact .close
    · obtain ⟨stmts, mid, hmid, hstmt, hmore⟩ :=
        Reading.reads_andThen.mp (Reading.reads_after.mp h)
      obtain ⟨s, rfl, hs⟩ := Attempt.reads_settle.mp hstmt
      obtain ⟨ss, hss, rfl⟩ := Reading.reads_map.mp hmore
      exact .cons (statement_sound first ts hs) (block_sound mid hss)
termination_by 4 * ts.length
decreasing_by
  all_goals subst_vars
  all_goals simp only [List.length_cons]
  all_goals omega

theorem alternative_sound (ts : List Token) {ss : Option (List Stmt)} {rest : List Token}
    (h : (alternative ts).Reads (.ok ss) rest) : Alternative ts ss rest := by
  rw [alternative.eq_def] at h
  split at h
  · next l ts =>
    obtain ⟨⟨kind, b⟩, mid, hmid, hbrace, hblock⟩ :=
      Attempt.reads_andThen.mp (Reading.reads_after.mp h)
    obtain ⟨rfl, rfl⟩ := reads_expect.mp hbrace
    obtain ⟨ss, next, hnext, hb, hrest⟩ := Reading.reads_andThen.mp hblock
    obtain ⟨rfl, rfl⟩ := Attempt.reads_succeed.mp hrest
    exact .some (block_sound mid hb)
  · next hno =>
    obtain ⟨rfl, rfl⟩ := Attempt.reads_succeed.mp h
    refine .none fun hk => ?_
    rcases ts with _ | ⟨⟨kind, l⟩, ts⟩
    · cases hk
    · cases hk
      exact hno l ts rfl
termination_by 4 * ts.length
decreasing_by
  all_goals subst_vars
  all_goals simp only [List.length_cons]
  all_goals omega

theorem statement_sound (first : Token) (ts : List Token) {s : Stmt} {rest : List Token}
    (h : (statement first ts).Reads (.ok s) rest) : Statement (first :: ts) s rest := by
  rw [statement.eq_def] at h
  obtain ⟨kind, literal⟩ := first
  split at h
  · next hk =>
    obtain ⟨⟨k, name⟩, ts₁, hlen₁, hname, h₁⟩ := Attempt.reads_andThen.mp h
    obtain ⟨rfl, rfl⟩ := reads_expect.mp hname
    obtain ⟨⟨k', a⟩, ts₂, hlen₂, hequal, h₂⟩ := Attempt.reads_andThen.mp h₁
    obtain ⟨rfl, rfl⟩ := reads_expect.mp hequal
    obtain ⟨value, mid, hmid, hv, hend⟩ := Attempt.reads_andThen.mp h₂
    have hvalue := expr_sound .lowest ts₂ (by decide) hv
    obtain ⟨rfl, ht⟩ := terminator_of_reads_ended hvalue hend
    cases hk
    exact .bind hvalue.lowest ht
  · next hk =>
    obtain ⟨value, mid, hmid, hv, hend⟩ := Attempt.reads_andThen.mp h
    have hvalue := expr_sound .lowest ts (by decide) hv
    obtain ⟨rfl, ht⟩ := terminator_of_reads_ended hvalue hend
    cases hk
    exact .ret hvalue.lowest ht
  · obtain ⟨value, mid, hmid, hv, hend⟩ := Attempt.reads_andThen.mp h
    have hvalue := exprFrom_sound .lowest _ ts (by decide) hv
    obtain ⟨rfl, ht⟩ := terminator_of_reads_ended hvalue hend
    exact .expr hvalue.lowest ht
termination_by 4 * ts.length + 3
decreasing_by
  all_goals subst_vars
  all_goals try simp only [List.length_cons]
  all_goals omega

end

theorem statements_sound (ts : List Token) {ss : List Stmt} {rest : List Token}
    (h : (statements ts).Reads ss rest) : Statements ts ss := by
  cases ts with
  | nil =>
    rw [statements] at h
    obtain ⟨rfl, rfl⟩ := Reading.reads_done.mp h
    exact .nil
  | cons first ts =>
    rw [statements] at h
    obtain ⟨stmts, mid, hmid, hstmt, hmore⟩ :=
      Reading.reads_andThen.mp (Reading.reads_after.mp h)
    obtain ⟨s, rfl, hs⟩ := Attempt.reads_settle.mp hstmt
    obtain ⟨ss, hss, rfl⟩ := Reading.reads_map.mp hmore
    exact .cons (statement_sound first ts hs) (statements_sound mid hss)
termination_by ts.length
decreasing_by
  subst_vars
  simp only [List.length_cons]
  omega

end Phrase

end LetScript
