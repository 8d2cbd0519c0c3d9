import LetScript.Parser
import LetScript.Proofs.Tree.Canonical
import Mathlib.Data.List.TakeWhile

/-! Every tree that is read from a text is canonical, whatever was wrong with the text:
what is given up leaves nothing in the tree, and a name comes into it from an identifier
token. The tokens that are left are passed on by every reading. -/
namespace LetScript

/-- An identifier can be written as a name. -/
def Token.WellNamed (token : Token) : Prop :=
  token.kind = .identifier → IsName token.literal

def WellNamed (ts : List Token) : Prop :=
  ∀ token ∈ ts, token.WellNamed

theorem wellNamed_cons {token : Token} {ts : List Token} :
    WellNamed (token :: ts) ↔ token.WellNamed ∧ WellNamed ts :=
  List.forall_mem_cons

namespace Lexer

theorem wellNamed_tokenAt (c : Char) (rest : List Char) : (tokenAt c rest).1.WellNamed := by
  unfold tokenAt
  split
  · exact nofun
  · exact nofun
  · split
    · next kind h =>
      intro hk
      dsimp only at hk
      unfold symbol? at h
      split at h <;> cases h <;> cases hk
    · split
      · next hc =>
        intro hk
        refine ⟨by simp [word], ?_, ofWord_eq_identifier_iff.mp hk⟩
        simp only [word, String.toList_ofList, List.mem_cons]
        rintro d (rfl | hd)
        · exact hc
        · exact List.mem_takeWhile_imp hd
      · split
        · exact nofun
        · exact nofun

theorem wellNamed_tokens (cs : List Char) : WellNamed (tokens cs) := by
  fun_induction tokens cs with
  | case1 => exact nofun
  | case2 cs c rest h ih => exact wellNamed_cons.mpr ⟨wellNamed_tokenAt c rest, ih⟩

end Lexer

variable {α β : Type} {n : Nat}

/-- The value is as `P` says, and the tokens that are left are well named. -/
def Reading.Yields (P : α → Prop) (r : Reading α n) : Prop :=
  P r.value ∧ WellNamed r.rest

/-- The value, if there is one, is as `P` says, and the tokens that are left are well named. -/
def Attempt.Yields (P : α → Prop) (r : Attempt α n) : Prop :=
  (∀ a, r.value = .ok a → P a) ∧ WellNamed r.rest

variable {P : α → Prop} {Q : β → Prop}

namespace Reading

theorem yields_after {r : Reading α n} {k : Nat} (hr : r.Yields P) : (after k r).Yields P :=
  hr

theorem yields_map {f : α → β} {r : Reading α n} (hr : r.Yields P) (hf : ∀ a, P a → Q (f a)) :
    (r.map f).Yields Q :=
  ⟨hf r.value hr.1, hr.2⟩

theorem yields_andThen {r : Reading α n}
    {next : α → (rest : List Token) → rest.length ≤ n → Reading β rest.length} (hr : r.Yields P)
    (hnext : ∀ a rest h, P a → WellNamed rest → (next a rest h).Yields Q) :
    (r.andThen next).Yields Q :=
  hnext r.value r.rest r.length_rest_le hr.1 hr.2

end Reading

namespace Attempt

theorem yields_succeed {a : α} {ts : List Token} (ha : P a) (hts : WellNamed ts) :
    (succeed a ts).Yields P :=
  ⟨fun _ h => Except.ok.inj h ▸ ha, hts⟩

theorem yields_giveUp {d : Diagnostic} {ts : List Token} (hts : WellNamed ts) :
    (giveUp d ts).Yields P :=
  ⟨nofun, hts⟩

theorem yields_after {r : Attempt α n} {k : Nat} (hr : r.Yields P) :
    Attempt.Yields P (Reading.after k r) :=
  hr

theorem yields_map {f : α → β} {r : Attempt α n} (hr : r.Yields P) (hf : ∀ a, P a → Q (f a)) :
    (r.map f).Yields Q := by
  refine ⟨fun b hb => ?_, hr.2⟩
  cases hv : r.value with
  | error d => simp [map, Reading.map, hv, Except.map] at hb
  | ok a =>
    simp only [map, Reading.map, hv, Except.map, Except.ok.injEq] at hb
    exact hb ▸ hf a (hr.1 a hv)

theorem yields_andThen {r : Attempt α n}
    {next : α → (rest : List Token) → rest.length ≤ n → Attempt β rest.length} (hr : r.Yields P)
    (hnext : ∀ a rest h, P a → WellNamed rest → (next a rest h).Yields Q) :
    (r.andThen next).Yields Q := by
  obtain ⟨v, reports, rest, hlen⟩ := r
  cases v with
  | error d => exact yields_giveUp hr.2
  | ok a => exact hnext a rest hlen (hr.1 a rfl) hr.2

/-- An attempt that goes on from a block, which is never given up. -/
theorem yields_of_reading {r : Reading α n}
    {next : α → (rest : List Token) → rest.length ≤ n → Attempt β rest.length} (hr : r.Yields P)
    (hnext : ∀ a rest h, P a → WellNamed rest → (next a rest h).Yields Q) :
    Attempt.Yields Q (Reading.andThen r next) :=
  hnext r.value r.rest r.length_rest_le hr.1 hr.2

theorem yields_settle {r : Attempt Stmt n} (hr : r.Yields Stmt.Canonical) :
    r.settle.Yields CanonicalStatements := by
  obtain ⟨v, reports, rest, hlen⟩ := r
  cases v with
  | error d => exact ⟨trivial, hr.2⟩
  | ok s => exact ⟨⟨hr.1 s rfl, trivial⟩, hr.2⟩

end Attempt

namespace Phrase

open Attempt

theorem yields_expect {kind : TokenKind} {ts : List Token} (hts : WellNamed ts) :
    (expect kind ts).Yields fun token => token.kind = kind ∧ token.WellNamed := by
  cases ts with
  | nil => exact yields_giveUp hts
  | cons token rest =>
    rw [expect]
    split
    · next hk =>
      obtain ⟨htoken, hrest⟩ := wellNamed_cons.mp hts
      exact yields_succeed ⟨hk, htoken⟩ hrest
    · exact yields_giveUp hts

theorem yields_expect_identifier {ts : List Token} (hts : WellNamed ts) :
    (expect .identifier ts).Yields fun token => IsName token.literal := by
  obtain ⟨hvalue, hrest⟩ := yields_expect hts
  exact ⟨fun token h => (hvalue token h).2 (hvalue token h).1, hrest⟩

theorem yields_integer {literal : String} {ts : List Token} (hts : WellNamed ts) :
    (integer literal ts).Yields Expr.Canonical := by
  unfold integer
  split
  · next value h =>
    have hvalue := Integer.ofExact?_eq_some_iff.mp h
    refine yields_succeed (Int64.le_iff_toInt_le.mpr ?_) hts
    rw [hvalue]
    exact Int.natCast_nonneg _
  · exact yields_giveUp hts

theorem yields_ended {stmt : Stmt} {ts : List Token} (hstmt : stmt.Canonical)
    (hts : WellNamed ts) : (ended stmt ts).Yields Stmt.Canonical := by
  unfold ended
  split
  · exact yields_succeed hstmt (wellNamed_cons.mp hts).2
  · exact yields_succeed hstmt hts

theorem yields_moreParameters (ts : List Token) (hts : WellNamed ts) :
    (moreParameters ts).Yields fun names => ∀ name ∈ names, IsName name := by
  rw [moreParameters.eq_def]
  split
  · next l ts =>
    refine yields_after (yields_andThen (yields_expect_identifier (wellNamed_cons.mp hts).2) ?_)
    intro token rest hlen hname hrest
    refine yields_map (yields_moreParameters rest hrest) ?_
    intro names hnames
    exact List.forall_mem_cons.mpr ⟨hname, hnames⟩
  · exact yields_map (yields_expect hts) fun _ _ => List.forall_mem_nil _
termination_by ts.length
decreasing_by
  subst_vars
  simp only [List.length_cons]
  omega

theorem yields_parameters {ts : List Token} (hts : WellNamed ts) :
    (parameters ts).Yields fun names => ∀ name ∈ names, IsName name := by
  unfold parameters
  split
  · exact yields_succeed (List.forall_mem_nil _) (wellNamed_cons.mp hts).2
  · refine yields_andThen (yields_expect_identifier hts) ?_
    intro token rest hlen hname hrest
    refine yields_map (yields_moreParameters rest hrest) ?_
    intro names hnames
    exact List.forall_mem_cons.mpr ⟨hname, hnames⟩

mutual

theorem yields_expr (min : Precedence) (ts : List Token) (hts : WellNamed ts) :
    (expr min ts).Yields Expr.Canonical := by
  cases ts with
  | nil =>
    rw [expr]
    exact yields_giveUp hts
  | cons first ts =>
    obtain ⟨hfirst, hts⟩ := wellNamed_cons.mp hts
    rw [expr]
    exact yields_after (yields_exprFrom min first ts hfirst hts)
termination_by 4 * ts.length
decreasing_by
  subst_vars
  simp only [List.length_cons]
  omega

theorem yields_exprFrom (min : Precedence) (first : Token) (ts : List Token)
    (hfirst : first.WellNamed) (hts : WellNamed ts) :
    (exprFrom min first ts).Yields Expr.Canonical := by
  rw [exprFrom]
  refine yields_andThen (yields_operand first ts hfirst hts) ?_
  intro left rest hlen hleft hrest
  exact yields_operators min left rest hleft hrest
termination_by 4 * ts.length + 2
decreasing_by all_goals omega

theorem yields_operand (first : Token) (ts : List Token) (hfirst : first.WellNamed)
    (hts : WellNamed ts) : (operand first ts).Yields Expr.Canonical := by
  rw [operand.eq_def]
  split
  · next hk => exact yields_succeed (hfirst hk) hts
  · exact yields_integer hts
  · exact yields_succeed trivial hts
  · exact yields_succeed trivial hts
  · exact yields_map (yields_expr .unary ts hts) fun _ h => h
  · exact yields_map (yields_expr .unary ts hts) fun _ h => h
  · refine yields_andThen (yields_expr .lowest ts hts) ?_
    intro inner rest hlen hinner hrest
    exact yields_map (yields_expect hrest) fun _ _ => hinner
  · refine yields_andThen (yields_expect hts) ?_
    intro _ ts₁ hlen₁ _ hts₁
    refine yields_andThen (yields_expr .lowest ts₁ hts₁) ?_
    intro condition ts₂ hlen₂ hcondition hts₂
    refine yields_andThen (yields_expect hts₂) ?_
    intro _ ts₃ hlen₃ _ hts₃
    refine yields_andThen (yields_expect hts₃) ?_
    intro _ ts₄ hlen₄ _ hts₄
    refine yields_of_reading (yields_block ts₄ hts₄) ?_
    intro consequence ts₅ hlen₅ hconsequence hts₅
    refine yields_map (yields_alternative ts₅ hts₅) ?_
    intro alternative halternative
    exact ⟨hcondition, hconsequence, halternative⟩
  · refine yields_andThen (yields_expect hts) ?_
    intro _ ts₁ hlen₁ _ hts₁
    refine yields_andThen (yields_parameters hts₁) ?_
    intro parameters ts₂ hlen₂ hparameters hts₂
    refine yields_andThen (yields_expect hts₂) ?_
    intro _ ts₃ hlen₃ _ hts₃
    refine yields_of_reading (yields_block ts₃ hts₃) ?_
    intro body ts₄ hlen₄ hbody hts₄
    exact yields_succeed ⟨hparameters, hbody⟩ hts₄
  · exact yields_giveUp hts
termination_by 4 * ts.length + 1
decreasing_by all_goals omega

theorem yields_operators (min : Precedence) (left : Expr) (ts : List Token)
    (hleft : left.Canonical) (hts : WellNamed ts) :
    (operators min left ts).Yields Expr.Canonical := by
  cases ts with
  | nil =>
    rw [operators]
    exact yields_succeed hleft hts
  | cons token ts =>
    rw [operators]
    split
    · obtain ⟨-, hts⟩ := wellNamed_cons.mp hts
      split
      · next op hop =>
        refine yields_after (yields_andThen (yields_expr _ ts hts) ?_)
        intro right rest hlen hright hrest
        exact yields_operators min (.binary op left right) rest ⟨hleft, hright⟩ hrest
      · refine yields_after (yields_andThen (yields_arguments ts hts) ?_)
        intro es rest hlen hes hrest
        exact yields_operators min (.call left es) rest ⟨hleft, hes⟩ hrest
    · exact yields_succeed hleft hts
termination_by 4 * ts.length
decreasing_by
  all_goals subst_vars
  all_goals simp only [List.length_cons]
  all_goals omega

theorem yields_arguments (ts : List Token) (hts : WellNamed ts) :
    (arguments ts).Yields CanonicalExprs := by
  rw [arguments.eq_def]
  split
  · exact yields_succeed trivial (wellNamed_cons.mp hts).2
  · refine yields_andThen (yields_expr .lowest ts hts) ?_
    intro argument rest hlen hargument hrest
    exact yields_map (yields_moreArguments rest hrest) fun _ hes => ⟨hargument, hes⟩
termination_by 4 * ts.length + 1
decreasing_by all_goals omega

theorem yields_moreArguments (ts : List Token) (hts : WellNamed ts) :
    (moreArguments ts).Yields CanonicalExprs := by
  rw [moreArguments.eq_def]
  split
  · next l ts =>
    refine yields_after (yields_andThen (yields_expr .lowest ts (wellNamed_cons.mp hts).2) ?_)
    intro argument rest hlen hargument hrest
    exact yields_map (yields_moreArguments rest hrest) fun _ hes => ⟨hargument, hes⟩
  · exact yields_map (yields_expect hts) fun _ _ => trivial
termination_by 4 * ts.length
decreasing_by
  all_goals subst_vars
  all_goals simp only [List.length_cons]
  all_goals omega

theorem yields_block (ts : List Token) (hts : WellNamed ts) :
    (block ts).Yields CanonicalStatements := by
  cases ts with
  | nil =>
    rw [block]
    exact ⟨trivial, hts⟩
  | cons first ts =>
    obtain ⟨hfirst, hts⟩ := wellNamed_cons.mp hts
    rw [block]
    split
    · exact ⟨trivial, hts⟩
    · have hstatement := yields_settle (yields_statement first ts hfirst hts)
      refine Reading.yields_after (Reading.yields_andThen hstatement ?_)
      intro stmts rest hlen hstmts hrest
      exact Reading.yields_map (yields_block rest hrest) fun _ => canonicalStatements_append hstmts
termination_by 4 * ts.length
decreasing_by
  all_goals subst_vars
  all_goals simp only [List.length_cons]
  all_goals omega

theorem yields_alternative (ts : List Token) (hts : WellNamed ts) :
    (alternative ts).Yields CanonicalElse := by
  rw [alternative.eq_def]
  split
  · next l ts =>
    refine yields_after (yields_andThen (yields_expect (wellNamed_cons.mp hts).2) ?_)
    intro _ ts₁ hlen₁ _ hts₁
    refine yields_of_reading (yields_block ts₁ hts₁) ?_
    intro stmts rest hlen hstmts hrest
    exact yields_succeed hstmts hrest
  · exact yields_succeed trivial hts
termination_by 4 * ts.length
decreasing_by
  all_goals subst_vars
  all_goals simp only [List.length_cons]
  all_goals omega

theorem yields_statement (first : Token) (ts : List Token) (hfirst : first.WellNamed)
    (hts : WellNamed ts) : (statement first ts).Yields Stmt.Canonical := by
  rw [statement.eq_def]
  split
  · refine yields_andThen (yields_expect_identifier hts) ?_
    intro name ts₁ hlen₁ hname hts₁
    refine yields_andThen (yields_expect hts₁) ?_
    intro _ ts₂ hlen₂ _ hts₂
    refine yields_andThen (yields_expr .lowest ts₂ hts₂) ?_
    intro value rest hlen hvalue hrest
    exact yields_ended ⟨hname, hvalue⟩ hrest
  · refine yields_andThen (yields_expr .lowest ts hts) ?_
    intro value rest hlen hvalue hrest
    exact yields_ended hvalue hrest
  · refine yields_andThen (yields_exprFrom .lowest first ts hfirst hts) ?_
    intro value rest hlen hvalue hrest
    exact yields_ended hvalue hrest
termination_by 4 * ts.length + 3
decreasing_by all_goals omega

end

theorem yields_statements (ts : List Token) (hts : WellNamed ts) :
    (statements ts).Yields CanonicalStatements := by
  cases ts with
  | nil =>
    rw [statements]
    exact ⟨trivial, hts⟩
  | cons first ts =>
    obtain ⟨hfirst, hts⟩ := wellNamed_cons.mp hts
    rw [statements]
    have hstatement := yields_settle (yields_statement first ts hfirst hts)
    refine Reading.yields_after (Reading.yields_andThen hstatement ?_)
    intro stmts rest hlen hstmts hrest
    refine Reading.yields_map (yields_statements rest hrest) ?_
    exact fun _ => canonicalStatements_append hstmts
termination_by ts.length
decreasing_by
  subst_vars
  simp only [List.length_cons]
  omega

end Phrase

/-- The tree that is read from a text, with or without reports, is canonical. -/
theorem Parser.canonical_program (text : String) :
    (Parser.ofText text).program.1.Canonical :=
  (Phrase.yields_statements _ (Lexer.wellNamed_tokens text.toList)).1

end LetScript
