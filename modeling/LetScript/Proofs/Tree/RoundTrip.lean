import LetScript.Proofs.Parser.Acceptance
import LetScript.Proofs.Parser.Canonical
import LetScript.Proofs.Tree.Spelling

/-! The text of a tree is read as that tree. The grammar derives a canonical tree from its
tokens: the parentheses around operator applications make every operand one that binds as
tightly as a call, and only an `else` after it could be taken into an expression. -/
namespace LetScript

theorem Text.Decimal.value_encode (n : Nat) : value (encode n).toList = n := by
  change value (String.ofList (Nat.toDigits 10 n)).toList = n
  rw [String.toList_ofList, value_toDigits]

namespace Grammar

open Phrase (nextKind)

/-- The tokens stand for the expression, unless an `else` comes after them. -/
def Derives (level : Precedence) (ts : List Token) (e : Expr) : Prop :=
  ∀ rest, nextKind rest ≠ .keyword .elseWord → Expression level (ts ++ rest) e rest

/-- The tokens of the statement stand for it, both before another statement and as the last one. -/
structure DerivesStatement (s : Stmt) : Prop where
  followed : ∀ rest, Statement (s.tokens ++ (s.terminatorTokens ++ rest)) s rest
  last : ∀ rest, Terminator rest rest → nextKind rest ≠ .keyword .elseWord →
    Statement (s.tokens ++ rest) s rest

variable {e : Expr} {ss : List Stmt} {rest : List Token}

theorem Derives.enclose
    (h : Derives (if e.isOperation then .lowest else .call) e.innerTokens e) :
    Derives .call e.tokens e := by
  unfold Expr.tokens Expr.enclose
  cases hop : e.isOperation with
  | false => simpa only [hop, Bool.false_eq_true, if_false] using h
  | true =>
    intro rest hrest
    rw [hop, if_pos rfl] at h
    rw [if_pos rfl, Token.parenthesized, List.cons_append, List.append_assoc]
    exact .group (h _ nofun)

theorem Derives.loosen {level : Precedence} {ts : List Token} (h : Derives .call ts e) :
    Derives level ts e :=
  fun rest hrest => (h rest hrest).loosen level .call (Precedence.rank_le_call level)

/-- Where any expression can stand, it needs no parentheses of its own. -/
theorem Derives.unenclosed
    (h : Derives (if e.isOperation then .lowest else .call) e.innerTokens e) :
    Derives .lowest e.innerTokens e := by
  split at h
  · exact h
  · exact h.loosen

theorem moreParameters_tokens (first : String) (names : List String) (rest : List Token) :
    ∃ ts, Token.commaSeparated ((first :: names).map fun name => [⟨.identifier, name⟩]) ++
      .ofSymbol ')' :: rest = ⟨.identifier, first⟩ :: ts ∧ MoreParameters ts names rest := by
  induction names generalizing first with
  | nil => exact ⟨_, rfl, .close⟩
  | cons next names ih =>
    obtain ⟨ts, heq, hmore⟩ := ih next
    refine ⟨.ofSymbol ',' :: ⟨.identifier, next⟩ :: ts, ?_, .comma hmore⟩
    rw [← heq]
    rfl

theorem parameters_tokens (names : List String) (rest : List Token) :
    Parameters (Token.commaSeparated (names.map fun name => [⟨.identifier, name⟩]) ++
      .ofSymbol ')' :: rest) names rest := by
  cases names with
  | nil => exact .none
  | cons first names =>
    obtain ⟨ts, heq, hmore⟩ := moreParameters_tokens first names rest
    rw [heq]
    exact .some hmore

theorem moreArguments_tokens {items : List (List Token)} {es : List Expr}
    (h : List.Forall₂ (Derives .lowest) items es) (item rest : List Token) :
    ∃ mid, Token.commaSeparated (item :: items) ++ .ofSymbol ')' :: rest = item ++ mid ∧
      nextKind mid ≠ .keyword .elseWord ∧ MoreArguments mid es rest := by
  induction h generalizing item with
  | nil => exact ⟨.ofSymbol ')' :: rest, rfl, nofun, .close⟩
  | @cons next e items es he _ ih =>
    obtain ⟨mid, heq, hnext, hmore⟩ := ih next
    refine ⟨.ofSymbol ',' :: (next ++ mid), ?_, nofun, .comma (he mid hnext) hmore⟩
    rw [← heq, Token.commaSeparated, List.append_assoc, List.cons_append]

theorem arguments_tokens {items : List (List Token)} {es : List Expr}
    (h : List.Forall₂ (Derives .lowest) items es) :
    Arguments (Token.commaSeparated items ++ .ofSymbol ')' :: rest) es rest := by
  cases h with
  | nil => exact .none
  | @cons item e items es he hes =>
    obtain ⟨mid, heq, hnext, hmore⟩ := moreArguments_tokens hes item rest
    rw [heq]
    exact .some (he mid hnext) hmore

theorem derives_statementTokens {P : List Token → List Stmt → Prop} (hend : Terminator rest rest)
    (helse : nextKind rest ≠ .keyword .elseWord) (hnil : P rest [])
    (hcons : ∀ {ts s mid ss}, Statement ts s mid → P mid ss → P ts (s :: ss)) :
    ∀ ss : List Stmt, (∀ s ∈ ss, DerivesStatement s) → P (statementTokens ss ++ rest) ss
  | [], _ => hnil
  | [s], h => hcons ((h s List.mem_cons_self).last rest hend helse) hnil
  | s :: next :: ss, h => by
    obtain ⟨hs, hss⟩ := List.forall_mem_cons.mp h
    rw [statementTokens, List.append_assoc, List.append_assoc]
    exact hcons (hs.followed _) (derives_statementTokens hend helse hnil hcons (next :: ss) hss)

theorem block_tokens (h : ∀ s ∈ ss, DerivesStatement s) :
    Block (statementTokens ss ++ .ofSymbol '\x7d' :: rest) ss rest := by
  have hend : Terminator (.ofSymbol '\x7d' :: rest) (.ofSymbol '\x7d' :: rest) :=
    .omitted nofun nofun fun op => by cases op <;> nofun
  exact derives_statementTokens (P := fun ts ss => Block ts ss rest) hend nofun .close .cons ss h

theorem statements_tokens (h : ∀ s ∈ ss, DerivesStatement s) :
    Statements (statementTokens ss) ss := by
  have hend : Terminator [] [] := .omitted nofun nofun fun op => by cases op <;> nofun
  have hss := derives_statementTokens (P := Statements) hend nofun .nil .cons ss h
  rwa [List.append_nil] at hss

theorem braced_tokens (h : ∀ s ∈ ss, DerivesStatement s) (rest : List Token) :
    ∃ ts, Token.braced (statementTokens ss) ++ rest = .ofSymbol '\x7b' :: ts ∧
      Block ts ss rest := by
  refine ⟨_, ?_, block_tokens h⟩
  rw [Token.braced, List.cons_append, List.append_assoc]
  rfl

theorem Derives.ends {value : Expr} (h : Derives .call value.tokens value) (rest : List Token) :
    Expression .lowest (value.tokens ++ .ofSymbol ';' :: rest) value (.ofSymbol ';' :: rest) :=
  h.loosen _ nofun

theorem derivesStatement_bind {name : String} {value : Expr}
    (h : Derives .call value.tokens value) : DerivesStatement (.bind name value) := by
  have hbind (rest : List Token) :
      Statement ((Stmt.bind name value).tokens ++ rest) (.bind name value) rest := by
    rw [Stmt.tokens, List.cons_append, List.cons_append, List.cons_append, List.append_assoc]
    exact .bind (h.ends rest) .semicolon
  exact ⟨hbind, fun rest _ _ => hbind rest⟩

theorem derivesStatement_ret {value : Expr} (h : Derives .call value.tokens value) :
    DerivesStatement (.ret value) := by
  have hret (rest : List Token) :
      Statement ((Stmt.ret value).tokens ++ rest) (.ret value) rest := by
    rw [Stmt.tokens, List.cons_append, List.append_assoc]
    exact .ret (h.ends rest) .semicolon
  exact ⟨hret, fun rest _ _ => hret rest⟩

theorem derivesStatement_expr (h : Derives .call e.tokens e) : DerivesStatement (.expr e) :=
  ⟨fun rest => .expr (h.ends rest) .semicolon,
    fun rest hend helse => .expr (h.loosen rest helse) hend⟩

mutual

theorem derives_inner : ∀ e : Expr, e.Canonical →
    Derives (if e.isOperation then .lowest else .call) e.innerTokens e
  | .name _, _ => fun _ _ => .name
  | .int value, h => fun _ _ => .int (by
      rw [Integer.text_eq_encode h, Text.Decimal.value_encode,
        Int.toNat_of_nonneg (by simpa using Int64.le_iff_toInt_le.mp h)])
  | .bool true, _ => fun _ _ => .trueWord
  | .bool false, _ => fun _ _ => .falseWord
  | .unary op operand, h => fun rest helse => by
    have hoperand : Derives .unary operand.tokens operand :=
      (derives_inner operand h).enclose.loosen
    exact (Expression.unary (hoperand rest helse)).loosen .lowest .unary (Nat.zero_le _)
  | .binary op left right, ⟨hl, hr⟩ => fun rest helse => by
    have hleft : Derives op.level left.tokens left := (derives_inner left hl).enclose.loosen
    have hright : Derives op.level.tighter right.tokens right :=
      (derives_inner right hr).enclose.loosen
    have hnext : op.kind ≠ .keyword .elseWord := by cases op <;> nofun
    rw [Expr.innerTokens, List.append_assoc, List.cons_append]
    exact (Expression.binary (hleft (op.token :: (right.tokens ++ rest)) hnext)
      (hright rest helse)).loosen .lowest op.level (Nat.zero_le _)
  | .ifElse condition consequence alternative, ⟨hc, hs, ha⟩ => fun rest helse => by
    have hcondition := (derives_inner condition hc).unenclosed
    have halternative := derives_alternative alternative ha rest helse
    obtain ⟨ts, heq, hblock⟩ :=
      braced_tokens (derives_statements consequence hs) (elseTokens alternative ++ rest)
    rw [Expr.innerTokens, Token.parenthesized, List.cons_append, List.append_assoc,
      List.append_assoc, List.cons_append, List.append_assoc, heq]
    exact .ifElse (hcondition _ nofun) hblock halternative
  | .function parameters body, ⟨_, hb⟩ => fun rest _ => by
    obtain ⟨ts, heq, hblock⟩ := braced_tokens (derives_statements body hb) rest
    rw [Expr.innerTokens, Token.parenthesized, List.cons_append, List.append_assoc,
      List.cons_append, List.append_assoc, heq]
    exact .function (parameters_tokens parameters _) hblock
  | .call callee arguments, ⟨hc, ha⟩ => fun rest _ => by
    have hcallee := (derives_inner callee hc).enclose
    rw [Expr.innerTokens, Token.parenthesized, List.append_assoc, List.cons_append,
      List.append_assoc]
    exact .call (hcallee _ nofun) (arguments_tokens (derives_each arguments ha))

theorem derives_statement : ∀ s : Stmt, s.Canonical → DerivesStatement s
  | .bind _ value, ⟨_, h⟩ => derivesStatement_bind (derives_inner value h).enclose
  | .ret value, h => derivesStatement_ret (derives_inner value h).enclose
  | .expr e, h => derivesStatement_expr (derives_inner e h).enclose

theorem derives_statements : ∀ ss : List Stmt, CanonicalStatements ss →
    ∀ s ∈ ss, DerivesStatement s
  | [], _ => nofun
  | s :: ss, ⟨hs, hss⟩ =>
    List.forall_mem_cons.mpr ⟨derives_statement s hs, derives_statements ss hss⟩

theorem derives_alternative : ∀ alternative : Option (List Stmt), CanonicalElse alternative →
    ∀ rest, nextKind rest ≠ .keyword .elseWord →
      Alternative (elseTokens alternative ++ rest) alternative rest
  | none, _, _, helse => .none helse
  | some ss, h, rest, _ => by
    obtain ⟨ts, heq, hblock⟩ := braced_tokens (derives_statements ss h) rest
    rw [elseTokens, List.cons_append, heq]
    exact .some hblock

theorem derives_each : ∀ es : List Expr, CanonicalExprs es →
    List.Forall₂ (Derives .lowest) (tokensOfEach es) es
  | [], _ => .nil
  | e :: es, ⟨he, hes⟩ => .cons (derives_inner e he).enclose.loosen (derives_each es hes)

end

end Grammar

namespace Program

variable {p : Program}

theorem tokens_render (h : p.Canonical) :
    Lexer.tokens p.render.toList = statementTokens p.statements := by
  have htokens := spells_statements p.statements h [] Lexer.boundary_nil
  rwa [Lexer.tokens_nil, List.append_nil, List.append_nil] at htokens

theorem parse_render (h : p.Canonical) : parse p.render = .ok p := by
  refine parse_eq_ok_iff_reads.mpr ⟨[], Phrase.reads_statements ?_⟩
  rw [tokens_render h]
  exact Grammar.statements_tokens (Grammar.derives_statements p.statements h)

theorem canonical_of_parse {text : String} (h : parse text = .ok p) : p.Canonical := by
  unfold parse at h
  split at h
  split at h
  · next program parser hprogram _ =>
    cases h
    have hcanonical := Parser.canonical_program text
    rwa [hprogram] at hcanonical
  · cases h

/-- Exactly the canonical trees are read back from their texts. -/
theorem parse_render_eq_ok_iff_canonical (p : Program) : parse p.render = .ok p ↔ p.Canonical :=
  ⟨canonical_of_parse, parse_render⟩

end Program

/-- The tree that is read from a text, with or without reports, is read back from its own text,
which it then has again. -/
theorem Parser.parse_render_program (text : String) :
    Program.parse (ofText text).program.1.render = .ok (ofText text).program.1 ∧
      (Program.parse (ofText text).program.1.render).map Program.render =
        .ok (ofText text).program.1.render := by
  have hparse := Program.parse_render (Parser.canonical_program text)
  refine ⟨hparse, ?_⟩
  rw [hparse]
  rfl

end LetScript
