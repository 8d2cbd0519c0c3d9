import LetScript.Proofs.Parser.Grammar
import LetScript.Proofs.Token.Lexer
import LetScript.Tree.Render
import Mathlib.Data.List.Forall2

/-! The tokens of the source text of a tree. They are told from the tree in the same way
as the text, and the text of a canonical tree is cut into just these. -/
namespace LetScript

def Keyword.token (keyword : Keyword) : Token := ⟨.keyword keyword, keyword.spelling⟩

def UnaryOp.token (op : UnaryOp) : Token := ⟨op.kind, op.symbol⟩

def BinaryOp.token (op : BinaryOp) : Token := ⟨op.kind, op.symbol⟩

namespace Token

def parenthesized (ts : List Token) : List Token :=
  .ofSymbol '(' :: (ts ++ [.ofSymbol ')'])

def braced (ts : List Token) : List Token :=
  .ofSymbol '\x7b' :: (ts ++ [.ofSymbol '\x7d'])

def commaSeparated : List (List Token) → List Token
  | [] => []
  | [item] => item
  | item :: next :: rest => item ++ .ofSymbol ',' :: commaSeparated (next :: rest)

end Token

/-- The tokens of an expression, given those inside its own parentheses. -/
def Expr.enclose (expr : Expr) (inner : List Token) : List Token :=
  if expr.isOperation then Token.parenthesized inner else inner

def Stmt.terminatorTokens : Stmt → List Token
  | .expr _ => [.ofSymbol ';']
  | _ => []

mutual

/-- The tokens of an expression, without the parentheses of an operator application. -/
def Expr.innerTokens : Expr → List Token
  | .name name => [⟨.identifier, name⟩]
  | .int value => [⟨.int, Integer.text value⟩]
  | .bool value => [(Keyword.ofBool value).token]
  | .unary op operand => op.token :: operand.enclose operand.innerTokens
  | .binary op left right =>
    left.enclose left.innerTokens ++ op.token :: right.enclose right.innerTokens
  | .ifElse condition consequence alternative =>
    Keyword.ifWord.token :: (Token.parenthesized condition.innerTokens ++
      (Token.braced (statementTokens consequence) ++ elseTokens alternative))
  | .function parameters body =>
    Keyword.fnWord.token ::
      (Token.parenthesized
          (Token.commaSeparated (parameters.map fun name => [⟨.identifier, name⟩])) ++
        Token.braced (statementTokens body))
  | .call callee arguments =>
    callee.enclose callee.innerTokens ++
      Token.parenthesized (Token.commaSeparated (tokensOfEach arguments))
termination_by structural expr => expr

def Stmt.tokens : Stmt → List Token
  | .bind name value =>
    Keyword.letWord.token :: ⟨.identifier, name⟩ :: .ofSymbol '=' ::
      (value.enclose value.innerTokens ++ [.ofSymbol ';'])
  | .ret value =>
    Keyword.returnWord.token :: (value.enclose value.innerTokens ++ [.ofSymbol ';'])
  | .expr expr => expr.enclose expr.innerTokens
  | .block statements => Token.braced (statementTokens statements)
termination_by structural stmt => stmt

def statementTokens : List Stmt → List Token
  | [] => []
  | [stmt] => stmt.tokens
  | stmt :: next :: rest => stmt.tokens ++ (stmt.terminatorTokens ++ statementTokens (next :: rest))
termination_by structural statements => statements

def elseTokens : Option (List Stmt) → List Token
  | none => []
  | some statements => Keyword.elseWord.token :: Token.braced (statementTokens statements)
termination_by structural alternative => alternative

def tokensOfEach : List Expr → List (List Token)
  | [] => []
  | expr :: rest => expr.enclose expr.innerTokens :: tokensOfEach rest
termination_by structural exprs => exprs

end

def Expr.tokens (expr : Expr) : List Token :=
  expr.enclose expr.innerTokens

/-! ### Cutting the text -/

open Lexer

/-- The text is cut into the tokens, wherever nothing after it goes on with its last one. -/
def Spells (text : String) (ts : List Token) : Prop :=
  ∀ cs, Boundary cs → Lexer.tokens (text.toList ++ cs) = ts ++ Lexer.tokens cs

/-- The text is cut into the tokens, whatever comes after it. -/
def Closes (text : String) (ts : List Token) : Prop :=
  ∀ cs, Lexer.tokens (text.toList ++ cs) = ts ++ Lexer.tokens cs

theorem Closes.spells {text : String} {ts : List Token} (h : Closes text ts) : Spells text ts :=
  fun cs _ => h cs

theorem Closes.append {text text' : String} {ts ts' : List Token} (h : Closes text ts)
    (h' : Spells text' ts') : Spells (text ++ text') (ts ++ ts') := by
  intro cs hcs
  rw [String.toList_append, List.append_assoc, h, h' cs hcs, List.append_assoc]

namespace Spells

variable {text : String} {ts : List Token} {cs : List Char}

theorem before_mark (h : Spells text ts) {c : Char} (hc : isMark c = true) :
    Lexer.tokens (text.toList ++ c :: cs) = ts ++ .ofSymbol c :: Lexer.tokens cs := by
  rw [h _ (boundary_mark hc), tokens_symbol hc]

theorem before_blank (h : Spells text ts) :
    Lexer.tokens (text.toList ++ ' ' :: cs) = ts ++ Lexer.tokens cs := by
  rw [h _ (boundary_cons (by decide)), tokens_blank (by decide)]

theorem name {text : String} (h : IsName text) : Spells text [⟨.identifier, text⟩] :=
  fun _ hcs => tokens_name h hcs.word

theorem keyword (keyword : Keyword) : Spells keyword.spelling [keyword.token] :=
  fun _ hcs => tokens_keyword keyword hcs.word

theorem digits (n : Nat) : Spells (Text.Decimal.encode n) [⟨.int, Text.Decimal.encode n⟩] := by
  intro cs hcs
  have hdigits : ∀ c ∈ Nat.toDigits 10 n, c.isDigit = true :=
    fun c hc => Nat.isDigit_of_mem_toDigits (by decide) (by decide) hc
  change Lexer.tokens ((String.ofList (Nat.toDigits 10 n)).toList ++ cs) = _
  rw [String.toList_ofList, tokens_digits Nat.toDigits_ne_nil hdigits hcs.digits]
  rfl

theorem semicolon (h : Spells text ts) : Closes (text ++ ";") (ts ++ [.ofSymbol ';']) := by
  intro cs
  simp (disch := decide) only [String.toList_append, String.reduceToList, List.cons_append,
    List.nil_append, List.append_assoc, h.before_mark]

theorem parenthesized (h : Spells text ts) :
    Closes ("(" ++ text ++ ")") (Token.parenthesized ts) := by
  intro cs
  simp (disch := decide) only [String.toList_append, String.reduceToList, List.cons_append,
    List.nil_append, List.append_assoc, Token.parenthesized, tokens_symbol, h.before_mark]

theorem block {ss : List Stmt} (h : Spells (renderStatements ss) (statementTokens ss)) :
    Closes (braced ss (renderStatements ss)) (Token.braced (statementTokens ss)) := by
  intro cs
  cases ss with
  | nil =>
    simp (disch := decide) only [braced, List.isEmpty_nil, if_true, String.reduceToList,
      List.cons_append, List.nil_append, Token.braced, statementTokens, tokens_symbol, tokens_blank]
  | cons first rest =>
    simp (disch := decide) only [braced, List.isEmpty_cons, Bool.false_eq_true, if_false,
      String.toList_append, String.reduceToList, List.cons_append, List.nil_append,
      List.append_assoc, Token.braced, tokens_symbol, tokens_blank, h.before_blank]

theorem commaSeparated {texts : List String} {items : List (List Token)}
    (h : List.Forall₂ Spells texts items) :
    Spells (Text.commaSeparated texts) (Token.commaSeparated items) := by
  induction h with
  | nil => exact fun cs _ => rfl
  | cons hfirst hrest ih =>
    cases hrest with
    | nil => exact hfirst
    | cons hnext hrest =>
      intro cs hcs
      have hmore := ih cs hcs
      simp (disch := decide) only [Text.commaSeparated, String.toList_append, String.reduceToList,
        List.cons_append, List.nil_append, List.append_assoc, Token.commaSeparated,
        hfirst.before_mark, tokens_blank] at hmore ⊢
      rw [hmore]

theorem parameters {names : List String} (h : ∀ name ∈ names, IsName name) :
    List.Forall₂ Spells names (names.map fun name => [⟨.identifier, name⟩]) := by
  induction names with
  | nil => exact .nil
  | cons first rest ih =>
    obtain ⟨hfirst, hrest⟩ := List.forall_mem_cons.mp h
    exact .cons (.name hfirst) (ih hrest)

theorem condition {e : Expr} (h : Spells e.render e.tokens) :
    Spells (if e.isOperation then e.render else "(" ++ e.render ++ ")")
      (Token.parenthesized e.innerTokens) := by
  unfold Expr.tokens Expr.enclose at h
  split
  · next hop => rwa [if_pos hop] at h
  · next hop =>
    rw [if_neg hop] at h
    exact h.parenthesized.spells

end Spells

/-- The condition of an `if` starts with a parenthesis, its own or the one around it. -/
theorem boundary_condition (e : Expr) (cs : List Char) :
    Boundary ((if e.isOperation then e.render else "(" ++ e.render ++ ")").toList ++ cs) := by
  cases e <;> simp [Expr.isOperation, Expr.render] <;> exact boundary_mark (by decide)

theorem Integer.text_eq_encode {value : Int64} (h : 0 ≤ value) :
    Integer.text value = Text.Decimal.encode value.toInt.toNat := by
  rw [text, Int.toNat_of_nonneg (by simpa using Int64.le_iff_toInt_le.mp h)]

/-- The text of an expression does not turn a `!` before it into another token. -/
theorem Expr.head_render_ne : ∀ (e : Expr) (cs : List Char), e.Canonical →
    (e.render.toList ++ cs).head? ≠ some '='
  | .name text, cs, h => by
    obtain ⟨c, w, hname⟩ := List.exists_cons_of_ne_nil (l := text.toList) (by simpa using h.1)
    have hc : Lexer.isWordChar c = true := h.2.1 c (by simp [hname])
    rw [Expr.render, hname]
    rintro ⟨⟩
    exact absurd hc (by decide)
  | .int value, cs, h => by
    obtain ⟨c, w, hdigits⟩ := List.exists_cons_of_ne_nil
      (Nat.toDigits_ne_nil (b := 10) (n := value.toInt.toNat))
    have hc : c.isDigit = true :=
      Nat.isDigit_of_mem_toDigits (by decide) (by decide) (hdigits ▸ List.mem_cons_self)
    have hrender : (Expr.int value).render.toList = c :: w := by
      rw [Expr.render, Integer.text_eq_encode h, ← hdigits]
      exact String.toList_ofList
    rw [hrender]
    rintro ⟨⟩
    exact absurd hc (by decide)
  | .bool value, cs, _ => by
    cases value <;> simp [Expr.render, Keyword.ofBool, Keyword.spelling]
  | .unary _ _, cs, _ => by simp [Expr.render]
  | .binary _ _ _, cs, _ => by simp [Expr.render]
  | .ifElse _ _ _, cs, _ => by simp [Expr.render]
  | .function _ _, cs, _ => by simp [Expr.render]
  | .call callee _, cs, h => by
    simp only [Expr.render, String.toList_append, List.append_assoc]
    exact callee.head_render_ne _ h.1

theorem Lexer.tokens_unaryOp (op : UnaryOp) {cs : List Char} (h : cs.head? ≠ some '=') :
    Lexer.tokens (op.symbol.toList ++ cs) = op.token :: Lexer.tokens cs := by
  cases op with
  | not => exact tokens_symbol_of rfl (.inl h)
  | minus => exact tokens_symbol rfl

theorem Lexer.tokens_binaryOp (op : BinaryOp) (cs : List Char) :
    Lexer.tokens (op.symbol.toList ++ ' ' :: cs) = op.token :: Lexer.tokens (' ' :: cs) := by
  cases op with
  | equal | notEqual => exact tokens_cons rfl
  | _ => exact tokens_symbol rfl

theorem Spells.unary (op : UnaryOp) {operand : Expr} (h : operand.Canonical)
    (hoperand : Spells operand.render operand.tokens) :
    Spells (op.symbol ++ operand.render) (Expr.unary op operand).innerTokens := by
  intro cs hcs
  have hnext := operand.head_render_ne cs h
  rw [String.toList_append, List.append_assoc, Lexer.tokens_unaryOp op hnext, hoperand cs hcs]
  rfl

theorem closes_bind {name : String} {value : Expr} (hname : IsName name)
    (hvalue : Spells value.render value.tokens) :
    Closes (Stmt.bind name value).render (Stmt.bind name value).tokens := by
  have hword := Spells.keyword .letWord
  have hname := Spells.name hname
  have hequal (cs : List Char) :
      Lexer.tokens ('=' :: ' ' :: cs) = .ofSymbol '=' :: Lexer.tokens cs := by
    rw [tokens_symbol_of rfl (.inl (by simp)), tokens_blank rfl]
  intro cs
  change Lexer.tokens ((Keyword.letWord.spelling ++ " " ++ name ++ " = " ++ value.render ++
    ";").toList ++ cs) = _
  simp (disch := decide) only [String.toList_append, String.reduceToList, List.cons_append,
    List.nil_append, List.append_assoc, hword.before_blank, hname.before_blank, hequal,
    hvalue.before_mark]
  simp only [Stmt.tokens, Expr.tokens, List.append_assoc, List.cons_append, List.nil_append]

theorem closes_ret {value : Expr} (hvalue : Spells value.render value.tokens) :
    Closes (Stmt.ret value).render (Stmt.ret value).tokens := by
  have hword := Spells.keyword .returnWord
  intro cs
  change Lexer.tokens ((Keyword.returnWord.spelling ++ " " ++ value.render ++ ";").toList ++ cs) = _
  simp (disch := decide) only [String.toList_append, String.reduceToList, List.cons_append,
    List.nil_append, List.append_assoc, hword.before_blank, hvalue.before_mark]
  simp only [Stmt.tokens, Expr.tokens, List.append_assoc, List.cons_append, List.nil_append]

mutual

theorem Expr.spells : ∀ e : Expr, e.Canonical → Spells e.render e.tokens
  | Expr.name _, h => Spells.name h
  | Expr.int value, h => by
    have hdigits := Spells.digits value.toInt.toNat
    rwa [← Integer.text_eq_encode h] at hdigits
  | Expr.bool value, _ => Spells.keyword (Keyword.ofBool value)
  | Expr.unary op operand, h => by
    have hoperand : operand.Canonical := h
    have hparen := (Spells.unary op hoperand (operand.spells h)).parenthesized.spells
    simp only [← String.append_assoc] at hparen
    exact hparen
  | Expr.binary op left right, ⟨hleft, hright⟩ => by
    have hinner : Spells (left.render ++ " " ++ op.symbol ++ " " ++ right.render)
        (left.tokens ++ op.token :: right.tokens) := by
      intro cs hcs
      simp (disch := decide) only [String.toList_append, String.reduceToList, List.cons_append,
        List.nil_append, List.append_assoc, (left.spells hleft).before_blank, Lexer.tokens_binaryOp,
        tokens_blank, right.spells hright cs hcs]
    have hparen := hinner.parenthesized.spells
    simp only [← String.append_assoc] at hparen
    exact hparen
  | Expr.ifElse condition consequence alternative, ⟨hc, hs, ha⟩ => by
    have hcondition := (condition.spells hc).condition
    have hconsequence := (spells_statements consequence hs).block
    intro cs hcs
    have halternative := spells_else alternative ha cs hcs
    change Lexer.tokens ((Keyword.ifWord.spelling ++ _ ++ " " ++ _ ++ _).toList ++ cs) = _
    simp (disch := decide) only [String.toList_append, String.reduceToList, List.cons_append,
      List.nil_append, List.append_assoc]
    rw [tokens_keyword .ifWord (boundary_condition condition _).word, hcondition.before_blank,
      hconsequence, halternative]
    simp only [Expr.tokens, Expr.enclose, Expr.isOperation, Expr.innerTokens, List.append_assoc,
      List.cons_append, Bool.false_eq_true, if_false]
    rfl
  | Expr.function parameters body, ⟨hp, hb⟩ => by
    have hword := Spells.keyword .fnWord
    have hparameters := Spells.commaSeparated (Spells.parameters hp)
    have hbody := (spells_statements body hb).block
    intro cs _
    change Lexer.tokens ((Keyword.fnWord.spelling ++ " (" ++ _ ++ ") " ++ _).toList ++ cs) = _
    simp (disch := decide) only [String.toList_append, String.reduceToList, List.cons_append,
      List.nil_append, List.append_assoc, hword.before_blank, tokens_symbol,
      hparameters.before_mark, tokens_blank, hbody cs]
    simp only [Expr.tokens, Expr.enclose, Expr.isOperation, Expr.innerTokens, List.append_assoc,
      List.cons_append, List.nil_append, Token.parenthesized, Bool.false_eq_true, if_false]
  | Expr.call callee arguments, ⟨hc, ha⟩ => by
    have hcallee := callee.spells hc
    have harguments := Spells.commaSeparated (spells_each arguments ha)
    intro cs _
    simp (disch := decide) only [Expr.render, String.toList_append, String.reduceToList,
      List.cons_append, List.nil_append, List.append_assoc, hcallee.before_mark,
      harguments.before_mark]
    simp only [Expr.tokens, Expr.enclose, Expr.isOperation, Expr.innerTokens, List.append_assoc,
      List.cons_append, List.nil_append, Token.parenthesized, Bool.false_eq_true, if_false]

theorem Stmt.spells : ∀ s : Stmt, s.Canonical → Spells s.render s.tokens
  | Stmt.bind _ value, ⟨hname, hvalue⟩ => (closes_bind hname (value.spells hvalue)).spells
  | Stmt.ret value, h => (closes_ret (value.spells h)).spells
  | Stmt.expr e, h => e.spells h

theorem Stmt.closes : ∀ s : Stmt, s.Canonical →
    Closes (s.render ++ s.terminator) (s.tokens ++ s.terminatorTokens)
  | Stmt.bind _ value, ⟨hname, hvalue⟩ => by
    simpa only [Stmt.terminator, Stmt.terminatorTokens, String.append_empty, List.append_nil]
      using closes_bind hname (value.spells hvalue)
  | Stmt.ret value, h => by
    simpa only [Stmt.terminator, Stmt.terminatorTokens, String.append_empty, List.append_nil]
      using closes_ret (value.spells h)
  | Stmt.expr e, h => (e.spells h).semicolon

theorem spells_statements : ∀ ss : List Stmt, CanonicalStatements ss →
    Spells (renderStatements ss) (statementTokens ss)
  | [], _ => fun _ _ => rfl
  | [s], ⟨h, _⟩ => s.spells h
  | s :: next :: rest, ⟨hs, hrest⟩ => by
    have hmore := (s.closes hs).append (spells_statements (next :: rest) hrest)
    rwa [List.append_assoc] at hmore

theorem spells_else : ∀ alternative : Option (List Stmt), CanonicalElse alternative →
    Spells (renderElse alternative) (elseTokens alternative)
  | none, _ => fun _ _ => rfl
  | some ss, h => by
    have hword := Spells.keyword .elseWord
    have hss := (spells_statements ss h).block
    intro cs _
    change Lexer.tokens ((" " ++ Keyword.elseWord.spelling ++ " " ++ _).toList ++ cs) = _
    simp (disch := decide) only [String.toList_append, String.reduceToList, List.cons_append,
      List.nil_append, List.append_assoc, tokens_blank, hword.before_blank, hss cs]
    rfl

theorem spells_each : ∀ es : List Expr, CanonicalExprs es →
    List.Forall₂ Spells (renderEach es) (tokensOfEach es)
  | [], _ => .nil
  | e :: es, ⟨he, hes⟩ => .cons (e.spells he) (spells_each es hes)

end

end LetScript
