import LetScript.Token.Lexer
import LetScript.Tree

/-! Canonical trees: those that have a source text. The grammar has no block among its
statements and no sign in its numbers, and a name in a text is a run of letters and
underscores other than the reserved words. -/
namespace LetScript

/-- Can be written as a name. -/
def IsName (text : String) : Prop :=
  text ≠ "" ∧ (∀ c ∈ text.toList, Lexer.isWordChar c = true) ∧
    ∀ keyword : Keyword, keyword.spelling ≠ text

theorem ofWord_eq_identifier_iff {word : String} :
    TokenKind.ofWord word = .identifier ↔ ∀ keyword : Keyword, keyword.spelling ≠ word := by
  unfold TokenKind.ofWord
  split
  · next reserved h =>
    have := Keyword.ofSpelling?_eq_some_iff.mp h
    simpa using ⟨reserved, this⟩
  · next h =>
    simp only [true_iff]
    intro keyword hk
    rw [Keyword.ofSpelling?_eq_some_iff.mpr hk] at h
    cases h

instance (text : String) : Decidable (IsName text) :=
  decidable_of_iff (text ≠ "" ∧ text.toList.all Lexer.isWordChar = true ∧
      TokenKind.ofWord text = .identifier) <| by
    rw [IsName, List.all_eq_true, ofWord_eq_identifier_iff]

mutual

def Expr.Canonical : Expr → Prop
  | .name name => IsName name
  | .int value => 0 ≤ value
  | .bool _ => True
  | .unary _ operand => operand.Canonical
  | .binary _ left right => left.Canonical ∧ right.Canonical
  | .ifElse condition consequence alternative =>
    condition.Canonical ∧ CanonicalStatements consequence ∧ CanonicalElse alternative
  | .function parameters body => (∀ name ∈ parameters, IsName name) ∧ CanonicalStatements body
  | .call callee arguments => callee.Canonical ∧ CanonicalExprs arguments
termination_by structural expr => expr

def Stmt.Canonical : Stmt → Prop
  | .bind name value => IsName name ∧ value.Canonical
  | .ret value => value.Canonical
  | .expr expr => expr.Canonical
  | .block _ => False
termination_by structural stmt => stmt

def CanonicalStatements : List Stmt → Prop
  | [] => True
  | stmt :: rest => stmt.Canonical ∧ CanonicalStatements rest
termination_by structural statements => statements

def CanonicalElse : Option (List Stmt) → Prop
  | none => True
  | some statements => CanonicalStatements statements
termination_by structural alternative => alternative

def CanonicalExprs : List Expr → Prop
  | [] => True
  | expr :: rest => expr.Canonical ∧ CanonicalExprs rest
termination_by structural exprs => exprs

end

theorem canonicalStatements_append {ss ts : List Stmt} (hs : CanonicalStatements ss)
    (ht : CanonicalStatements ts) : CanonicalStatements (ss ++ ts) := by
  induction ss with
  | nil => exact ht
  | cons s ss ih => exact ⟨hs.1, ih hs.2⟩

def Program.Canonical (program : Program) : Prop :=
  CanonicalStatements program.statements

end LetScript
