import LetScript.Token

/-! Programs as trees of expressions and statements. Trees of every shape are allowed,
also those that no text is read as, such as one with a negative number or a name that is
a reserved word. -/
namespace LetScript

inductive UnaryOp where
  | not
  | minus
  deriving DecidableEq

namespace UnaryOp

def all : List UnaryOp := [not, minus]

def label : UnaryOp → String
  | not => "Not"
  | minus => "Minus"

def symbol : UnaryOp → String
  | not => "!"
  | minus => "-"

def ofKind? : TokenKind → Option UnaryOp
  | .bang => some not
  | .minus => some minus
  | _ => none

end UnaryOp

inductive BinaryOp where
  | add
  | subtract
  | multiply
  | divide
  | less
  | greater
  | equal
  | notEqual
  deriving DecidableEq

namespace BinaryOp

def all : List BinaryOp :=
  [add, subtract, multiply, divide, less, greater, equal, notEqual]

def label : BinaryOp → String
  | add => "Add"
  | subtract => "Subtract"
  | multiply => "Multiply"
  | divide => "Divide"
  | less => "Less"
  | greater => "Greater"
  | equal => "Equal"
  | notEqual => "NotEqual"

def symbol : BinaryOp → String
  | add => "+"
  | subtract => "-"
  | multiply => "*"
  | divide => "/"
  | less => "<"
  | greater => ">"
  | equal => "=="
  | notEqual => "!="

def ofKind? : TokenKind → Option BinaryOp
  | .plus => some add
  | .minus => some subtract
  | .star => some multiply
  | .slash => some divide
  | .less => some less
  | .greater => some greater
  | .equalEqual => some equal
  | .bangEqual => some notEqual
  | _ => none

end BinaryOp

mutual

inductive Expr where
  | name (name : String)
  | int (value : Int64)
  | bool (value : Bool)
  | unary (op : UnaryOp) (operand : Expr)
  | binary (op : BinaryOp) (left right : Expr)
  | ifElse (condition : Expr) (consequence : List Stmt) (alternative : Option (List Stmt))
  | function (parameters : List String) (body : List Stmt)
  | call (callee : Expr) (arguments : List Expr)

inductive Stmt where
  | bind (name : String) (value : Expr)
  | ret (value : Expr)
  | expr (expr : Expr)
  | block (statements : List Stmt)

end

/-! ### Equality -/

mutual

def Expr.same : Expr → Expr → Bool
  | .name x, .name y => x = y
  | .int m, .int n => m = n
  | .bool a, .bool b => a = b
  | .unary p a, .unary q b => p = q && a.same b
  | .binary p a c, .binary q b d => p = q && a.same b && c.same d
  | .ifElse c s none, .ifElse d t none => c.same d && sameStatements s t
  | .ifElse c s (some u), .ifElse d t (some v) =>
    c.same d && sameStatements s t && sameStatements u v
  | .function ps s, .function qs t => ps = qs && sameStatements s t
  | .call f as, .call g bs => f.same g && sameExprs as bs
  | _, _ => false
termination_by structural a => a

def Stmt.same : Stmt → Stmt → Bool
  | .bind x a, .bind y b => x = y && a.same b
  | .ret a, .ret b => a.same b
  | .expr a, .expr b => a.same b
  | .block s, .block t => sameStatements s t
  | _, _ => false
termination_by structural s => s

def sameStatements : List Stmt → List Stmt → Bool
  | [], [] => true
  | s :: ss, t :: ts => s.same t && sameStatements ss ts
  | _, _ => false
termination_by structural ss => ss

def sameExprs : List Expr → List Expr → Bool
  | [], [] => true
  | a :: as, b :: bs => a.same b && sameExprs as bs
  | _, _ => false
termination_by structural as => as

end

mutual

theorem Expr.same_iff : ∀ a b : Expr, a.same b = true ↔ a = b
  | .name x, b => by cases b <;> simp [Expr.same]
  | .int n, b => by cases b <;> simp [Expr.same]
  | .bool v, b => by cases b <;> simp [Expr.same]
  | .unary op a, b => by cases b <;> simp [Expr.same, a.same_iff]
  | .binary op a c, b => by cases b <;> simp [Expr.same, a.same_iff, c.same_iff, and_assoc]
  | .ifElse c s none, b => by
    rcases b with _ | _ | _ | _ | _ | ⟨_, _, _ | _⟩ <;>
      simp [Expr.same, c.same_iff, sameStatements_iff s]
  | .ifElse c s (some t), b => by
    rcases b with _ | _ | _ | _ | _ | ⟨_, _, _ | _⟩ <;>
      simp [Expr.same, c.same_iff, sameStatements_iff s, sameStatements_iff t, and_assoc]
  | .function ps s, b => by cases b <;> simp [Expr.same, sameStatements_iff s]
  | .call f as, b => by cases b <;> simp [Expr.same, f.same_iff, sameExprs_iff as]

theorem Stmt.same_iff : ∀ s t : Stmt, s.same t = true ↔ s = t
  | .bind x a, t => by cases t <;> simp [Stmt.same, a.same_iff]
  | .ret a, t => by cases t <;> simp [Stmt.same, a.same_iff]
  | .expr a, t => by cases t <;> simp [Stmt.same, a.same_iff]
  | .block ss, t => by cases t <;> simp [Stmt.same, sameStatements_iff ss]

theorem sameStatements_iff : ∀ ss ts : List Stmt, sameStatements ss ts = true ↔ ss = ts
  | [], ts => by cases ts <;> simp [sameStatements]
  | s :: ss, ts => by cases ts <;> simp [sameStatements, s.same_iff, sameStatements_iff ss]

theorem sameExprs_iff : ∀ as bs : List Expr, sameExprs as bs = true ↔ as = bs
  | [], bs => by cases bs <;> simp [sameExprs]
  | a :: as, bs => by cases bs <;> simp [sameExprs, a.same_iff, sameExprs_iff as]

end

instance : DecidableEq Expr := fun a b => decidable_of_iff _ (a.same_iff b)

instance : DecidableEq Stmt := fun s t => decidable_of_iff _ (s.same_iff t)

structure Program where
  statements : List Stmt
  deriving DecidableEq

end LetScript
