import LetScript.Parser.Phrases

/-! The grammar of the language, as derivations. `Expression level ts e rest` says that the
tokens `ts` start with an expression of the level that stands for the tree `e`, and that
`rest` comes after it; the other phrases are put in the same way. Each level has the
operators of one tightness and joins them to the left. Where a phrase could end or go on,
the next token decides, and it goes on whenever it can. -/
namespace LetScript

/-- The token that an operator is written as. -/
def UnaryOp.kind : UnaryOp → TokenKind
  | not => .bang
  | minus => .minus

namespace BinaryOp

/-- The token that an operator is written as. -/
def kind : BinaryOp → TokenKind
  | add => .plus
  | subtract => .minus
  | multiply => .star
  | divide => .slash
  | less => .less
  | greater => .greater
  | equal => .equalEqual
  | notEqual => .bangEqual

def level : BinaryOp → Precedence
  | equal | notEqual => .equality
  | less | greater => .comparison
  | add | subtract => .sum
  | multiply | divide => .product

end BinaryOp

/-- The next tighter level. Nothing binds tighter than a call. -/
def Precedence.tighter : Precedence → Precedence
  | lowest => equality
  | equality => comparison
  | comparison => sum
  | sum => product
  | product => unary
  | unary | call => call

namespace Grammar

open Phrase (nextKind)

/-- The end of a statement. The semicolon can be left out before a token that neither is one nor
would continue an expression. -/
inductive Terminator : List Token → List Token → Prop where
  | semicolon {l rest} : Terminator (⟨.semicolon, l⟩ :: rest) rest
  | omitted {rest} (hs : nextKind rest ≠ .semicolon) (hp : nextKind rest ≠ .parenLeft)
      (ho : ∀ op : BinaryOp, nextKind rest ≠ op.kind) : Terminator rest rest

/-- The parameters after one, and the closing parenthesis. -/
inductive MoreParameters : List Token → List String → List Token → Prop where
  | close {l rest} : MoreParameters (⟨.parenRight, l⟩ :: rest) [] rest
  | comma {l name ts names rest} (h : MoreParameters ts names rest) :
      MoreParameters (⟨.comma, l⟩ :: ⟨.identifier, name⟩ :: ts) (name :: names) rest

/-- Parameters and the closing parenthesis. -/
inductive Parameters : List Token → List String → List Token → Prop where
  | none {l rest} : Parameters (⟨.parenRight, l⟩ :: rest) [] rest
  | some {name ts names rest} (h : MoreParameters ts names rest) :
      Parameters (⟨.identifier, name⟩ :: ts) (name :: names) rest

mutual

inductive Expression : Precedence → List Token → Expr → List Token → Prop where
  | tighter {level ts e rest} (h : Expression level.tighter ts e rest) : Expression level ts e rest
  | binary {op : BinaryOp} {ts left l mid right rest}
      (hl : Expression op.level ts left (⟨op.kind, l⟩ :: mid))
      (hr : Expression op.level.tighter mid right rest) :
      Expression op.level ts (.binary op left right) rest
  | unary {op : UnaryOp} {l ts operand rest} (h : Expression .unary ts operand rest) :
      Expression .unary (⟨op.kind, l⟩ :: ts) (.unary op operand) rest
  | call {ts callee l mid arguments rest} (hc : Expression .call ts callee (⟨.parenLeft, l⟩ :: mid))
      (ha : Arguments mid arguments rest) : Expression .call ts (.call callee arguments) rest
  | name {name rest} : Expression .call (⟨.identifier, name⟩ :: rest) (.name name) rest
  | int {digits rest} {value : Int64} (h : value.toInt = Text.Decimal.value digits.toList) :
      Expression .call (⟨.int, digits⟩ :: rest) (.int value) rest
  | trueWord {l rest} : Expression .call (⟨.keyword .trueWord, l⟩ :: rest) (.bool true) rest
  | falseWord {l rest} : Expression .call (⟨.keyword .falseWord, l⟩ :: rest) (.bool false) rest
  | group {l ts e r rest} (h : Expression .lowest ts e (⟨.parenRight, r⟩ :: rest)) :
      Expression .call (⟨.parenLeft, l⟩ :: ts) e rest
  | ifElse {i l ts condition r b mid consequence next alternative rest}
      (hc : Expression .lowest ts condition (⟨.parenRight, r⟩ :: ⟨.braceLeft, b⟩ :: mid))
      (hb : Block mid consequence next) (ha : Alternative next alternative rest) :
      Expression .call (⟨.keyword .ifWord, i⟩ :: ⟨.parenLeft, l⟩ :: ts)
        (.ifElse condition consequence alternative) rest
  | function {f l ts parameters b mid body rest}
      (hp : Parameters ts parameters (⟨.braceLeft, b⟩ :: mid)) (hb : Block mid body rest) :
      Expression .call (⟨.keyword .fnWord, f⟩ :: ⟨.parenLeft, l⟩ :: ts)
        (.function parameters body) rest

/-- Arguments and the closing parenthesis. -/
inductive Arguments : List Token → List Expr → List Token → Prop where
  | none {l rest} : Arguments (⟨.parenRight, l⟩ :: rest) [] rest
  | some {ts e mid es rest} (he : Expression .lowest ts e mid) (hes : MoreArguments mid es rest) :
      Arguments ts (e :: es) rest

/-- The arguments after one, and the closing parenthesis. -/
inductive MoreArguments : List Token → List Expr → List Token → Prop where
  | close {l rest} : MoreArguments (⟨.parenRight, l⟩ :: rest) [] rest
  | comma {l ts e mid es rest} (he : Expression .lowest ts e mid)
      (hes : MoreArguments mid es rest) : MoreArguments (⟨.comma, l⟩ :: ts) (e :: es) rest

/-- Statements and the closing brace, which only the end of the text can stand for. -/
inductive Block : List Token → List Stmt → List Token → Prop where
  | close {l rest} : Block (⟨.braceRight, l⟩ :: rest) [] rest
  | endOfText : Block [] [] []
  | cons {ts s mid ss rest} (hs : Statement ts s mid) (hss : Block mid ss rest) :
      Block ts (s :: ss) rest

/-- What may come after the first block of an `if`. An `else` there belongs to it. -/
inductive Alternative : List Token → Option (List Stmt) → List Token → Prop where
  | none {rest} (h : nextKind rest ≠ .keyword .elseWord) : Alternative rest none rest
  | some {e b ts ss rest} (h : Block ts ss rest) :
      Alternative (⟨.keyword .elseWord, e⟩ :: ⟨.braceLeft, b⟩ :: ts) (some ss) rest

inductive Statement : List Token → Stmt → List Token → Prop where
  | bind {l name a ts value mid rest} (hv : Expression .lowest ts value mid)
      (ht : Terminator mid rest) :
      Statement (⟨.keyword .letWord, l⟩ :: ⟨.identifier, name⟩ :: ⟨.equal, a⟩ :: ts)
        (.bind name value) rest
  | ret {l ts value mid rest} (hv : Expression .lowest ts value mid) (ht : Terminator mid rest) :
      Statement (⟨.keyword .returnWord, l⟩ :: ts) (.ret value) rest
  | expr {ts value mid rest} (hv : Expression .lowest ts value mid) (ht : Terminator mid rest) :
      Statement ts (.expr value) rest

end

/-- Statements to the end of the text. -/
inductive Statements : List Token → List Stmt → Prop where
  | nil : Statements [] []
  | cons {ts s mid ss} (hs : Statement ts s mid) (hss : Statements mid ss) : Statements ts (s :: ss)

end Grammar

end LetScript
