import LetScript.Value

/-! What the operators compute. Arithmetic is exact: a result that does not fit in 64
bits is an error, not another number. Equality and negation are for values of all types,
everything else for integers. -/
namespace LetScript

/-- The integer `exact`, or an overflow of `operation`. -/
def Value.ofExact (exact : Int) (operation : String) : Value :=
  match Integer.ofExact? exact with
  | some n => .int n
  | none => .error (.overflow operation)

def UnaryOp.apply : UnaryOp → Value → Value
  | not, operand => .bool !operand.isTruthy
  | minus, .int n => .ofExact (-n.toInt) ("-(" ++ Integer.text n ++ ")")
  | minus, operand => .error (.unknownUnary minus operand.typeName)

namespace BinaryOp

/-- Division rounds toward zero. -/
def applyToIntegers (op : BinaryOp) (m n : Int64) : Value :=
  let operation := Integer.text m ++ " " ++ op.symbol ++ " " ++ Integer.text n
  match op with
  | add => .ofExact (m.toInt + n.toInt) operation
  | subtract => .ofExact (m.toInt - n.toInt) operation
  | multiply => .ofExact (m.toInt * n.toInt) operation
  | divide =>
    if n = 0 then .error (.divisionByZero m) else .ofExact (m.toInt.tdiv n.toInt) operation
  | less => .bool (m.toInt < n.toInt)
  | greater => .bool (m.toInt > n.toInt)
  | equal => .bool (m = n)
  | notEqual => .bool (m ≠ n)

def apply (op : BinaryOp) (left right : Value) : Value :=
  match left, right with
  | .int m, .int n => op.applyToIntegers m n
  | left, right =>
    if op = equal then .bool (left.isIdentical right)
    else if op = notEqual then .bool !left.isIdentical right
    else if left.typeName ≠ right.typeName then
      .error (.typeMismatch left.typeName op right.typeName)
    else .error (.unknownBinary left.typeName op right.typeName)

end BinaryOp

end LetScript
