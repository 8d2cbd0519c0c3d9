import LetScript.Value.Operators

/-! What operators yield: an integer, a truth value or an error. So no operator makes a
function or a `return`. -/
namespace LetScript

/-- What an operator can yield. -/
def Value.IsComputed : Value → Prop
  | int _ | bool _ | error _ => True
  | nil | returned _ | function _ => False

theorem Value.isComputed_ofExact (exact : Int) (operation : String) :
    (ofExact exact operation).IsComputed := by
  unfold ofExact
  split <;> trivial

theorem UnaryOp.isComputed_apply (op : UnaryOp) (operand : Value) :
    (op.apply operand).IsComputed := by
  unfold apply
  split
  · trivial
  · exact Value.isComputed_ofExact _ _
  · trivial

namespace BinaryOp

theorem isComputed_applyToIntegers (op : BinaryOp) (m n : Int64) :
    (op.applyToIntegers m n).IsComputed := by
  cases op with
  | add | subtract | multiply => exact Value.isComputed_ofExact _ _
  | divide =>
    rw [applyToIntegers]
    split
    · trivial
    · exact Value.isComputed_ofExact _ _
  | less | greater | equal | notEqual => trivial

theorem isComputed_apply (op : BinaryOp) (left right : Value) :
    (op.apply left right).IsComputed := by
  unfold apply
  split
  · exact op.isComputed_applyToIntegers _ _
  · split
    · trivial
    · split
      · trivial
      · split <;> trivial

end BinaryOp

end LetScript
