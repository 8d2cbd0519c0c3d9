import LetScript.Proofs.Value.Operators
import Mathlib.Algebra.Group.Int.Defs

/-! What the operators make of integers and truth values, told over the integers without
bounds. A result is the exact one if it fits in 64 bits; every way not to have one is an
error of its own. -/
namespace LetScript

namespace Integer

/-- Fits in 64 bits. -/
def Fits (exact : Int) : Prop :=
  -2 ^ 63 ≤ exact ∧ exact ≤ 2 ^ 63 - 1

theorem ofExact?_eq_none_iff {exact : Int} : ofExact? exact = none ↔ ¬ Fits exact := by
  have hleast : Int64.minValue.toInt = -2 ^ 63 := by decide
  have hgreatest : Int64.maxValue.toInt = 2 ^ 63 - 1 := by decide
  unfold ofExact?
  rw [hleast, hgreatest]
  constructor
  · intro h
    split at h
    · cases h
    · next hout => exact hout
  · exact fun hout => if_neg hout

end Integer

theorem Value.ofExact_toInt (n : Int64) (operation : String) :
    ofExact n.toInt operation = int n := by
  rw [ofExact, Integer.ofExact?_eq_some_iff.mpr rfl]

theorem Value.ofExact_of_not_fits {exact : Int} (h : ¬ Integer.Fits exact) (operation : String) :
    ofExact exact operation = error (.overflow operation) := by
  rw [ofExact, Integer.ofExact?_eq_none_iff.mpr h]

/-- An operand of arithmetic: an integer or a truth value. -/
def Value.IsDatum : Value → Prop
  | int _ | bool _ => True
  | nil | returned _ | error _ | function _ => False

theorem Value.IsDatum.isAbrupt_eq_false {value : Value} (h : value.IsDatum) :
    value.isAbrupt = false := by
  cases value with
  | int | bool => rfl
  | nil | returned | error | function => cases h

theorem Value.IsComputed.isDatum_or_eq_error {value : Value} (h : value.IsComputed) :
    value.IsDatum ∨ ∃ cause, value = error cause := by
  cases value with
  | int | bool => exact .inl trivial
  | error cause => exact .inr ⟨cause, rfl⟩
  | nil | returned | function => cases h

/-! ### One operand -/

/-- What the operator should make of an integer or truth value. -/
inductive UnaryOp.Yields : UnaryOp → Value → Value → Prop where
  | notInteger (n : Int64) : Yields not (.int n) (.bool false)
  | notBool (b : Bool) : Yields not (.bool b) (.bool !b)
  | negative {n result : Int64} (h : result.toInt = -n.toInt) : Yields minus (.int n) (.int result)
  | overflow {n : Int64} (h : ¬ Integer.Fits (-n.toInt)) :
      Yields minus (.int n) (.error (.overflow ("-(" ++ Integer.text n ++ ")")))
  | unknown (b : Bool) : Yields minus (.bool b) (.error (.unknownUnary minus "BOOL"))

namespace UnaryOp

variable {op : UnaryOp} {operand result : Value}

theorem yields_apply (op : UnaryOp) (h : operand.IsDatum) :
    op.Yields operand (op.apply operand) := by
  cases operand with
  | nil | returned | error | function => cases h
  | bool b =>
    cases op with
    | not => cases b <;> exact .notBool _
    | minus => exact .unknown b
  | int n =>
    cases op with
    | not => exact .notInteger n
    | minus =>
      rw [apply, Value.ofExact]
      split
      · next k hk => exact .negative (Integer.ofExact?_eq_some_iff.mp hk)
      · next hnone => exact .overflow (Integer.ofExact?_eq_none_iff.mp hnone)

theorem Yields.isDatum (h : op.Yields operand result) : operand.IsDatum := by
  cases h <;> trivial

theorem Yields.eq_apply (h : op.Yields operand result) : result = op.apply operand := by
  cases h with
  | notInteger | unknown => rfl
  | notBool b => cases b <;> rfl
  | negative h => rw [apply, ← h, Value.ofExact_toInt]
  | overflow h => rw [apply, Value.ofExact_of_not_fits h]

end UnaryOp

/-! ### Two operands -/

namespace BinaryOp

/-- The integer that the operator makes of two, whatever its size. Division has the quotient whose
remainder is smaller than the divisor and has the sign of the dividend. -/
inductive Exact : BinaryOp → Int → Int → Int → Prop where
  | add {m n} : Exact add m n (m + n)
  | subtract {m n} : Exact subtract m n (m - n)
  | multiply {m n} : Exact multiply m n (m * n)
  | divide {m n quotient remainder} (h : m = n * quotient + remainder)
      (hsmall : remainder.natAbs < n.natAbs) (hnonneg : 0 ≤ m → 0 ≤ remainder)
      (hnonpos : m ≤ 0 → remainder ≤ 0) : Exact divide m n quotient

theorem exact_divide_iff {m n quotient : Int} :
    Exact divide m n quotient ↔ n ≠ 0 ∧ quotient = m.tdiv n := by
  constructor
  · intro h
    cases h with
    | divide h hsmall hnonneg hnonpos =>
      have hn : n ≠ 0 := by omega
      refine ⟨hn, ?_⟩
      rcases Int.le_total 0 m with hm | hm
      · have hremainder := hnonneg hm
        exact ((Int.tdiv_tmod_unique hm hn).mpr ⟨by omega, hremainder, by omega⟩).1.symm
      · have hremainder := hnonpos hm
        exact ((Int.tdiv_tmod_unique' hm hn).mpr ⟨by omega, by omega, hremainder⟩).1.symm
  · rintro ⟨hn, rfl⟩
    refine .divide (Int.mul_tdiv_add_tmod m n).symm ?_ (Int.tmod_nonneg n) ?_
    · rw [Int.natAbs_tmod]
      exact Nat.mod_lt _ (Int.natAbs_pos.mpr hn)
    · intro hm
      have hneg := Int.tmod_nonneg n (Int.neg_nonneg_of_nonpos hm)
      rw [Int.neg_tmod] at hneg
      exact Int.nonpos_of_neg_nonneg hneg

def spelled (op : BinaryOp) (m n : Int64) : String :=
  Integer.text m ++ " " ++ op.symbol ++ " " ++ Integer.text n

/-- What the operator should make of two integers or truth values. -/
inductive Yields : BinaryOp → Value → Value → Value → Prop where
  | exact {op : BinaryOp} {m n result : Int64} (h : op.Exact m.toInt n.toInt result.toInt) :
      Yields op (.int m) (.int n) (.int result)
  | overflow {op : BinaryOp} {m n : Int64} {exact : Int} (h : op.Exact m.toInt n.toInt exact)
      (hlarge : ¬ Integer.Fits exact) :
      Yields op (.int m) (.int n) (.error (.overflow (op.spelled m n)))
  | divisionByZero (m : Int64) : Yields divide (.int m) (.int 0) (.error (.divisionByZero m))
  | less (m n : Int64) : Yields less (.int m) (.int n) (.bool (m.toInt < n.toInt))
  | greater (m n : Int64) : Yields greater (.int m) (.int n) (.bool (n.toInt < m.toInt))
  | equal {v w : Value} (hv : v.IsDatum) (hw : w.IsDatum) : Yields equal v w (.bool (v = w))
  | notEqual {v w : Value} (hv : v.IsDatum) (hw : w.IsDatum) : Yields notEqual v w (.bool (v ≠ w))
  | integerWithBool {op : BinaryOp} (m : Int64) (b : Bool) (h : op ≠ equal) (h' : op ≠ notEqual) :
      Yields op (.int m) (.bool b) (.error (.typeMismatch "INT" op "BOOL"))
  | boolWithInteger {op : BinaryOp} (b : Bool) (n : Int64) (h : op ≠ equal) (h' : op ≠ notEqual) :
      Yields op (.bool b) (.int n) (.error (.typeMismatch "BOOL" op "INT"))
  | unknown {op : BinaryOp} (a b : Bool) (h : op ≠ equal) (h' : op ≠ notEqual) :
      Yields op (.bool a) (.bool b) (.error (.unknownBinary "BOOL" op "BOOL"))

variable {op : BinaryOp} {v w result : Value} {m n : Int64}

theorem applyToIntegers_of_exact {exact : Int} (h : op.Exact m.toInt n.toInt exact) :
    op.applyToIntegers m n = .ofExact exact (op.spelled m n) := by
  cases op with
  | divide =>
    obtain ⟨hn, rfl⟩ := exact_divide_iff.mp h
    have hzero : n ≠ 0 := fun h => hn (congrArg Int64.toInt h)
    exact if_neg hzero
  | add | subtract | multiply =>
    cases h
    rfl
  | less | greater | equal | notEqual => cases h

theorem yields_ofExact {exact : Int} (h : op.Exact m.toInt n.toInt exact) :
    op.Yields (.int m) (.int n) (.ofExact exact (op.spelled m n)) := by
  unfold Value.ofExact
  split
  · next k hk => exact .exact (Integer.ofExact?_eq_some_iff.mp hk ▸ h)
  · next hnone => exact .overflow h (Integer.ofExact?_eq_none_iff.mp hnone)

theorem yields_applyToIntegers (hequal : op ≠ equal) (hnotEqual : op ≠ notEqual) :
    op.Yields (.int m) (.int n) (op.applyToIntegers m n) := by
  cases op with
  | add => exact yields_ofExact .add
  | subtract => exact yields_ofExact .subtract
  | multiply => exact yields_ofExact .multiply
  | divide =>
    by_cases hn : n = 0
    · subst hn
      exact .divisionByZero m
    · have hzero : n.toInt ≠ 0 := fun h => hn (Int64.toInt_inj.mp h)
      have h : divide.Exact m.toInt n.toInt (m.toInt.tdiv n.toInt) :=
        exact_divide_iff.mpr ⟨hzero, rfl⟩
      rw [applyToIntegers_of_exact h]
      exact yields_ofExact h
  | less => exact .less m n
  | greater => exact .greater m n
  | equal => exact absurd rfl hequal
  | notEqual => exact absurd rfl hnotEqual

theorem apply_equal (v w : Value) : equal.apply v w = .bool (v.isIdentical w) := by
  cases v <;> cases w <;> rfl

theorem apply_notEqual (v w : Value) : notEqual.apply v w = .bool !v.isIdentical w := by
  cases v with
  | int m =>
    cases w with
    | int n => exact congrArg Value.bool decide_not
    | bool | nil | returned | error | function => rfl
  | bool | nil | returned | error | function => rfl

theorem isIdentical_eq_decide (hv : v.IsDatum) (hw : w.IsDatum) :
    v.isIdentical w = decide (v = w) := by
  cases v with
  | nil | returned | error | function => cases hv
  | int m =>
    cases w with
    | nil | returned | error | function => cases hw
    | int n => exact decide_eq_decide.mpr ⟨congrArg Value.int, Value.int.inj⟩
    | bool b => exact (decide_eq_false nofun).symm
  | bool a =>
    cases w with
    | nil | returned | error | function => cases hw
    | int n => exact (decide_eq_false nofun).symm
    | bool b => exact decide_eq_decide.mpr ⟨congrArg Value.bool, Value.bool.inj⟩

section

variable (hequal : op ≠ equal) (hnotEqual : op ≠ notEqual)

include hequal hnotEqual

theorem apply_int_bool (m : Int64) (b : Bool) :
    op.apply (.int m) (.bool b) = .error (.typeMismatch "INT" op "BOOL") := by
  simp [apply, hequal, hnotEqual, Value.typeName]

theorem apply_bool_int (a : Bool) (n : Int64) :
    op.apply (.bool a) (.int n) = .error (.typeMismatch "BOOL" op "INT") := by
  simp [apply, hequal, hnotEqual, Value.typeName]

theorem apply_bool_bool (a b : Bool) :
    op.apply (.bool a) (.bool b) = .error (.unknownBinary "BOOL" op "BOOL") := by
  simp [apply, hequal, hnotEqual, Value.typeName]

end

theorem yields_apply (op : BinaryOp) (hv : v.IsDatum) (hw : w.IsDatum) :
    op.Yields v w (op.apply v w) := by
  by_cases hequal : op = equal
  · subst hequal
    rw [apply_equal, isIdentical_eq_decide hv hw]
    exact .equal hv hw
  by_cases hnotEqual : op = notEqual
  · subst hnotEqual
    rw [apply_notEqual, isIdentical_eq_decide hv hw, ← decide_not]
    exact .notEqual hv hw
  cases v with
  | nil | returned | error | function => cases hv
  | int m =>
    cases w with
    | nil | returned | error | function => cases hw
    | int n => exact yields_applyToIntegers hequal hnotEqual
    | bool b => exact apply_int_bool hequal hnotEqual m b ▸ .integerWithBool m b hequal hnotEqual
  | bool a =>
    cases w with
    | nil | returned | error | function => cases hw
    | int n => exact apply_bool_int hequal hnotEqual a n ▸ .boolWithInteger a n hequal hnotEqual
    | bool b => exact apply_bool_bool hequal hnotEqual a b ▸ .unknown a b hequal hnotEqual

theorem Yields.isDatum (h : op.Yields v w result) : v.IsDatum ∧ w.IsDatum := by
  cases h with
  | equal hv hw | notEqual hv hw => exact ⟨hv, hw⟩
  | _ => exact ⟨trivial, trivial⟩

theorem Yields.eq_apply (h : op.Yields v w result) : result = op.apply v w := by
  cases h with
  | exact h => exact ((applyToIntegers_of_exact h).trans (Value.ofExact_toInt _ _)).symm
  | overflow h hlarge =>
    exact ((applyToIntegers_of_exact h).trans (Value.ofExact_of_not_fits hlarge _)).symm
  | divisionByZero | less | greater => rfl
  | equal hv hw => rw [apply_equal, isIdentical_eq_decide hv hw]
  | notEqual hv hw => rw [apply_notEqual, isIdentical_eq_decide hv hw, decide_not]
  | integerWithBool m b hequal hnotEqual => rw [apply_int_bool hequal hnotEqual]
  | boolWithInteger a n hequal hnotEqual => rw [apply_bool_int hequal hnotEqual]
  | unknown a b hequal hnotEqual => rw [apply_bool_bool hequal hnotEqual]

end BinaryOp

end LetScript
