import LetScript.Proofs.Evaluation.Links
import LetScript.Proofs.Evaluation.Plain
import LetScript.Proofs.Value.Arithmetic

/-! Runtime errors tell the truth. Operators and calls are only given plain values, so the
types that an error names are those of plain values. A name that is reported as not found
is free at the top level, to which the way outward leads from every scope, and still is
when the run has ended, as nothing is bound on the way out of an error. -/
namespace LetScript

/-- What the error says is so in the state that the run has ended in. -/
def RuntimeError.IsTruthful (i : Interpreter) : RuntimeError → Prop
  | identifierNotFound name => i.lookup name = none
  | notAFunction type => type ∈ ["INT", "BOOL", "NIL"]
  | unknownUnary op operand => op = .minus ∧ operand ∈ ["BOOL", "NIL", "FUNCTION"]
  | unknownBinary left op right => left = right ∧ left ∈ ["BOOL", "NIL", "FUNCTION"] ∧
      op ∈ [.add, .subtract, .multiply, .divide, .less, .greater]
  | typeMismatch left op right => left ≠ right ∧ left ∈ ["INT", "BOOL", "NIL", "FUNCTION"] ∧
      right ∈ ["INT", "BOOL", "NIL", "FUNCTION"] ∧
      op ∈ [.add, .subtract, .multiply, .divide, .less, .greater]
  | divisionByZero _ => True
  | overflow operation =>
    (∃ (op : BinaryOp) (m n : Int64) (exact : Int), op.Exact m.toInt n.toInt exact ∧
      ¬ Integer.Fits exact ∧
      operation = Integer.text m ++ " " ++ op.symbol ++ " " ++ Integer.text n) ∨
    operation = "-(-9223372036854775808)"
  | wrongArgumentCount expected found => expected ≠ found

/-! ### Operators -/

namespace Value

variable {value : Value}

theorem IsPlain.typeName_mem (h : value.IsPlain) :
    value.typeName ∈ ["INT", "BOOL", "NIL", "FUNCTION"] := by
  cases value with
  | returned | error => cases h
  | int | bool | nil | function => simp [typeName]

theorem typeName_eq_int_iff : value.typeName = "INT" ↔ ∃ n, value = int n := by
  cases value <;> simp [typeName]

theorem IsPlain.int_or_typeName_mem (h : value.IsPlain) :
    (∃ n, value = int n) ∨ value.typeName ∈ ["BOOL", "NIL", "FUNCTION"] := by
  cases value with
  | returned | error => cases h
  | int n => exact .inl ⟨n, rfl⟩
  | bool | nil | function => exact .inr (by simp [typeName])

theorem IsPlain.ne_error {cause : RuntimeError} (h : value.IsPlain) : value ≠ error cause := by
  rintro rfl
  cases h

theorem IsPlain.arrived_eq (h : value.IsPlain) : value.arrived = value := by
  cases value with
  | returned => cases h
  | error | int | bool | nil | function => rfl

end Value

section

variable {i : Interpreter} {cause : RuntimeError}

/-- The only integer without a negative is the least one. -/
theorem Integer.eq_minValue_of_not_fits {n : Int64} (h : ¬ Fits (-n.toInt)) :
    n = Int64.minValue := by
  have hleast := Int64.minValue_le_toInt n
  have hgreatest := Int64.toInt_le n
  rw [show Int64.minValue.toInt = -2 ^ 63 by decide] at hleast
  rw [show Int64.maxValue.toInt = 2 ^ 63 - 1 by decide] at hgreatest
  refine Int64.toInt_inj.mp ?_
  rw [show Int64.minValue.toInt = -2 ^ 63 by decide]
  unfold Fits at h
  omega

theorem UnaryOp.isTruthful_of_apply {op : UnaryOp} {value : Value} (hvalue : value.IsPlain)
    (h : op.apply value = .error cause) : cause.IsTruthful i := by
  obtain ⟨n, rfl⟩ | htype := hvalue.int_or_typeName_mem
  · have hyields : op.Yields (.int n) (.error cause) := h ▸ op.yields_apply trivial
    cases hyields with
    | overflow hlarge =>
      rw [Integer.eq_minValue_of_not_fits hlarge]
      exact .inr (by decide +kernel)
  · cases op with
    | not => cases h
    | minus =>
      have hunknown : minus.apply value = .error (.unknownUnary minus value.typeName) := by
        cases value with
        | int => simp [Value.typeName] at htype
        | _ => rfl
      cases hunknown.symm.trans h
      exact ⟨rfl, htype⟩

namespace BinaryOp

theorem mem_of_ne_equal {op : BinaryOp} (h : op ≠ equal) (h' : op ≠ notEqual) :
    op ∈ [add, subtract, multiply, divide, less, greater] := by
  cases op <;> simp_all

theorem apply_of_ne_equal {op : BinaryOp} {v w : Value} (h : op ≠ equal) (h' : op ≠ notEqual)
    (hintegers : ∀ m n, v = .int m → w ≠ .int n) : op.apply v w =
      if v.typeName ≠ w.typeName then .error (.typeMismatch v.typeName op w.typeName)
      else .error (.unknownBinary v.typeName op w.typeName) := by
  unfold apply
  split
  · next m n => exact absurd rfl (hintegers m n rfl)
  · rw [if_neg h, if_neg h']

theorem isTruthful_of_apply {op : BinaryOp} {v w : Value} (hv : v.IsPlain) (hw : w.IsPlain)
    (h : op.apply v w = .error cause) : cause.IsTruthful i := by
  by_cases hequal : op = equal
  · subst hequal
    rw [apply_equal] at h
    cases h
  by_cases hnotEqual : op = notEqual
  · subst hnotEqual
    rw [apply_notEqual] at h
    cases h
  by_cases hintegers : ∃ m n, v = .int m ∧ w = .int n
  · obtain ⟨m, n, rfl, rfl⟩ := hintegers
    have hyields : op.Yields (.int m) (.int n) (.error cause) := h ▸ op.yields_apply trivial trivial
    cases hyields with
    | overflow hexact hlarge => exact .inl ⟨op, m, n, _, hexact, hlarge, rfl⟩
    | divisionByZero => trivial
  · rw [apply_of_ne_equal hequal hnotEqual fun m n hm hn => hintegers ⟨m, n, hm, hn⟩] at h
    have hop := mem_of_ne_equal hequal hnotEqual
    split at h
    · next hne =>
      cases h
      exact ⟨hne, hv.typeName_mem, hw.typeName_mem, hop⟩
    · next heq =>
      cases h
      rw [not_ne_iff] at heq
      refine ⟨heq, ?_, hop⟩
      obtain ⟨m, rfl⟩ | hmem := hv.int_or_typeName_mem
      · obtain ⟨n, rfl⟩ := Value.typeName_eq_int_iff.mp heq.symm
        exact absurd ⟨m, n, rfl, rfl⟩ hintegers
      · exact hmem

end BinaryOp

theorem Value.IsPlain.isTruthful_notAFunction {callee : Value} (h : callee.IsPlain)
    (hcallee : ∀ f, callee ≠ .function f) :
    (RuntimeError.notAFunction callee.typeName).IsTruthful i := by
  cases callee with
  | returned | error => cases h
  | function f => exact absurd rfl (hcallee f)
  | int | bool | nil => simp [RuntimeError.IsTruthful, typeName]

end

/-! ### Messages -/

/-- Without the letters `R` and `X`, one of which is in the name of every type that no plain value
is of. -/
def LacksLetters (text : String) : Prop :=
  'R' ∉ text.toList ∧ 'X' ∉ text.toList

instance (text : String) : Decidable (LacksLetters text) :=
  inferInstanceAs (Decidable (_ ∧ _))

theorem LacksLetters.append {a b : String} (h : LacksLetters a) (h' : LacksLetters b) :
    LacksLetters (a ++ b) := by
  unfold LacksLetters
  rw [String.toList_append, List.mem_append, List.mem_append, not_or, not_or]
  exact ⟨⟨h.1, h'.1⟩, h.2, h'.2⟩

theorem notMem_toDigits {c : Char} (hc : c.isDigit = false) (n : Nat) : c ∉ Nat.toDigits 10 n := by
  intro h
  rw [Nat.isDigit_of_mem_toDigits (by decide) (by decide) h] at hc
  cases hc

theorem lacksLetters_encode (n : Int) : LacksLetters (Text.Decimal.encode n) := by
  have hR (m : Nat) : 'R' ∉ Nat.toDigits 10 m := notMem_toDigits (by decide) m
  have hX (m : Nat) : 'X' ∉ Nat.toDigits 10 m := notMem_toDigits (by decide) m
  unfold LacksLetters
  cases n with
  | ofNat m =>
    rw [Text.Decimal.encode, String.toList_ofList]
    exact ⟨hR m, hX m⟩
  | negSucc m =>
    rw [Text.Decimal.encode, String.toList_ofList, List.mem_cons, List.mem_cons, not_or, not_or]
    exact ⟨⟨by decide, hR (m + 1)⟩, by decide, hX (m + 1)⟩

theorem lacksLetters_text (n : Int64) : LacksLetters (Integer.text n) :=
  lacksLetters_encode n.toInt

theorem UnaryOp.lacksLetters_symbol (op : UnaryOp) : LacksLetters op.symbol := by
  cases op <;> decide

theorem BinaryOp.lacksLetters_symbol (op : BinaryOp) : LacksLetters op.symbol := by
  cases op <;> decide

theorem lacksLetters_of_mem {type : String} (h : type ∈ ["INT", "BOOL", "NIL", "FUNCTION"]) :
    LacksLetters type := by
  have hall : ∀ type ∈ ["INT", "BOOL", "NIL", "FUNCTION"], LacksLetters type := by decide
  exact hall type h

theorem RuntimeError.IsTruthful.lacksLetters_message {i : Interpreter} {cause : RuntimeError}
    (h : cause.IsTruthful i) (hname : ∀ name, cause ≠ .identifierNotFound name) :
    LacksLetters cause.message := by
  have hspace : LacksLetters " " := by decide +kernel
  cases cause with
  | identifierNotFound name => exact absurd rfl (hname name)
  | notAFunction type =>
    have hintro : LacksLetters "not a function: " := by decide +kernel
    exact hintro.append (lacksLetters_of_mem (by unfold IsTruthful at h; grind))
  | unknownUnary op operand =>
    have hintro : LacksLetters "unknown operator: " := by decide +kernel
    exact (hintro.append op.lacksLetters_symbol).append
      (lacksLetters_of_mem (by unfold IsTruthful at h; grind))
  | unknownBinary left op right =>
    have hintro : LacksLetters "unknown operator: " := by decide +kernel
    have hleft : LacksLetters left := lacksLetters_of_mem (by unfold IsTruthful at h; grind)
    have hright : LacksLetters right := h.1 ▸ hleft
    exact ((((hintro.append hleft).append hspace).append op.lacksLetters_symbol).append
      hspace).append hright
  | typeMismatch left op right =>
    have hintro : LacksLetters "type mismatch: " := by decide +kernel
    have hleft := lacksLetters_of_mem h.2.1
    have hright := lacksLetters_of_mem h.2.2.1
    exact ((((hintro.append hleft).append hspace).append op.lacksLetters_symbol).append
      hspace).append hright
  | divisionByZero left =>
    have hintro : LacksLetters "division by zero: " := by decide +kernel
    have hzero : LacksLetters " / 0" := by decide +kernel
    exact (hintro.append (lacksLetters_text left)).append hzero
  | overflow operation =>
    have hintro : LacksLetters "integer overflow: " := by decide +kernel
    obtain ⟨op, m, n, _, -, -, rfl⟩ | rfl := h
    · exact hintro.append (((((lacksLetters_text m).append hspace).append
        op.lacksLetters_symbol).append hspace).append (lacksLetters_text n))
    · exact hintro.append (by decide +kernel)
  | wrongArgumentCount expected found =>
    have hintro : LacksLetters "wrong number of arguments: expected " := by decide +kernel
    have hgot : LacksLetters ", got " := by decide +kernel
    exact ((hintro.append (lacksLetters_encode expected)).append hgot).append
      (lacksLetters_encode found)

theorem infix_of_infix_append {α : Type} {x : α} {xs before after : List α} (hx : x ∉ before)
    (h : x :: xs <:+: before ++ after) : x :: xs <:+: after := by
  induction before with
  | nil => exact h
  | cons y before ih =>
    obtain ⟨hne, hbefore⟩ := not_or.mp (List.mem_cons.not.mp hx)
    obtain h | h := List.infix_cons_iff.mp h
    · exact absurd (List.cons_prefix_cons.mp h).1 hne
    · exact ih hbefore h

theorem toList_of_mem_hidden {type : String} (h : type ∈ ["RETURN", "EXCEPT"]) :
    type.toList = ['R', 'E', 'T', 'U', 'R', 'N'] ∨
      type.toList = ['E', 'X', 'C', 'E', 'P', 'T'] := by
  obtain rfl | rfl := List.mem_pair.mp h
  · exact .inl (by decide +kernel)
  · exact .inr (by decide +kernel)

/-- A type that no plain value is of is not in a message, unless a name is spelled like it. -/
theorem RuntimeError.IsTruthful.infix_message {i : Interpreter} {cause : RuntimeError}
    (h : cause.IsTruthful i) {type : String} (htype : type ∈ ["RETURN", "EXCEPT"])
    (hwords : type.toList <:+: cause.message.toList) :
    ∃ name, cause = .identifierNotFound name ∧ type.toList <:+: name.toList := by
  by_cases hcause : ∃ name, cause = .identifierNotFound name
  · obtain ⟨name, rfl⟩ := hcause
    refine ⟨name, rfl, ?_⟩
    change _ <:+: ("identifier not found: " ++ name).toList at hwords
    rw [String.toList_append] at hwords
    obtain hletters | hletters := toList_of_mem_hidden htype
    · rw [hletters] at hwords ⊢
      exact infix_of_infix_append (by decide +kernel) hwords
    · rw [hletters] at hwords ⊢
      exact infix_of_infix_append (by decide +kernel) hwords
  · obtain ⟨hR, hX⟩ := h.lacksLetters_message fun name hname => hcause ⟨name, hname⟩
    obtain hletters | hletters := toList_of_mem_hidden htype
    · rw [hletters] at hwords
      exact absurd (hwords.subset (by decide)) hR
    · rw [hletters] at hwords
      exact absurd (hwords.subset (by decide)) hX

/-! ### Runs -/

/-- The value is as the contracts of plain values and of links have it, and if it is an error, it is
a true one. -/
structure Value.IsAccounted (store : Store) (value : Value) : Prop where
  isOutcome : value.IsOutcome
  isFrom : value.IsFrom store.scopes.size
  truthful : ∀ cause, value = error cause → cause.IsTruthful ⟨store, 0⟩

namespace Value.IsAccounted

variable {store : Store} {value : Value}

theorem of_not_error (houtcome : value.IsOutcome) (hfrom : value.IsFrom store.scopes.size)
    (h : ∀ cause, value ≠ error cause) : value.IsAccounted store :=
  ⟨houtcome, hfrom, fun cause hcause => absurd hcause (h cause)⟩

theorem of_plain (hplain : value.IsPlain) (hfrom : value.IsFrom store.scopes.size) :
    value.IsAccounted store :=
  of_not_error hplain.isOutcome hfrom fun _ => hplain.ne_error

theorem error {cause : RuntimeError} (h : cause.IsTruthful ⟨store, 0⟩) :
    (Value.error cause).IsAccounted store :=
  ⟨isOutcome_error cause, trivial, fun _ hcause => Value.error.inj hcause ▸ h⟩

theorem arrived (h : value.IsAccounted store) : value.arrived.IsAccounted store := by
  obtain (hplain | ⟨cause, rfl⟩) | ⟨brought, rfl, hplain⟩ := h.isOutcome
  · exact hplain.arrived_eq.symm ▸ h
  · exact h
  · exact .of_plain hplain h.isFrom

end Value.IsAccounted

/-- The contract of true errors. Its worlds are the stores; of an error no more is asked than that
it is true at once, as nothing is evaluated after it. -/
def Contract.truthful : Contract where
  World := Store
  holds w store := store = w ∧ store.IsPlain ∧ store.IsLinked 1
  inScope w id := id < w.scopes.size
  leads _ w w' := w.scopes.size ≤ w'.scopes.size
  outcome := Value.IsAccounted
  settled := Value.IsAccounted
  leads_refl := Nat.le_refl _
  leads_trans := Nat.le_trans
  inScope_mono hle hid := Nat.lt_of_lt_of_le hid hle
  outcome_mono hle h habrupt := .of_plain (Value.isPlain_of_isAbrupt habrupt) (h.isFrom.mono hle)
  outcome_of_settled h := h
  settled_arrived h := h.arrived
  returned h habrupt :=
    .of_not_error (.inr ⟨_, rfl, Value.isPlain_of_isAbrupt habrupt⟩) h.isFrom nofun
  int _ := .of_plain trivial trivial
  bool _ := .of_plain trivial trivial
  nil := .of_plain trivial trivial
  lookup {_ store scope} name hstore hscope := by
    obtain ⟨rfl, hplain, hlinked⟩ := hstore
    cases hlookup : store.lookup scope name with
    | none =>
      -- the way outward comes to the top level, so the name is free there too
      exact .error (hlinked.lookup_root hscope hlookup)
    | some value => exact .of_plain (hplain.binds.lookup hlookup) (hlinked.binds.lookup hlookup)
  unary op _ habrupt :=
    { isOutcome := (op.isComputed_apply _).isOutcome
      isFrom := .of_isComputed (op.isComputed_apply _)
      truthful := fun _ => op.isTruthful_of_apply (Value.isPlain_of_isAbrupt habrupt) }
  binary op _ habrupt _ habrupt' :=
    { isOutcome := (op.isComputed_apply _ _).isOutcome
      isFrom := .of_isComputed (op.isComputed_apply _ _)
      truthful := fun _ => op.isTruthful_of_apply (Value.isPlain_of_isAbrupt habrupt)
        (Value.isPlain_of_isAbrupt habrupt') }
  function {_ store scope} parameters body hstore hscope := by
    obtain ⟨rfl, hplain, hlinked⟩ := hstore
    exact ⟨(store.addFunction parameters body scope).2, Nat.le_refl _,
      ⟨rfl, hplain, hlinked.addFunction parameters body scope⟩, .of_plain trivial hscope⟩
  bind {_ store scope value} name hstore _ hvalue habrupt := by
    obtain ⟨rfl, hplain, hlinked⟩ := hstore
    exact ⟨_, Nat.le_of_eq Store.size_define.symm, rfl,
      hplain.define scope name (Value.isPlain_of_isAbrupt habrupt),
      hlinked.define scope name hvalue.isFrom⟩
  enter {_ store f arguments} scope hstore hf _ harguments := by
    obtain ⟨rfl, hplain, hlinked⟩ := hstore
    have hsize : (store.enter f arguments).scopes.size = store.scopes.size + 1 :=
      Store.size_enter f arguments
    refine ⟨store.enter f arguments, ⟨rfl, ?_, ?_⟩, ?_, fun w hle => ?_⟩
    · exact hplain.enter f fun value hvalue =>
        Value.isPlain_of_isAbrupt (harguments value hvalue).2
    · exact hlinked.enter hf.isFrom fun value hvalue => (harguments value hvalue).1.isFrom
    · exact hsize ▸ Nat.lt_succ_self _
    · exact Nat.le_of_succ_le (Nat.le_trans (Nat.le_of_eq hsize.symm) hle)
  notAFunction _ habrupt hcallee :=
    .error ((Value.isPlain_of_isAbrupt habrupt).isTruthful_notAFunction hcallee)
  wrongArgumentCount hne := .error hne

namespace Interpreter

variable {i i' : Interpreter} {depth : Nat} {text : String} {cause : RuntimeError}

theorem scope_of_reachable (h : i.Reachable) : i.scope = 0 := by
  induction h with
  | new => rfl
  | @run i i' depth text result _ hrun ih =>
    cases result with
    | error diagnostics => exact run_eq_some_error hrun ▸ ih
    | ok value =>
      obtain ⟨_, _, _, _, _, hscope⟩ := run_eq_some_ok hrun
      exact hscope.trans ih

theorem isLinked_new : new.store.IsLinked 1 :=
  Store.IsLinked.empty.addScope nofun fun _ => Nat.one_pos

theorem isTruthful_of_run (h : i.Reachable)
    (hrun : i.run depth text = some (.ok (.error cause), i')) : cause.IsTruthful i' := by
  obtain ⟨_, ⟨rfl, hstore⟩, hscope⟩ := Contract.reachable (c := Contract.truthful) new.store
    ⟨rfl, isPlain_new, isLinked_new⟩ Nat.one_pos h
  obtain ⟨program, value, -, harrived, heval, hsame⟩ := run_eq_some_ok hrun
  obtain ⟨_, _, ⟨rfl, -⟩, hvalue⟩ := Contract.follows_statements (c := Contract.truthful)
    (Contract.truthful.permits_applyWithin depth) hscope Contract.truthful.nil _ _ ⟨rfl, hstore⟩
    _ _ heval
  -- the error is true of the store that the run leaves, seen from the top level
  have htop : i' = ⟨i'.store, 0⟩ := by rw [← scope_of_reachable h, ← hsame]
  rw [htop]
  exact hvalue.arrived.truthful cause harrived.symm

/-- The errors that runs end in say what is so. No error gives `RETURN` or `EXCEPT` as a type: these
words are in a message only where they are part of a name that was not found. -/
theorem errors_truthful (h : i.Reachable)
    (hrun : i.run depth text = some (.ok (.error cause), i')) :
    cause.IsTruthful i' ∧ ∀ type ∈ ["RETURN", "EXCEPT"],
      type.toList <:+: cause.message.toList →
        ∃ name, cause = .identifierNotFound name ∧ type.toList <:+: name.toList := by
  have htruthful := isTruthful_of_run h hrun
  exact ⟨htruthful, fun type htype => htruthful.infix_message htype⟩

/-- A name that a function was looking for is free at the top level when the run is over. -/
theorem errors_truthful_inCall : ∃ i',
    new.run 1 "let f = fn(x) \x7b x + y \x7d; f(1)" =
      some (.ok (.error (.identifierNotFound "y")), i') ∧ i'.lookup "y" = none := by
  have hresult : (new.run 1 "let f = fn(x) \x7b x + y \x7d; f(1)").map Prod.fst =
      some (.ok (.error (.identifierNotFound "y"))) := by decide +kernel
  obtain ⟨⟨_, i'⟩, hrun, rfl⟩ := Option.map_eq_some_iff.mp hresult
  exact ⟨i', hrun, (errors_truthful .new hrun).1⟩

/-- A name may be spelled like a type. Keywords are in small letters, so `RETURN` is a name, and
when it is not found the message repeats it. -/
theorem not_errors_without_hidden_types :
    ¬ ∀ (i i' : Interpreter) (depth : Nat) (text : String) (cause : RuntimeError), i.Reachable →
      i.run depth text = some (.ok (.error cause), i') →
        cause.IsTruthful i' ∧ ∀ type ∈ ["RETURN", "EXCEPT"],
          ¬ type.toList <:+: cause.message.toList := by
  intro h
  have hresult : (new.run 0 "RETURN").map Prod.fst =
      some (.ok (.error (.identifierNotFound "RETURN"))) := by decide +kernel
  obtain ⟨⟨_, i'⟩, hrun, rfl⟩ := Option.map_eq_some_iff.mp hresult
  have hmessage : (RuntimeError.identifierNotFound "RETURN").message.toList =
      "identifier not found: ".toList ++ "RETURN".toList := String.toList_append
  have hspared := (h new i' 0 "RETURN" _ .new hrun).2 "RETURN" List.mem_cons_self
  rw [hmessage] at hspared
  exact hspared (List.suffix_append _ _).isInfix

end Interpreter

end LetScript
