import LetScript.Proofs.Evaluation.Errors
import LetScript.Proofs.Evaluation.Handing
import LetScript.Proofs.Evaluation.Making

/-! Which functions are identical. A session is a list of evaluations in the order in which
they end. Every function that there is has been made by one of them, the evaluation of a
function literal, and two functions are identical if that is the same one. -/
namespace LetScript

namespace Activity

variable {evaluations before after : List Activity} {a b : Activity} {f g : Closure} {k l : Nat}
  {made : List Closure}

/-- The evaluation is that of a function literal and has yielded the function. -/
def Makes (a : Activity) (f : Closure) : Prop :=
  (∃ parameters body, a.task = .expr (.function parameters body)) ∧
    ∃ store, a.eval = some (.function f, store)

/-- The function has been made by the evaluation with this place in the list. -/
def StemsFrom (evaluations : List Activity) (f : Closure) (k : Nat) : Prop :=
  ∃ a, evaluations[k]? = some a ∧ a.Makes f

theorem makes_iff : a.Makes f ↔ a.made? = some f := by
  rw [made?_eq_some_iff]
  obtain ⟨depth, scope, task, store⟩ := a
  constructor
  · rintro ⟨⟨parameters, body, rfl⟩, _, ⟨⟩⟩
    exact ⟨parameters, body, rfl, rfl⟩
  · rintro ⟨parameters, body, rfl, rfl⟩
    exact ⟨⟨parameters, body, rfl⟩, _, rfl⟩

theorem mem_madeBy_iff : f ∈ madeBy evaluations ↔ ∃ k, StemsFrom evaluations f k := by
  rw [madeBy, List.mem_filterMap]
  constructor
  · rintro ⟨a, ha, hmade⟩
    obtain ⟨k, hk⟩ := List.mem_iff_getElem?.mp ha
    exact ⟨k, a, hk, makes_iff.mpr hmade⟩
  · rintro ⟨k, a, hk, hmakes⟩
    exact ⟨a, List.mem_of_getElem? hk, makes_iff.mp hmakes⟩

theorem StemsFrom.unique (hf : StemsFrom evaluations f k) (hg : StemsFrom evaluations g k) :
    f = g := by
  obtain ⟨a, ha, -, store, heval⟩ := hf
  obtain ⟨b, hb, -, store', heval'⟩ := hg
  obtain rfl : a = b := Option.some.inj (ha.symm.trans hb)
  cases heval.symm.trans heval'
  rfl

/-! ### Sound identity -/

/-- The function is one of the results, bound somewhere in the store, what an evaluation has yielded
or bound somewhere in the store that one has left. -/
inductive Found (evaluations : List Activity) (results : List Value) (store : Store)
    (f : Closure) : Prop where
  | result {value} (hvalue : value ∈ results) (hf : value.closure? = some f)
  | bound {id name value} (hbound : store.findLocal? id name = some value)
      (hf : value.closure? = some f)
  | yielded {a value left} (ha : a ∈ evaluations) (heval : a.eval = some (value, left))
      (hf : value.closure? = some f)
  | left {a value left id name value'} (ha : a ∈ evaluations) (heval : a.eval = some (value, left))
      (hbound : left.findLocal? id name = some value') (hf : value'.closure? = some f)

/-- Results that have been yielded bring no function that has not. -/
theorem Found.of_results {results : List Value} {store : Store}
    (h : Found evaluations results store f) (hresults : ∀ value ∈ results,
      ∃ a ∈ evaluations, ∃ yielded left, a.eval = some (yielded, left) ∧
        value = yielded.arrived) : Found evaluations [] store f := by
  cases h with
  | result hvalue hf =>
    obtain ⟨a, ha, yielded, left, heval, rfl⟩ := hresults _ hvalue
    exact .yielded ha heval (Value.closure?_arrived.symm.trans hf)
  | bound hbound hf => exact .bound hbound hf
  | yielded ha heval hf => exact .yielded ha heval hf
  | left ha heval hbound hf => exact .left ha heval hbound hf

/-- The identity of the functions that are found is where they have been made in the course of the
evaluations, which come in the order in which they end. -/
structure SoundIdentity (evaluations : List Activity) (found : Closure → Prop) : Prop where
  alike : ∀ f g, found f → found g → (Value.function f).isIdentical (.function g) = true →
    f.parameters = g.parameters ∧ f.body = g.body ∧ f.scope = g.scope
  stems : ∀ f, found f → ∃! k, StemsFrom evaluations f k
  identical_iff : ∀ f g, found f → found g →
    ((Value.function f).isIdentical (.function g) = true ↔
      ∃ k, StemsFrom evaluations f k ∧ StemsFrom evaluations g k)
  /-- The operators for equality take two functions for the same if and only if they stem from the
  same evaluation. -/
  compared : ∀ a ∈ evaluations, ∀ op left right f g store store',
    a.task = .expr (.binary op left right) →
    Activity.eval ⟨a.depth, a.scope, .expr left, a.store⟩ = some (.function f, store) →
    Activity.eval ⟨a.depth, a.scope, .expr right, store⟩ = some (.function g, store') →
    ∃ same : Bool,
      (same = true ↔ ∃ k, StemsFrom evaluations f k ∧ StemsFrom evaluations g k) ∧
      (op = .equal → a.eval = some (.bool same, store')) ∧
      (op = .notEqual → a.eval = some (.bool !same, store'))
  /-- A literal yields a function of its own, not identical to any that there is by then. What has
  been yielded takes in the results of earlier runs. -/
  fresh : ∀ before a after parameters body, evaluations = before ++ a :: after →
    a.task = .expr (.function parameters body) →
    ∃ f left, a.eval = some (.function f, left) ∧ f.parameters = parameters ∧ f.body = body ∧
      f.scope = a.scope ∧ ∀ g, Found before [] a.store g →
        (Value.function f).isIdentical (.function g) = false
  handsOn : ∀ a ∈ evaluations, a.HandsOn

/-! ### Numbers tell where functions stem from -/

namespace Recorded

/-- A literal makes a function with a greater number than all before it. -/
theorem id_lt (h : Recorded [] (before ++ a :: after)) (ha : a.Makes g)
    (hf : f ∈ madeBy before) : f.id < g.id := by
  have hmade := makes_iff.mp ha
  have hstore : a.store.Registers (madeBy before) :=
    (recorded_append_iff.mp h).2.1 (hmade ▸ Option.some_ne_none g)
  obtain ⟨parameters, body, -, rfl⟩ := made?_eq_some_iff.mp hmade
  have hid : f.id ∈ (madeBy before).map Closure.id := List.mem_map_of_mem hf
  rw [hstore.ids] at hid
  exact List.mem_range.mp hid

theorem id_lt_of_lt (h : Recorded [] evaluations) (hf : StemsFrom evaluations f k)
    (hg : StemsFrom evaluations g l) (hlt : k < l) : f.id < g.id := by
  obtain ⟨a, ha, hmakes⟩ := hf
  obtain ⟨b, hb, hmakes'⟩ := hg
  obtain ⟨hl, rfl⟩ := List.getElem?_eq_some_iff.mp hb
  rw [← List.take_append_drop l evaluations, List.drop_eq_getElem_cons hl] at h
  refine h.id_lt hmakes' (mem_madeBy_iff.mpr ⟨k, a, ?_, hmakes⟩)
  rw [List.getElem?_take_of_lt hlt]
  exact ha

/-- Functions with one number have been made by one evaluation. -/
theorem stems_eq (h : Recorded [] evaluations) (hf : StemsFrom evaluations f k)
    (hg : StemsFrom evaluations g l) (hid : f.id = g.id) : k = l := by
  obtain hlt | heq | hlt := Nat.lt_trichotomy k l
  · exact absurd hid (Nat.ne_of_lt (h.id_lt_of_lt hf hg hlt))
  · exact heq
  · exact absurd hid (Nat.ne_of_gt (h.id_lt_of_lt hg hf hlt))

/-- What an evaluation ends in was among what had been made by then. -/
theorem ended_of_mem (h : Recorded [] evaluations) (ha : a ∈ evaluations) {value : Value}
    {store : Store} (heval : a.eval = some (value, store)) :
    ∃ made, made <+: madeBy evaluations ∧ store.Registers made ∧ value.IsAmong made := by
  obtain ⟨before, after, rfl⟩ := List.append_of_mem ha
  obtain ⟨hstore, hvalue⟩ := (recorded_append_iff.mp h).2.2.1 value store heval
  refine ⟨madeBy before ++ madeBy [a], ?_, hstore, hvalue⟩
  rw [List.append_cons, madeBy_append, madeBy_append]
  exact List.prefix_append _ _

theorem mem_madeBy_of_eval (h : Recorded [] evaluations) (ha : a ∈ evaluations) {value : Value}
    {store : Store} (heval : a.eval = some (value, store)) (hf : value.closure? = some f) :
    f ∈ madeBy evaluations := by
  obtain ⟨made, hmade, -, hvalue⟩ := h.ended_of_mem ha heval
  exact hmade.subset (hvalue f hf)

/-- What is found has been made. -/
theorem mem_madeBy_of_found (h : Recorded [] evaluations) {store : Store}
    (hstore : store.Registers made) (hmade : made <+: madeBy evaluations)
    (hf : Found evaluations [] store f) : f ∈ madeBy evaluations := by
  cases hf with
  | result hvalue => cases hvalue
  | bound hbound hf => exact hmade.subset (hstore.binds _ _ _ hbound f hf)
  | yielded ha heval hf => exact h.mem_madeBy_of_eval ha heval hf
  | left ha heval hbound hf =>
    obtain ⟨made', hmade', hleft, -⟩ := h.ended_of_mem ha heval
    exact hmade'.subset (hleft.binds _ _ _ hbound f hf)

/-- Functions are identical if one evaluation has made them, and so if they are the same. -/
theorem identical_iff (h : Recorded [] evaluations) (hf : f ∈ madeBy evaluations)
    (hg : g ∈ madeBy evaluations) : (Value.function f).isIdentical (.function g) = true ↔
      ∃ k, StemsFrom evaluations f k ∧ StemsFrom evaluations g k := by
  obtain ⟨k, hk⟩ := mem_madeBy_iff.mp hf
  obtain ⟨l, hl⟩ := mem_madeBy_iff.mp hg
  have hidentical : (Value.function f).isIdentical (.function g) = true ↔ f.id = g.id :=
    decide_eq_true_iff
  rw [hidentical]
  constructor
  · intro hid
    obtain rfl := h.stems_eq hk hl hid
    exact ⟨k, hk, hl⟩
  · rintro ⟨m, hm, hm'⟩
    rw [hm.unique hm']

/-- A literal yields a function unlike all that there are by then. -/
theorem fresh (h : Recorded [] (before ++ a :: after)) (ha : a.Makes f)
    (hg : Found before [] a.store g) : (Value.function f).isIdentical (.function g) = false := by
  obtain ⟨hbefore, hthere, -⟩ := recorded_append_iff.mp h
  have hstore := hthere (makes_iff.mp ha ▸ Option.some_ne_none f)
  have hmade := hbefore.mem_madeBy_of_found hstore List.prefix_rfl hg
  exact decide_eq_false (Nat.ne_of_gt (h.id_lt ha hmade))

theorem soundIdentity (h : Recorded [] evaluations) {found : Closure → Prop}
    (hfound : ∀ f, found f → f ∈ madeBy evaluations)
    (hstarts : ∀ a ∈ evaluations, ∀ b, a.Starts b → b ∈ evaluations)
    (hhandsOn : ∀ a ∈ evaluations, a.HandsOn) : SoundIdentity evaluations found := by
  constructor
  case alike =>
    intro f g hf hg hidentical
    obtain ⟨k, hk, hk'⟩ := (h.identical_iff (hfound f hf) (hfound g hg)).mp hidentical
    rw [hk.unique hk']
    exact ⟨rfl, rfl, rfl⟩
  case stems =>
    intro f hf
    obtain ⟨k, hk⟩ := mem_madeBy_iff.mp (hfound f hf)
    exact ⟨k, hk, fun l hl => h.stems_eq hl hk rfl⟩
  case identical_iff =>
    exact fun f g hf hg => h.identical_iff (hfound f hf) (hfound g hg)
  case compared =>
    rintro ⟨depth, scope, _, start⟩ ha op left right f g store store' rfl hleft hright
    have hf := h.mem_madeBy_of_eval (hstarts _ ha _ .left) hleft rfl
    have hg := h.mem_madeBy_of_eval (hstarts _ ha _ (.right hleft rfl)) hright rfl
    have heval : Activity.eval ⟨depth, scope, .expr (.binary op left right), start⟩ =
        some (op.apply (.function f) (.function g), store') :=
      (Eval.proceed_of_eq_some hleft rfl).trans (Eval.proceed_of_eq_some hright rfl)
    refine ⟨_, h.identical_iff hf hg, ?_, ?_⟩
    · rintro rfl
      rw [heval, BinaryOp.apply_equal]
    · rintro rfl
      rw [heval, BinaryOp.apply_notEqual]
  case fresh =>
    rintro before ⟨depth, scope, _, store⟩ after parameters body rfl rfl
    refine ⟨_, _, rfl, rfl, rfl, rfl, fun g hg => h.fresh ?_ hg⟩
    exact ⟨⟨parameters, body, rfl⟩, _, rfl⟩
  case handsOn => exact hhandsOn

end Recorded

end Activity

/-! ### Sessions -/

namespace Interpreter

/-- The evaluations of a run in the order in which they end. -/
def evaluations (i : Interpreter) (depth : Nat) (text : String) : List Activity :=
  match Program.parse text with
  | .ok program => Activity.within ⟨depth, i.scope, .block program.statements, i.store⟩
  | .error _ => []

/-- The evaluations, results and last state of runs that have each ended. -/
inductive Session : List Activity → List Value → Interpreter → Prop where
  | new : Session [] [] .new
  | run {evaluations results i i' depth text result} (h : Session evaluations results i)
      (hrun : i.run depth text = some (result, i')) :
      Session (evaluations ++ i.evaluations depth text) (results ++ result.toOption.toList) i'

variable {i i' : Interpreter} {depth : Nat} {text : String} {a : Activity}
  {evaluations : List Activity} {results : List Value} {made : List Closure}

theorem evaluations_eq_within {program : Program} (h : Program.parse text = .ok program) :
    i.evaluations depth text =
      Activity.within ⟨depth, i.scope, .block program.statements, i.store⟩ := by
  rw [Interpreter.evaluations, h]

theorem evaluations_eq_nil {diagnostics : List Diagnostic}
    (h : i.run depth text = some (.error diagnostics, i')) : i.evaluations depth text = [] := by
  unfold run at h
  split at h
  · obtain ⟨_, _, ⟨⟩⟩ := Option.map_eq_some_iff.mp h
  · next hparse => rw [Interpreter.evaluations, hparse]

theorem mem_evaluations_iff : a ∈ i.evaluations depth text ↔ i.Performs depth text a := by
  unfold Interpreter.evaluations Performs
  split
  · next program hparse =>
    rw [Activity.mem_within_iff, hparse]
    simp
  · next diagnostics hparse =>
    rw [hparse]
    simp

/-! ### What a session has made -/

open Activity

/-- Whatever has been made before, the functions that a run makes follow on it. -/
theorem recorded_evaluations (h : i.store.Registers made) (depth : Nat) (text : String) :
    Recorded made (i.evaluations depth text) := by
  unfold Interpreter.evaluations
  split
  · exact recorded_within h trivial
  · trivial

/-- What a run leaves is among what has been made by then. -/
theorem registers_of_run (h : i.store.Registers made) {result : Except (List Diagnostic) Value}
    (hrun : i.run depth text = some (result, i')) :
    i'.store.Registers (made ++ madeBy (i.evaluations depth text)) := by
  have hrecorded := recorded_evaluations h depth text
  cases result with
  | error diagnostics =>
    rw [run_eq_some_error hrun, evaluations_eq_nil hrun]
    exact (List.append_nil made).symm ▸ h
  | ok result =>
    obtain ⟨program, value, hparse, -, heval, -⟩ := run_eq_some_ok hrun
    rw [evaluations_eq_within hparse] at hrecorded ⊢
    exact (hrecorded.ended heval).1

/-- The result of a run is what one of its evaluations has yielded. -/
theorem exists_eval_of_run {value : Value} (hrun : i.run depth text = some (.ok value, i')) :
    ∃ a ∈ i.evaluations depth text, ∃ yielded left, a.eval = some (yielded, left) ∧
      value = yielded.arrived := by
  obtain ⟨program, yielded, hparse, rfl, heval, -⟩ := run_eq_some_ok hrun
  rw [evaluations_eq_within hparse]
  exact ⟨_, mem_within_iff.mpr .refl, yielded, _, heval, rfl⟩

namespace Session

theorem reachable (h : Session evaluations results i) : i.Reachable := by
  induction h with
  | new => exact .new
  | run _ hrun ih => exact .run ih hrun

theorem registers (h : Session evaluations results i) :
    Recorded [] evaluations ∧ i.store.Registers (madeBy evaluations) := by
  induction h with
  | new => exact ⟨trivial, Store.Registers.new⟩
  | @run _ _ i _ depth text _ _ hrun ih =>
    obtain ⟨hrecorded, hstore⟩ := ih
    rw [madeBy_append]
    exact ⟨recorded_append_iff.mpr ⟨hrecorded, recorded_evaluations hstore depth text⟩,
      registers_of_run hstore hrun⟩

theorem exists_eval_of_result (h : Session evaluations results i) {value : Value}
    (hvalue : value ∈ results) : ∃ a ∈ evaluations, ∃ yielded left,
      a.eval = some (yielded, left) ∧ value = yielded.arrived := by
  induction h with
  | new => cases hvalue
  | @run _ _ _ _ _ _ result _ hrun ih =>
    obtain hvalue | hvalue := List.mem_append.mp hvalue
    · obtain ⟨a, ha, hyielded⟩ := ih hvalue
      exact ⟨a, List.mem_append_left _ ha, hyielded⟩
    · cases result with
      | error => cases hvalue
      | ok =>
        cases List.mem_singleton.mp hvalue
        obtain ⟨a, ha, hyielded⟩ := exists_eval_of_run hrun
        exact ⟨a, List.mem_append_right _ ha, hyielded⟩

/-- The evaluations are those of whole runs, the next one among them. -/
theorem exists_run_of_mem (h : Session evaluations results i)
    (ha : a ∈ evaluations ++ i.evaluations depth text) :
    ∃ (j : Interpreter) (depth' : Nat) (text' : String), j.Reachable ∧ j.Performs depth' text' a ∧
      j.evaluations depth' text' ⊆ evaluations ++ i.evaluations depth text := by
  induction h generalizing depth text with
  | new => exact ⟨.new, depth, text, .new, mem_evaluations_iff.mp ha, List.Subset.refl _⟩
  | run h hrun ih =>
    obtain ha | ha := List.mem_append.mp ha
    · obtain ⟨j, depth', text', hj, ha, hsubset⟩ := ih ha
      exact ⟨j, depth', text', hj, ha, List.Subset.trans hsubset (List.subset_append_left _ _)⟩
    · exact ⟨_, depth, text, h.reachable.run hrun, mem_evaluations_iff.mp ha,
        List.subset_append_right _ _⟩

end Session

/-- Every state that runs lead to is the last one of a session. -/
theorem reachable_iff_exists_session :
    i.Reachable ↔ ∃ evaluations results, Session evaluations results i := by
  constructor
  · intro h
    induction h with
    | new => exact ⟨[], [], .new⟩
    | run _ hrun ih =>
      obtain ⟨evaluations, results, hsession⟩ := ih
      exact ⟨_, _, hsession.run hrun⟩
  · rintro ⟨evaluations, results, h⟩
    exact h.reachable

/-- Scopes hang together throughout a run, so that it hands functions on. -/
theorem handsOn_of_performs (h : i.Reachable) (ha : i.Performs depth text a) : a.HandsOn := by
  obtain ⟨count, hstore, hscope⟩ := Contract.reachable (c := Contract.linked 1) (1 : Nat)
    ⟨rfl, isLinked_new⟩ Nat.one_pos h
  obtain ⟨program, -, hreaches⟩ := ha
  have hstart : (Contract.linked 1).Covers count
      ⟨depth, i.scope, .block program.statements, i.store⟩ := ⟨hstore, hscope, trivial⟩
  obtain ⟨_, hcovers⟩ := hstart.reaches hreaches
  exact handsOn hcovers

/-- Identity is sound in every session and throughout the run that comes next, also if that one has
no result. -/
theorem Session.identity_sound (h : Session evaluations results i) (depth : Nat) (text : String) :
    SoundIdentity (evaluations ++ i.evaluations depth text)
      (Found (evaluations ++ i.evaluations depth text) results i.store) := by
  obtain ⟨hrecorded, hstore⟩ := h.registers
  have hall : Recorded [] (evaluations ++ i.evaluations depth text) :=
    recorded_append_iff.mpr ⟨hrecorded, recorded_evaluations hstore depth text⟩
  refine hall.soundIdentity ?_ ?_ ?_
  · intro f hf
    have hmade : madeBy evaluations <+: madeBy (evaluations ++ i.evaluations depth text) :=
      madeBy_append ▸ List.prefix_append _ _
    refine hall.mem_madeBy_of_found hstore hmade (hf.of_results ?_)
    intro value hvalue
    obtain ⟨a, ha, hyielded⟩ := h.exists_eval_of_result hvalue
    exact ⟨a, List.mem_append_left _ ha, hyielded⟩
  · intro a ha b hstarts
    obtain ⟨j, depth', text', -, ⟨program, hparse, hreaches⟩, hsubset⟩ := h.exists_run_of_mem ha
    exact hsubset (mem_evaluations_iff.mpr ⟨program, hparse, hreaches.tail hstarts⟩)
  · intro a ha
    obtain ⟨j, depth', text', hj, hperforms, -⟩ := h.exists_run_of_mem ha
    exact handsOn_of_performs hj hperforms

end Interpreter

/-- What evaluating `fn() { 1 }` yields at the top level. -/
def Closure.one (id : Nat) : Closure := ⟨id, [], [.expr (.int 1)], 0⟩

namespace Interpreter

open Activity

/-- After `let f = fn() { 1 }; let g = fn() { 1 }; let h = f;`. -/
def twins : Interpreter :=
  ⟨⟨#[⟨[("f", .function (.one 0)), ("g", .function (.one 1)), ("h", .function (.one 0))], none⟩],
    2⟩, 0⟩

theorem session_twins : ∃ evaluations, Session evaluations [.nil] twins := by
  have hrun : Interpreter.new.run 1 ("let f = fn() \x7b 1 \x7d; let g = fn() \x7b 1 \x7d; " ++
      "let h = f;") = some (.ok .nil, twins) := by decide +kernel
  exact ⟨_, Session.new.run hrun⟩

/-- Functions that are alike have been made apart, also when one of them has two names. -/
theorem Session.identity_sound_twins : ∃ evaluations, Session evaluations [.nil] twins ∧
    (∃! k, StemsFrom (evaluations ++ twins.evaluations 1 "f == h") (.one 0) k) ∧
    ¬ ∃ k, StemsFrom (evaluations ++ twins.evaluations 1 "f == h") (.one 0) k ∧
      StemsFrom (evaluations ++ twins.evaluations 1 "f == h") (.one 1) k := by
  obtain ⟨evaluations, hsession⟩ := session_twins
  have hsound := hsession.identity_sound 1 "f == h"
  have hf : twins.store.findLocal? 0 "f" = some (.function (.one 0)) := by decide +kernel
  have hg : twins.store.findLocal? 0 "g" = some (.function (.one 1)) := by decide +kernel
  refine ⟨evaluations, hsession, hsound.stems _ (.bound hf rfl), fun hsame => ?_⟩
  cases (hsound.identical_iff _ _ (.bound hf rfl) (.bound hg rfl)).mpr hsame

end Interpreter

end LetScript
