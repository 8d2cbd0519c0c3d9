import LetScript.Parser.Phrases

/-! Readings without reports. `Reads` says what was read and where reading stopped, and
that no statement was dropped on the way; a reading put together from others has it
exactly when they have it one after the other. -/
namespace LetScript

variable {α β : Type} {n : Nat}

/-- `value` was read up to `rest`, and nothing was reported. -/
def Reading.Reads (r : Reading α n) (value : α) (rest : List Token) : Prop :=
  r.value = value ∧ r.reports = [] ∧ r.rest = rest

namespace Reading

theorem Reads.length_le {r : Reading α n} {value : α} {rest : List Token}
    (h : r.Reads value rest) : rest.length ≤ n :=
  h.2.2 ▸ r.length_rest_le

@[simp] theorem reads_done {a value : α} {ts rest : List Token} :
    (done value ts).Reads a rest ↔ value = a ∧ ts = rest := by
  simp [Reads, done]

@[simp] theorem reads_after {r : Reading α n} {k : Nat} {value : α} {rest : List Token} :
    (after k r).Reads value rest ↔ r.Reads value rest :=
  Iff.rfl

theorem reads_map {r : Reading α n} {f : α → β} {b : β} {rest : List Token} :
    (r.map f).Reads b rest ↔ ∃ a, r.Reads a rest ∧ f a = b := by
  constructor
  · rintro ⟨hb, hr⟩
    exact ⟨r.value, ⟨rfl, hr⟩, hb⟩
  · rintro ⟨_, ⟨rfl, hr⟩, hb⟩
    exact ⟨hb, hr⟩

theorem reads_andThen {r : Reading α n} {b : β} {rest : List Token}
    {next : α → (ts : List Token) → ts.length ≤ n → Reading β ts.length} :
    (r.andThen next).Reads b rest ↔
      ∃ a mid, ∃ h : mid.length ≤ n, r.Reads a mid ∧ (next a mid h).Reads b rest := by
  constructor
  · rintro ⟨hb, hreports, hrest⟩
    obtain ⟨hr, hs⟩ := List.append_eq_nil_iff.mp hreports
    exact ⟨r.value, r.rest, r.length_rest_le, ⟨rfl, hr, rfl⟩, hb, hs, hrest⟩
  · rintro ⟨_, _, h, ⟨rfl, hr, rfl⟩, hb, hs, hrest⟩
    exact ⟨hb, by simp [andThen, hr, hs], hrest⟩

theorem andThen_reads {r : Reading α n} {a : α} {b : β} {mid rest : List Token}
    {next : α → (ts : List Token) → ts.length ≤ n → Reading β ts.length}
    (hr : r.Reads a mid) (hs : (next a mid hr.length_le).Reads b rest) :
    (r.andThen next).Reads b rest :=
  reads_andThen.mpr ⟨a, mid, hr.length_le, hr, hs⟩

end Reading

namespace Attempt

@[simp] theorem reads_succeed {a value : α} {ts rest : List Token} :
    (succeed value ts).Reads (.ok a) rest ↔ value = a ∧ ts = rest := by
  simp [succeed]

@[simp] theorem not_reads_giveUp {a : α} {d : Diagnostic} {ts rest : List Token} :
    ¬ (giveUp d ts).Reads (.ok a) rest := by
  simp [giveUp]

theorem reads_map {r : Attempt α n} {f : α → β} {b : β} {rest : List Token} :
    (r.map f).Reads (.ok b) rest ↔ ∃ a, r.Reads (.ok a) rest ∧ f a = b := by
  rw [map, Reading.reads_map]
  constructor
  · rintro ⟨_ | a, h, hb⟩
    · cases hb
    · exact ⟨a, h, by simpa [Except.map] using hb⟩
  · rintro ⟨a, h, rfl⟩
    exact ⟨.ok a, h, rfl⟩

theorem reads_andThen {r : Attempt α n} {b : β} {rest : List Token}
    {next : α → (ts : List Token) → ts.length ≤ n → Attempt β ts.length} :
    (r.andThen next).Reads (.ok b) rest ↔
      ∃ a mid, ∃ h : mid.length ≤ n, r.Reads (.ok a) mid ∧ (next a mid h).Reads (.ok b) rest := by
  rw [andThen, Reading.reads_andThen]
  constructor
  · rintro ⟨_ | a, mid, h, hr, hs⟩
    · exact absurd hs not_reads_giveUp
    · exact ⟨a, mid, h, hr, hs⟩
  · rintro ⟨a, mid, h, hr, hs⟩
    exact ⟨.ok a, mid, h, hr, hs⟩

theorem map_reads {r : Attempt α n} {a : α} {rest : List Token} (f : α → β)
    (h : r.Reads (.ok a) rest) : (r.map f).Reads (.ok (f a)) rest :=
  reads_map.mpr ⟨a, h, rfl⟩

theorem andThen_reads {r : Attempt α n} {a : α} {b : β} {mid rest : List Token}
    {next : α → (ts : List Token) → ts.length ≤ n → Attempt β ts.length}
    (hr : r.Reads (.ok a) mid) (hs : (next a mid hr.length_le).Reads (.ok b) rest) :
    (r.andThen next).Reads (.ok b) rest :=
  reads_andThen.mpr ⟨a, mid, hr.length_le, hr, hs⟩

/-- A statement that is dropped is reported. -/
theorem reads_settle {r : Attempt α n} {values : List α} {rest : List Token} :
    r.settle.Reads values rest ↔ ∃ a, values = [a] ∧ r.Reads (.ok a) rest := by
  obtain ⟨_ | a, reports, ts, h⟩ := r
  · simp [settle, Reading.Reads]
  · constructor
    · rintro ⟨rfl, hr⟩
      exact ⟨a, rfl, rfl, hr⟩
    · rintro ⟨_, rfl, ⟨⟩, hr⟩
      exact ⟨rfl, hr⟩

theorem settle_reads {r : Attempt α n} {a : α} {rest : List Token} (h : r.Reads (.ok a) rest) :
    r.settle.Reads [a] rest :=
  reads_settle.mpr ⟨a, rfl, h⟩

end Attempt

end LetScript
