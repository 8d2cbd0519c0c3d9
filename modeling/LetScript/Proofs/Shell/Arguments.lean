import LetScript.Shell.Arguments
import Mathlib.Data.List.Basic
import Mathlib.Data.List.Count
import Mathlib.Data.List.Induction
import Mathlib.Data.List.Perm.Basic

/-! Which command line arguments are taken, and what they say. Whether arguments are taken
is a matter of how many there are of each sort, so their order makes no difference. Where
they are refused it does: the error is that of the first argument which does not go with
those before it, whatever comes after. -/
namespace LetScript.Shell

variable {argument : String} {mode : Mode} {arguments before : List String}

namespace Arguments

/-- Written like a flag, whether or not there is such a flag. -/
def IsFlag (argument : String) : Prop :=
  "--".toList <+: argument.toList

def IsMode (argument : String) : Prop :=
  argument = "--lex" ∨ argument = "--parse"

instance (argument : String) : Decidable (IsFlag argument) :=
  inferInstanceAs (Decidable (_ <+: _))

instance (argument : String) : Decidable (IsMode argument) :=
  inferInstanceAs (Decidable (_ ∨ _))

/-- At most one mode, no flag but modes, and at most one path. -/
structure Acceptable (arguments : List String) : Prop where
  modes : arguments.countP (IsMode ·) ≤ 1
  flags : ∀ argument ∈ arguments, IsFlag argument → IsMode argument
  paths : arguments.countP (¬ IsFlag ·) ≤ 1

instance (arguments : List String) : Decidable (Acceptable arguments) :=
  decidable_of_iff (_ ∧ _ ∧ _) ⟨fun h => ⟨h.1, h.2.1, h.2.2⟩, fun h => ⟨h.1, h.2, h.3⟩⟩

/-- The shortest prefix that is not acceptable ends in `last`. -/
def IsRefusedAt (arguments : List String) (last : String) : Prop :=
  ∃ before after, arguments = before ++ last :: after ∧
    (∀ shorter, shorter <+: before → Acceptable shorter) ∧ ¬ Acceptable (before ++ [last])

/-- What is wrong with an argument that is refused. -/
def refusal (argument : String) : ArgumentError :=
  if IsMode argument then .conflictingModes
  else if IsFlag argument then .unknownFlag argument
  else .unexpectedArgument argument

/-! ### Single arguments -/

theorem IsMode.isFlag (h : IsMode argument) : IsFlag argument := by
  obtain rfl | rfl := h <;> decide +kernel

theorem looksLikeFlag_eq_decide (argument : String) :
    looksLikeFlag argument = decide (IsFlag argument) := by
  rw [Bool.eq_iff_iff, decide_eq_true_iff]
  exact List.isPrefixOf_iff_prefix

theorem ofFlag?_eq_some_iff : Mode.ofFlag? argument = some mode ↔
    argument = "--lex" ∧ mode = .lex ∨ argument = "--parse" ∧ mode = .parse := by
  unfold Mode.ofFlag?
  split
  · simp [eq_comm]
  · simp [eq_comm]
  · next hlex hparse =>
    refine ⟨nofun, ?_⟩
    rintro (⟨heq, -⟩ | ⟨heq, -⟩)
    · exact absurd heq hlex
    · exact absurd heq hparse

theorem isMode_of_ofFlag? (h : Mode.ofFlag? argument = some mode) : IsMode argument :=
  (ofFlag?_eq_some_iff.mp h).imp And.left And.left

theorem IsMode.exists_ofFlag? (h : IsMode argument) :
    ∃ mode, Mode.ofFlag? argument = some mode := by
  obtain rfl | rfl := h
  · exact ⟨.lex, rfl⟩
  · exact ⟨.parse, rfl⟩

theorem ofFlag?_eq_none_iff : Mode.ofFlag? argument = none ↔ ¬ IsMode argument := by
  rw [← Option.not_isSome_iff_eq_none, Option.isSome_iff_exists, not_iff_not]
  exact ⟨fun ⟨_, h⟩ => isMode_of_ofFlag? h, IsMode.exists_ofFlag?⟩

/-! ### One more argument -/

/-- What arguments that are taken come to. -/
def gathered (arguments : List String) : Arguments where
  mode := arguments.findSome? Mode.ofFlag?
  path := arguments.find? (¬ IsFlag ·)

theorem mode_gathered_eq_none_iff :
    (gathered arguments).mode = none ↔ arguments.countP (IsMode ·) = 0 := by
  rw [gathered, List.findSome?_eq_none_iff, List.countP_eq_zero]
  exact forall₂_congr fun argument _ => by rw [ofFlag?_eq_none_iff, decide_eq_true_iff]

theorem path_gathered_eq_none_iff :
    (gathered arguments).path = none ↔ arguments.countP (¬ IsFlag ·) = 0 := by
  rw [gathered, List.find?_eq_none, List.countP_eq_zero]

theorem gathered_append_singleton : gathered (before ++ [argument]) =
    ⟨(gathered before).mode.or (Mode.ofFlag? argument),
      (gathered before).path.or (if IsFlag argument then none else some argument)⟩ := by
  simp only [gathered, List.findSome?_append, List.find?_append, List.findSome?_singleton,
    List.find?_singleton]
  split <;> simp_all

theorem Acceptable.nil : Acceptable [] :=
  ⟨Nat.zero_le 1, nofun, Nat.zero_le 1⟩

theorem Acceptable.of_prefix (h : Acceptable arguments) (hfront : before <+: arguments) :
    Acceptable before where
  modes := Nat.le_trans hfront.sublist.countP_le h.modes
  flags argument hargument := h.flags argument (hfront.subset hargument)
  paths := Nat.le_trans hfront.sublist.countP_le h.paths

/-- What is acceptable stays so with a first mode, and with a first path. -/
theorem acceptable_append_singleton_iff (h : Acceptable before) :
    Acceptable (before ++ [argument]) ↔
      IsMode argument ∧ (gathered before).mode = none ∨
        ¬ IsFlag argument ∧ (gathered before).path = none := by
  rw [mode_gathered_eq_none_iff, path_gathered_eq_none_iff]
  constructor
  · rintro ⟨hmodes, hflags, hpaths⟩
    rw [List.countP_append, List.countP_singleton] at hmodes hpaths
    by_cases hflag : IsFlag argument
    · have hmode := hflags argument List.mem_concat_self hflag
      rw [if_pos (decide_eq_true hmode)] at hmodes
      exact .inl ⟨hmode, by omega⟩
    · rw [if_pos (decide_eq_true hflag)] at hpaths
      exact .inr ⟨hflag, by omega⟩
  · intro hfirst
    have hmodes := h.modes
    have hpaths := h.paths
    obtain ⟨hmode, hnone⟩ | ⟨hflag, hnone⟩ := hfirst
    · refine ⟨?_, List.forall_mem_append.mpr ⟨h.flags, ?_⟩, ?_⟩
      · rw [List.countP_append, hnone, Nat.zero_add]
        exact List.countP_le_length
      · exact List.forall_mem_singleton.mpr fun _ => hmode
      · rw [List.countP_append, List.countP_singleton, if_neg (by simpa using hmode.isFlag)]
        exact hpaths
    · refine ⟨?_, List.forall_mem_append.mpr ⟨h.flags, ?_⟩, ?_⟩
      · have hmode : ¬ IsMode argument := fun hmode => hflag hmode.isFlag
        rw [List.countP_append, List.countP_singleton, if_neg (by simpa using hmode)]
        exact hmodes
      · exact List.forall_mem_singleton.mpr fun h => absurd h hflag
      · rw [List.countP_append, hnone, Nat.zero_add]
        exact List.countP_le_length

theorem add_gathered (h : Acceptable before) : (gathered before).add argument =
    if Acceptable (before ++ [argument]) then .ok (gathered (before ++ [argument]))
    else .error (refusal argument) := by
  simp only [acceptable_append_singleton_iff h, gathered_append_singleton]
  unfold add refusal
  by_cases hmode : IsMode argument
  · obtain ⟨mode, hflag⟩ := hmode.exists_ofFlag?
    rw [hflag]
    cases hbefore : (gathered before).mode with
    | none => simp [hmode, hmode.isFlag]
    | some => simp [hmode, hmode.isFlag]
  · rw [ofFlag?_eq_none_iff.mpr hmode, looksLikeFlag_eq_decide]
    by_cases hflag : IsFlag argument
    · simp [hmode, hflag]
    · cases hbefore : (gathered before).path with
      | none => simp [hmode, hflag]
      | some => simp [hmode, hflag]

/-! ### All arguments -/

theorem foldlM_add_of_acceptable (h : Acceptable arguments) :
    arguments.foldlM add empty = .ok (gathered arguments) := by
  induction arguments using List.reverseRecOn with
  | nil => rfl
  | append_singleton before argument ih =>
    have hbefore := h.of_prefix (List.prefix_append before [argument])
    rw [List.foldlM_append, ih hbefore]
    change (gathered before).add argument >>= pure = _
    rw [bind_pure, add_gathered hbefore, if_pos h]

theorem foldlM_add_of_refused {after : List String} (h : Acceptable before)
    (hrefused : ¬ Acceptable (before ++ [argument])) :
    (before ++ argument :: after).foldlM add empty = .error (refusal argument) := by
  rw [List.foldlM_append, foldlM_add_of_acceptable h]
  change ((gathered before).add argument >>= fun given => after.foldlM add given) = _
  rw [add_gathered h, if_neg hrefused]
  rfl

theorem exists_isRefusedAt (h : ¬ Acceptable arguments) : ∃ last, IsRefusedAt arguments last := by
  induction arguments using List.reverseRecOn with
  | nil => exact absurd .nil h
  | append_singleton before argument ih =>
    by_cases hbefore : Acceptable before
    · exact ⟨argument, before, [], rfl, fun _ => hbefore.of_prefix, h⟩
    · obtain ⟨last, front, after, rfl, hfront⟩ := ih hbefore
      exact ⟨last, front, after ++ [argument], by simp, hfront⟩

theorem Acceptable.perm {other : List String} (h : Acceptable arguments)
    (hperm : other.Perm arguments) : Acceptable other where
  modes := hperm.countP_eq _ ▸ h.modes
  flags argument hargument := h.flags argument (hperm.mem_iff.mp hargument)
  paths := hperm.countP_eq _ ▸ h.paths

end Arguments

/-- The configuration is what the arguments say. -/
structure Config.Says (config : Config) (arguments : List String) : Prop where
  lex : "--lex" ∈ arguments → config.mode = .lex
  parse : "--parse" ∈ arguments → config.mode = .parse
  eval : "--lex" ∉ arguments → "--parse" ∉ arguments → config.mode = .eval
  path : ∀ argument ∈ arguments, ¬ Arguments.IsFlag argument → config.path = some argument
  noPath : (∀ argument ∈ arguments, Arguments.IsFlag argument) → config.path = none

namespace Arguments

theorem eq_of_countP_le_one {p : String → Bool} (h : arguments.countP p ≤ 1) {a b : String}
    (ha : a ∈ arguments) (hb : b ∈ arguments) (hpa : p a = true) (hpb : p b = true) : a = b := by
  have ha' : a ∈ arguments.filter p := List.mem_filter.mpr ⟨ha, hpa⟩
  have hb' : b ∈ arguments.filter p := List.mem_filter.mpr ⟨hb, hpb⟩
  rw [List.countP_eq_length_filter] at h
  match hfilter : arguments.filter p with
  | [] => simp [hfilter] at ha'
  | [c] =>
    rw [hfilter, List.mem_singleton] at ha' hb'
    rw [ha', hb']
  | _ :: _ :: _ => simp [hfilter] at h

theorem Acceptable.mode_gathered (h : Acceptable arguments) (hargument : argument ∈ arguments)
    (hflag : Mode.ofFlag? argument = some mode) : (gathered arguments).mode = some mode := by
  cases hfirst : (gathered arguments).mode with
  | none =>
    have hnone := List.findSome?_eq_none_iff.mp hfirst argument hargument
    rw [hnone] at hflag
    cases hflag
  | some first =>
    -- what the mode was taken from is a mode too, and there is only one
    obtain ⟨other, hother, hotherFlag⟩ := List.exists_of_findSome?_eq_some hfirst
    have hsame : other = argument := eq_of_countP_le_one h.modes hother hargument
      (decide_eq_true (isMode_of_ofFlag? hotherFlag)) (decide_eq_true (isMode_of_ofFlag? hflag))
    rw [← hotherFlag, hsame, hflag]

theorem Acceptable.path_gathered (h : Acceptable arguments) (hargument : argument ∈ arguments)
    (hpath : ¬ IsFlag argument) : (gathered arguments).path = some argument := by
  cases hfirst : (gathered arguments).path with
  | none =>
    have hnone := List.find?_eq_none.mp hfirst argument hargument
    exact absurd (decide_eq_true hpath) hnone
  | some first =>
    have hfound : arguments.find? (¬ IsFlag ·) = some first := hfirst
    have hfree := List.find?_some hfound
    have hsame : first = argument := eq_of_countP_le_one h.paths (List.mem_of_find?_eq_some hfound)
      hargument hfree (decide_eq_true hpath)
    rw [hsame]

theorem Acceptable.says_gathered (h : Acceptable arguments) :
    (gathered arguments).config.Says arguments where
  lex hlex := congrArg (Option.getD · Mode.eval) (h.mode_gathered hlex rfl)
  parse hparse := congrArg (Option.getD · Mode.eval) (h.mode_gathered hparse rfl)
  eval hlex hparse := by
    have hnone : (gathered arguments).mode = none := by
      rw [mode_gathered_eq_none_iff, List.countP_eq_zero]
      intro argument hargument hmode
      obtain rfl | rfl := of_decide_eq_true hmode
      · exact hlex hargument
      · exact hparse hargument
    exact congrArg (Option.getD · Mode.eval) hnone
  path argument hargument hpath := h.path_gathered hargument hpath
  noPath hflags := by
    rw [config, path_gathered_eq_none_iff, List.countP_eq_zero]
    intro argument hargument hpath
    exact of_decide_eq_true hpath (hflags argument hargument)

end Arguments

namespace Config

open Arguments (Acceptable IsFlag IsRefusedAt refusal)

variable {config : Config} {error : ArgumentError}

theorem Says.perm {other : List String} (h : config.Says arguments)
    (hperm : other.Perm arguments) : config.Says other where
  lex hlex := h.lex (hperm.mem_iff.mp hlex)
  parse hparse := h.parse (hperm.mem_iff.mp hparse)
  eval hlex hparse := h.eval (hperm.mem_iff.not.mp hlex) (hperm.mem_iff.not.mp hparse)
  path argument hargument := h.path argument (hperm.mem_iff.mp hargument)
  noPath hflags := h.noPath fun argument hargument => hflags argument (hperm.mem_iff.mpr hargument)

theorem Says.unique {config' : Config} (h : config.Says arguments) (h' : config'.Says arguments) :
    config = config' := by
  have hmode : config.mode = config'.mode := by
    by_cases hlex : "--lex" ∈ arguments
    · exact (h.lex hlex).trans (h'.lex hlex).symm
    · by_cases hparse : "--parse" ∈ arguments
      · exact (h.parse hparse).trans (h'.parse hparse).symm
      · exact (h.eval hlex hparse).trans (h'.eval hlex hparse).symm
  have hpath : config.path = config'.path := by
    by_cases hflags : ∀ argument ∈ arguments, IsFlag argument
    · exact (h.noPath hflags).trans (h'.noPath hflags).symm
    · push Not at hflags
      obtain ⟨argument, hargument, hpath⟩ := hflags
      exact (h.path argument hargument hpath).trans (h'.path argument hargument hpath).symm
  cases config
  cases config'
  exact congr_arg₂ Config.mk hmode hpath

theorem ofArguments_of_acceptable (h : Acceptable arguments) :
    ofArguments arguments = .ok (Arguments.gathered arguments).config := by
  rw [ofArguments, Arguments.foldlM_add_of_acceptable h]
  rfl

theorem ofArguments_of_isRefusedAt {last : String} (h : IsRefusedAt arguments last) :
    ofArguments arguments = .error (refusal last) := by
  obtain ⟨before, after, rfl, hbefore, hrefused⟩ := h
  rw [ofArguments, Arguments.foldlM_add_of_refused (hbefore before List.prefix_rfl) hrefused]
  rfl

theorem ofArguments_eq_ok_iff :
    ofArguments arguments = .ok config ↔ Acceptable arguments ∧ config.Says arguments := by
  by_cases h : Acceptable arguments
  · rw [ofArguments_of_acceptable h, Except.ok.injEq]
    exact ⟨fun heq => ⟨h, heq ▸ h.says_gathered⟩, fun ⟨_, hsaid⟩ => h.says_gathered.unique hsaid⟩
  · obtain ⟨last, hlast⟩ := Arguments.exists_isRefusedAt h
    rw [ofArguments_of_isRefusedAt hlast]
    exact ⟨nofun, fun hsaid => absurd hsaid.1 h⟩

/-- Arguments are taken, in any order, if at most one of them is a mode, none is another flag and at
most one is a path. Otherwise the last argument of the shortest prefix that is not acceptable
decides the error. -/
theorem ofArguments_settled (arguments : List String) :
    ((∃ config, ofArguments arguments = .ok config) ↔ Acceptable arguments) ∧
    (∀ config, ofArguments arguments = .ok config → config.Says arguments ∧
      ∀ other : List String, other.Perm arguments → ofArguments other = .ok config) ∧
    ∀ error, ofArguments arguments = .error error ↔
      ∃ last, IsRefusedAt arguments last ∧ error = refusal last := by
  refine ⟨⟨?_, fun h => ⟨_, ofArguments_of_acceptable h⟩⟩, ?_, fun error => ⟨fun herror => ?_, ?_⟩⟩
  · rintro ⟨config, hconfig⟩
    exact (ofArguments_eq_ok_iff.mp hconfig).1
  · intro config hconfig
    obtain ⟨hacceptable, hsaid⟩ := ofArguments_eq_ok_iff.mp hconfig
    refine ⟨hsaid, fun other hperm => ?_⟩
    exact ofArguments_eq_ok_iff.mpr ⟨hacceptable.perm hperm, hsaid.perm hperm⟩
  · have hrefused : ¬ Acceptable arguments := fun h => by
      rw [ofArguments_of_acceptable h] at herror
      cases herror
    obtain ⟨last, hlast⟩ := Arguments.exists_isRefusedAt hrefused
    rw [ofArguments_of_isRefusedAt hlast] at herror
    exact ⟨last, hlast, (Except.error.inj herror).symm⟩
  · rintro ⟨last, hlast, rfl⟩
    exact ofArguments_of_isRefusedAt hlast

/-- The second of two modes is refused, whatever comes after it; one of them goes with a path that
comes before or after. -/
theorem ofArguments_settled_modes :
    ofArguments ["a.mk", "--lex", "--parse", "--eval"] = .error .conflictingModes ∧
      ∃ config, ofArguments ["--parse", "a.mk"] = .ok config ∧ config.mode = .parse ∧
        config.path = some "a.mk" := by
  constructor
  · have hbefore : Acceptable ["a.mk", "--lex"] := by decide +kernel
    refine ((ofArguments_settled _).2.2 _).mpr ⟨"--parse", ?_, by decide⟩
    exact ⟨["a.mk", "--lex"], ["--eval"], rfl, fun _ => hbefore.of_prefix, by decide +kernel⟩
  · have hacceptable : Acceptable ["a.mk", "--parse"] := by decide +kernel
    obtain ⟨config, hconfig⟩ := (ofArguments_settled _).1.mpr hacceptable
    obtain ⟨hsaid, hperm⟩ := (ofArguments_settled _).2.1 config hconfig
    refine ⟨config, hperm _ (List.Perm.swap _ _ _), hsaid.parse (by decide), ?_⟩
    exact hsaid.path "a.mk" (by decide) (by decide +kernel)

end Config

end LetScript.Shell
