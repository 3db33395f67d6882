import Mathlib
import StructuralDiff.Policy.Normalizer
import StructuralDiff.Proofs.GivenSettings
import StructuralDiff.Proofs.SettingLeaves

/-!
# Drafts that are written by calls

A draft is written by calls: each gives a flag a setting, by the flag itself or by a name that
spells it, or adds a normalizer. What a sequence of calls makes of a draft is told flag by flag
(`Draft.applyAll_calls`), so it does not matter how the calls for different flags are mixed.
Of a flag that is no list only the last setting counts, and of a list only the leaves: calls
that agree in these say the same (`Draft.Call.SayTheSame`), and lead to the same policy or to
the same fault (`Draft.build_of_calls`).
-/

namespace StructuralDiff

open CommandOption (isPathList)

namespace Flag

/-- A name spells a flag when it is the flag's name, with hyphens in the place of any of its
underscores. -/
def SpelledBy (flag : Flag) (name : String) : Prop :=
  List.Forall₂ (fun given known => given = known ∨ given = '-' ∧ known = '_')
    name.toList flag.name.toList

/-- Hyphens for underscores are undone by underscores for hyphens in a name without hyphens. -/
theorem respell {given known : List Char}
    (alike : List.Forall₂ (fun given known => given = known ∨ given = '-' ∧ known = '_') given known)
    (noHyphen : '-' ∉ known) :
    given.map (fun char => if char == '-' then '_' else char) = known := by
  induction alike with
  | nil => rfl
  | cons here _ ih =>
    rw [List.map_cons, ih (List.not_mem_of_not_mem_cons noHyphen)]
    rcases here with rfl | ⟨rfl, rfl⟩
    · have different := List.ne_of_not_mem_cons noHyphen
      rw [if_neg (by simpa using different.symm)]
    · rfl

/-- A name that spells a flag leads to the flag. -/
theorem ofName?_of_spelledBy {flag : Flag} {name : String} (spelled : flag.SpelledBy name) :
    ofName? name = some flag := by
  have noHyphen : '-' ∉ flag.name.toList := by
    cases flag <;> simp [Flag.name]
  rw [ofName?, respell spelled noHyphen, String.ofList_toList]
  cases flag <;> decide

/-- A flag that is no list keeps the last setting it is given. -/
theorem merge_congr {flag : Flag} (single : isPathList flag = false) (known : List Setting)
    {given others : List Setting} (last : given.getLast? = others.getLast?) :
    flag.merge known given = flag.merge known others := by
  unfold merge
  rw [last]
  simp only [single, Bool.false_eq_true, if_false]

/-- A list of paths goes on with the settings it is given. -/
theorem merge_of_list {flag : Flag} (list : isPathList flag = true)
    (known given : List Setting) : flag.merge known given = known ++ given := by
  rw [merge, if_pos list]

end Flag

namespace Draft

/-- A call that writes a draft: a flag is given a setting, by itself or by a name that spells
it, or a normalizer is added. -/
inductive Call where
  | set (flag : Flag) (setting : Setting)
  | setByName (flag : Flag) (name : String) (spelled : flag.SpelledBy name) (setting : Setting)
  | normalize (patterns : Setting) (normalizer : Normalizer)

namespace Call

/-- The step that a call takes. -/
def step : Call → Step
  | .set flag setting => .set flag setting
  | .setByName _ name _ setting => .setByName name setting
  | .normalize patterns normalizer => .normalize patterns normalizer

/-- The flag that a call gives a setting, with the setting. -/
def given? : Call → Option (Flag × Setting)
  | .set flag setting => some (flag, setting)
  | .setByName flag _ _ setting => some (flag, setting)
  | .normalize _ _ => none

/-- The normalizer that a call adds, if it adds one. -/
def registered : Call → List (Setting × Normalizer)
  | .normalize patterns normalizer => [(patterns, normalizer)]
  | _ => []

/-- The settings that calls give a flag. -/
def settingsFor (flag : Flag) (calls : List Call) : List Setting :=
  Draft.settingsFor flag (calls.filterMap given?)

/-- Two sequences of calls say the same: they give every flag that is no list the same setting
last, every list of paths the same leaves in order, and the same normalizers the same leaves in
order. -/
structure SayTheSame (first second : List Call) : Prop where
  last : ∀ flag, isPathList flag = false →
    (settingsFor flag first).getLast? = (settingsFor flag second).getLast?
  leaves : ∀ flag, isPathList flag = true →
    (settingsFor flag first).flatMap Setting.leaves =
      (settingsFor flag second).flatMap Setting.leaves
  normalizers : normalizerLeaves (first.flatMap registered) =
    normalizerLeaves (second.flatMap registered)

theorem settingsFor_cons (flag : Flag) (call : Call) (calls : List Call) :
    settingsFor flag (call :: calls) = settingsFor flag [call] ++ settingsFor flag calls := by
  rw [settingsFor, ← List.singleton_append, List.filterMap_append, Draft.settingsFor,
    List.filter_append, List.map_append]
  rfl

end Call

/-- A call is always taken. It gives its setting to its flag, and its normalizer comes last. -/
theorem apply_call (draft : Draft) (call : Call) : ∃ next, draft.apply call.step = .ok next ∧
    (∀ flag, next.settings flag =
      flag.merge (draft.settings flag) (Call.settingsFor flag [call])) ∧
    next.normalizers = draft.normalizers ++ call.registered := by
  have givenOne : ∀ (flag other : Flag) (setting : Setting),
      (draft.set flag setting).settings other =
        other.merge (draft.settings other) (settingsFor other [(flag, setting)]) := by
    intro flag other setting
    exact settings_setAll draft [(flag, setting)] other
  have kept : ∀ (flag : Flag) (setting : Setting),
      (draft.set flag setting).normalizers = draft.normalizers ++ [] := by
    intro flag setting
    rw [List.append_nil]
    exact normalizers_setAll draft [(flag, setting)]
  cases call with
  | set flag setting => exact ⟨_, rfl, fun other => givenOne flag other setting, kept _ _⟩
  | setByName flag name spelled setting =>
    refine ⟨draft.set flag setting, ?_, fun other => givenOne flag other setting, kept _ _⟩
    rw [Call.step, apply, setByName, Flag.ofName?_of_spelledBy spelled]
  | normalize patterns normalizer =>
    refine ⟨draft.normalize patterns normalizer, rfl, fun flag => ?_, rfl⟩
    have nothing : Call.settingsFor flag [.normalize patterns normalizer] = [] := rfl
    rw [nothing, Flag.merge_nil]
    cases flag <;> rfl

/-- Calls are always taken. They give every flag the settings that are for it, in order, and
their normalizers come last, in order. -/
theorem applyAll_calls (draft : Draft) (calls : List Call) :
    ∃ reached, draft.applyAll (calls.map Call.step) = .ok reached ∧
      (∀ flag, reached.settings flag =
        flag.merge (draft.settings flag) (Call.settingsFor flag calls)) ∧
      reached.normalizers = draft.normalizers ++ calls.flatMap Call.registered := by
  induction calls generalizing draft with
  | nil => exact ⟨draft, rfl, fun flag => (Flag.merge_nil flag _).symm, by simp⟩
  | cons call calls ih =>
    obtain ⟨next, taken, settings, normalizers⟩ := apply_call draft call
    obtain ⟨reached, takenAll, settingsAfter, normalizersAfter⟩ := ih next
    refine ⟨reached, ?_, fun flag => ?_, ?_⟩
    · rw [List.map_cons, applyAll, List.foldlM_cons, taken]
      exact takenAll
    · rw [settingsAfter, settings, Call.settingsFor_cons flag call calls, Flag.merge_append]
    · rw [normalizersAfter, normalizers, List.flatMap_cons, List.append_assoc]

/-- Of normalizers a policy has what their leaves come to. -/
theorem build_withNormalizers (draft : Draft) {given : List (Setting × Normalizer)}
    (same : unfoldNormalizers given = unfoldNormalizers draft.normalizers) :
    Draft.build { draft with normalizers := given } = draft.build := by
  unfold build
  rw [same]

/-- Two sequences of calls that say the same, made on the same draft, are both taken and lead
to the same policy or to the same fault. -/
theorem build_of_calls (start : Draft) {first second : List Call}
    (same : Call.SayTheSame first second) :
    ∃ draft other, start.applyAll (first.map Call.step) = .ok draft ∧
      start.applyAll (second.map Call.step) = .ok other ∧ draft.build = other.build := by
  obtain ⟨draft, taken, settings, normalizers⟩ := applyAll_calls start first
  obtain ⟨other, takenToo, settingsToo, normalizersToo⟩ := applyAll_calls start second
  have unfolded : unfoldNormalizers draft.normalizers = unfoldNormalizers other.normalizers := by
    rw [unfoldNormalizers_eq_mapM, unfoldNormalizers_eq_mapM, normalizers, normalizersToo,
      normalizerLeaves, normalizerLeaves, List.flatMap_append, List.flatMap_append]
    congr 2
    exact same.normalizers
  have alike : draft.SettlesAlike { other with normalizers := draft.normalizers } := by
    refine ⟨fun flag single => ?_, fun flag list => ?_, rfl⟩
    · have last : draft.settings flag = other.settings flag := by
        rw [settings, settingsToo]
        exact Flag.merge_congr single _ (same.last flag single)
      rw [last]
      cases flag <;> rfl
    · have leaves : Setting.patternsOfAll flag.name (draft.settings flag) =
          Setting.patternsOfAll flag.name (other.settings flag) := by
        apply Setting.patternsOfAll_congr
        rw [settings, settingsToo, Flag.merge_of_list list, Flag.merge_of_list list,
          List.flatMap_append, List.flatMap_append, same.leaves flag list]
      rw [leaves]
      cases flag <;> rfl
  refine ⟨draft, other, taken, takenToo, ?_⟩
  rw [alike.build_eq, build_withNormalizers other unfolded]

/-- Calls with lists of settings, some of them in vain. -/
def callsWithLists : List Call :=
  [.set .maxDiffs (.text "none"),
    .set .rejectPaths (.list [.text "/a", .list [.text "/b", .int 7]]),
    .normalize (.list [.text "/n", .text "/m"]) Normalizer.lowerCase,
    .setByName .failFast "fail-fast" (by simp [Flag.SpelledBy, Flag.name]) (.bool true),
    .setByName .maxDiffs "max-diffs" (by simp [Flag.SpelledBy, Flag.name]) (.text " +5 ")]

/-- Calls with one setting each, in another order. -/
def callsOneByOne : List Call :=
  [.setByName .rejectPaths "reject-paths" (by simp [Flag.SpelledBy, Flag.name]) (.text "/a"),
    .set .maxDiffs (.text " +5 "),
    .normalize (.text "/n") Normalizer.lowerCase,
    .set .rejectPaths (.list [.list [], .text "/b"]),
    .set .failFast (.bool true),
    .normalize (.text "/m") Normalizer.lowerCase,
    .setByName .rejectPaths "reject_paths" (by simp [Flag.SpelledBy, Flag.name]) (.int 7)]

/-- The draft that calls with one setting each write. -/
def draftOneByOne : Draft :=
  { empty with
    maxDiffs := some (.text " +5 ")
    failFast := some (.bool true)
    rejectPaths := [.text "/a", .list [.list [], .text "/b"], .int 7]
    normalizers := [(.text "/n", Normalizer.lowerCase), (.text "/m", Normalizer.lowerCase)] }

/-- Lists of paths and normalizers that are given at once or one by one, among the calls for
other flags, come to one policy. -/
theorem build_of_calls_oneByOne :
    Call.SayTheSame callsWithLists callsOneByOne ∧
    ∃ draft other policy, empty.applyAll (callsWithLists.map Call.step) = .ok draft ∧
      empty.applyAll (callsOneByOne.map Call.step) = .ok other ∧
      draft.build = .ok policy ∧ other.build = .ok policy ∧
      policy.maxDiffs = some 5 ∧ policy.rejectPaths.map Path.text = ["/a", "/b", "/7"] ∧
      policy.normalizers.map (fun entry => entry.1.text) = ["/n", "/m"] := by
  have same : Call.SayTheSame callsWithLists callsOneByOne := by
    refine ⟨fun flag single => ?_, fun flag list => ?_, rfl⟩
    · cases flag <;> first | rfl | cases single
    · cases flag <;> first | rfl | cases list
  have written : empty.applyAll (callsOneByOne.map Call.step) = .ok draftOneByOne := rfl
  have built : draftOneByOne.build = .ok { Policy.default with
      maxDiffs := some 5, failFast := true
      rejectPaths := [⟨[.plain "a"]⟩, ⟨[.plain "b"]⟩, ⟨[.plain "7"]⟩]
      normalizers := [(⟨[.plain "n"]⟩, Normalizer.lowerCase),
        (⟨[.plain "m"]⟩, Normalizer.lowerCase)] } := by
    cbv
  obtain ⟨draft, other, taken, takenToo, alike⟩ := build_of_calls empty same
  cases written.symm.trans takenToo
  exact ⟨same, draft, _, _, taken, takenToo, alike.trans built, built, rfl, rfl, rfl⟩

end Draft

end StructuralDiff
