import Mathlib
import StructuralDiff.CommandLine.Run

/-!
# Settings from a file and from a command line

What a draft becomes is told by the settings that each of its flags has
(`Draft.settings`). Whoever gives flags settings merges them with those that are there:
a flag with a list of paths keeps all of them in order, any other flag keeps the last
(`Flag.merge`). So the draft of a run has, for each flag, the setting of the policy file
merged with the values of the command line (`Arguments.settings_addTo`).
-/

namespace StructuralDiff

open CommandOption (isPathList)

namespace Flag

/-- Settings that a flag has and settings that it is given after them. -/
def merge (flag : Flag) (known given : List Setting) : List Setting :=
  if isPathList flag then known ++ given
  else match given.getLast? with
    | some last => [last]
    | none => known

@[simp] theorem merge_nil (flag : Flag) (known : List Setting) : flag.merge known [] = known := by
  simp [merge]

/-- Settings are merged one after another. -/
theorem merge_append (flag : Flag) (known first second : List Setting) :
    flag.merge known (first ++ second) = flag.merge (flag.merge known first) second := by
  unfold merge
  split
  · rw [List.append_assoc]
  · rw [List.getLast?_append]
    cases second.getLast? <;> rfl

/-- A flag that is no list of paths forgets what it had. -/
theorem merge_of_given {flag : Flag} (single : isPathList flag = false) {given : List Setting}
    (some : given ≠ []) (known other : List Setting) :
    flag.merge known given = flag.merge other given := by
  unfold merge
  rw [List.getLast?_eq_some_getLast some]
  simp [single]

end Flag

namespace Draft

/-- The settings that a flag has. -/
def settings (draft : Draft) : Flag → List Setting
  | .maxDiffs => draft.maxDiffs.toList
  | .failFast => draft.failFast.toList
  | .maxDepth => draft.maxDepth.toList
  | .selectPaths => draft.selectPaths
  | .rejectPaths => draft.rejectPaths
  | .matchByKey => draft.matchByKey
  | .matchByValue => draft.matchByValue
  | .indifferentKeys => draft.indifferentKeys.toList
  | .indifferentValues => draft.indifferentValues.toList

@[simp] theorem settings_empty (flag : Flag) : empty.settings flag = [] := by
  cases flag <;> rfl

/-- Giving a flag a setting changes this flag only. -/
theorem settings_set (draft : Draft) (flag other : Flag) (setting : Setting) :
    (draft.set flag setting).settings other =
      if flag = other then other.merge (draft.settings other) [setting]
      else draft.settings other := by
  cases flag <;> cases other <;> rfl

/-- Give flags settings in order. -/
def setAll (draft : Draft) (given : List (Flag × Setting)) : Draft :=
  given.foldl (fun draft entry => draft.set entry.1 entry.2) draft

/-- The settings among some that are for a flag. -/
def settingsFor (flag : Flag) (given : List (Flag × Setting)) : List Setting :=
  (given.filter fun entry => entry.1 = flag).map Prod.snd

/-- A flag that is given settings merges those that are for it. -/
theorem settings_setAll (draft : Draft) (given : List (Flag × Setting)) (flag : Flag) :
    (draft.setAll given).settings flag =
      flag.merge (draft.settings flag) (settingsFor flag given) := by
  induction given generalizing draft with
  | nil => simp [setAll, settingsFor]
  | cons entry given ih =>
    have onward : draft.setAll (entry :: given) = (draft.set entry.1 entry.2).setAll given := rfl
    rw [onward, ih, settings_set]
    by_cases same : entry.1 = flag
    · have first : settingsFor flag (entry :: given) = [entry.2] ++ settingsFor flag given := by
        simp [settingsFor, same]
      rw [if_pos same, first, Flag.merge_append]
    · have others : settingsFor flag (entry :: given) = settingsFor flag given := by
        simp [settingsFor, same]
      rw [if_neg same, others]

/-- Settings of flags leave the normalizers as they are. -/
theorem normalizers_setAll (draft : Draft) (given : List (Flag × Setting)) :
    (draft.setAll given).normalizers = draft.normalizers := by
  induction given generalizing draft with
  | nil => rfl
  | cons entry given ih =>
    have onward : draft.setAll (entry :: given) = (draft.set entry.1 entry.2).setAll given := rfl
    rw [onward, ih]
    cases entry.1 <;> rfl

/-- Two drafts have the same settings, of lists of paths only the same patterns. -/
structure SettlesAlike (left right : Draft) : Prop where
  single : ∀ flag, isPathList flag = false → left.settings flag = right.settings flag
  lists : ∀ flag, isPathList flag = true →
    Setting.patternsOfAll flag.name (left.settings flag) =
      Setting.patternsOfAll flag.name (right.settings flag)
  normalizers : left.normalizers = right.normalizers

/-- A list of one setting at most tells the setting. -/
theorem eq_of_toList_eq {first second : Option Setting} (same : first.toList = second.toList) :
    first = second := by
  cases first <;> cases second <;> simp_all

/-- A draft is told by the settings of its flags and by its normalizers. -/
theorem eq_of_settings {left right : Draft} (same : ∀ flag, left.settings flag = right.settings flag)
    (normalizers : left.normalizers = right.normalizers) : left = right := by
  cases left
  cases right
  simp only [mk.injEq]
  exact ⟨eq_of_toList_eq (same .maxDiffs), eq_of_toList_eq (same .failFast),
    eq_of_toList_eq (same .maxDepth), same .selectPaths, same .rejectPaths, same .matchByKey,
    same .matchByValue, eq_of_toList_eq (same .indifferentKeys),
    eq_of_toList_eq (same .indifferentValues), normalizers⟩

/-- Drafts with the same settings become the same policy, or have the same fault. -/
theorem SettlesAlike.build_eq {left right : Draft} (alike : left.SettlesAlike right) :
    left.build = right.build := by
  unfold build
  rw [eq_of_toList_eq (alike.single .maxDiffs rfl), eq_of_toList_eq (alike.single .maxDepth rfl),
    eq_of_toList_eq (alike.single .failFast rfl),
    eq_of_toList_eq (alike.single .indifferentKeys rfl),
    eq_of_toList_eq (alike.single .indifferentValues rfl), alike.normalizers]
  have select := alike.lists .selectPaths rfl
  have reject := alike.lists .rejectPaths rfl
  have byKey := alike.lists .matchByKey rfl
  have byValue := alike.lists .matchByValue rfl
  simp only [settings] at select reject byKey byValue
  rw [select, reject, byKey, byValue]

end Draft

namespace PolicyFile

/-- Look-ups of distinct flags give each flag its own setting. -/
theorem settingsFor_filterMap (look : Flag → Option Setting) (flag : Flag) {flags : List Flag}
    (distinct : flags.Nodup) :
    Draft.settingsFor flag (flags.filterMap fun other => (look other).map (other, ·)) =
      if flag ∈ flags then (look flag).toList else [] := by
  induction flags with
  | nil => rfl
  | cons first flags ih =>
    obtain ⟨notLater, distinct⟩ := List.nodup_cons.1 distinct
    have later := ih distinct
    rw [Draft.settingsFor] at later ⊢
    by_cases same : first = flag
    · subst same
      rw [if_neg notLater] at later
      cases found : look first <;> simp [found, later]
    · have different : flag ≠ first := Ne.symm same
      cases found : look first <;> simp [found, same, different, later]

/-- The settings of a file are given one flag after another. -/
theorem addTo_eq_setAll (file : PolicyFile) (draft : Draft) :
    file.addTo draft =
      draft.setAll (Flag.all.filterMap fun flag => (file.setting? flag).map (flag, ·)) := by
  unfold addTo Draft.setAll
  generalize Flag.all = flags
  induction flags generalizing draft with
  | nil => rfl
  | cons flag flags ih =>
    cases found : file.setting? flag with
    | none => simpa [found] using ih draft
    | some setting => simpa [found] using ih (draft.set flag setting)

/-- A file gives every flag the setting that it has for it. -/
theorem settings_addTo (file : PolicyFile) (draft : Draft) (flag : Flag) :
    (file.addTo draft).settings flag =
      flag.merge (draft.settings flag) (file.setting? flag).toList := by
  have distinct : Flag.all.Nodup := by decide
  have known : flag ∈ Flag.all := by cases flag <;> decide
  rw [addTo_eq_setAll, Draft.settings_setAll, settingsFor_filterMap file.setting? flag distinct,
    if_pos known]

end PolicyFile

namespace Arguments

/-- The setting that a value on the command line is. A switch is on. -/
def settingOf (flag : Flag) (value : String) : Setting :=
  if (CommandOption.flag flag).takesValue then .text value else .bool true

/-- The settings that a flag has on a command line. -/
def given (arguments : Arguments) (flag : Flag) : List Setting :=
  (arguments.values (.flag flag)).map (settingOf flag)

/-- What one option gives to a flag. -/
def settingOfOption? (entry : CommandOption × String) : Option (Flag × Setting) :=
  match entry.1 with
  | .flag flag => some (flag, settingOf flag entry.2)
  | _ => Option.none

/-- The options of a command line give their flags settings in order. -/
theorem addTo_eq_setAll (arguments : Arguments) (draft : Draft) :
    arguments.addTo draft = draft.setAll (arguments.options.filterMap settingOfOption?) := by
  unfold addTo Draft.setAll
  generalize arguments.options = options
  induction options generalizing draft with
  | nil => rfl
  | cons entry options ih =>
    rw [List.foldl_cons, ih]
    obtain ⟨option, value⟩ := entry
    cases option <;> rfl

/-- A command line gives every flag the settings of its values. -/
theorem settings_addTo (arguments : Arguments) (draft : Draft) (flag : Flag) :
    (arguments.addTo draft).settings flag =
      flag.merge (draft.settings flag) (arguments.given flag) := by
  have same : Draft.settingsFor flag (arguments.options.filterMap settingOfOption?) =
      arguments.given flag := by
    unfold given values
    generalize arguments.options = options
    induction options with
    | nil => rfl
    | cons entry options ih =>
      obtain ⟨option, value⟩ := entry
      rw [Draft.settingsFor] at ih ⊢
      cases option with
      | flag other =>
        by_cases same : other = flag
        · subst same
          simpa [settingOfOption?] using ih
        · simpa [settingOfOption?, same] using ih
      | _ =>
        rw [List.filterMap_cons_none rfl]
        simpa using ih
  rw [addTo_eq_setAll, Draft.settings_setAll, same]

/-- The settings that a flag has in a run: that of the file merged with those of the command
line. -/
def settings (arguments : Arguments) (file : PolicyFile) (flag : Flag) : List Setting :=
  flag.merge (file.setting? flag).toList (arguments.given flag)

/-- The draft of a run has the settings of the file and of the command line. -/
theorem settings_draft (arguments : Arguments) (file : PolicyFile) (flag : Flag) :
    (arguments.addTo (file.addTo .empty)).settings flag = arguments.settings file flag := by
  rw [settings_addTo, PolicyFile.settings_addTo, Draft.settings_empty, settings]
  congr 1
  cases file.setting? flag with
  | none => rw [Option.toList_none, Flag.merge_nil]
  | some setting => unfold Flag.merge; split <;> rfl

/-- Neither a file nor a command line has normalizers. -/
theorem normalizers_draft (arguments : Arguments) (file : PolicyFile) :
    (arguments.addTo (file.addTo .empty)).normalizers = [] := by
  rw [addTo_eq_setAll, PolicyFile.addTo_eq_setAll, Draft.normalizers_setAll,
    Draft.normalizers_setAll]
  rfl

/-- Command lines with the same settings have the same policy, or the same fault in it. -/
theorem policy_eq_of_settings {left right : Arguments} {file other : PolicyFile}
    (same : ∀ flag, left.settings file flag = right.settings other flag) :
    left.policy file = right.policy other := by
  have drafts : left.addTo (file.addTo .empty) = right.addTo (other.addTo .empty) := by
    refine Draft.eq_of_settings (fun flag => ?_) ?_
    · rw [settings_draft, settings_draft, same]
    · rw [normalizers_draft, normalizers_draft]
  rw [policy, policy, drafts]

/-- Two command lines with their files settle alike when their settings do. -/
theorem settlesAlike {left right : Arguments} {file other : PolicyFile}
    (single : ∀ flag, isPathList flag = false →
      left.settings file flag = right.settings other flag)
    (lists : ∀ flag, isPathList flag = true →
      Setting.patternsOfAll flag.name (left.settings file flag) =
        Setting.patternsOfAll flag.name (right.settings other flag)) :
    (left.addTo (file.addTo .empty)).SettlesAlike (right.addTo (other.addTo .empty)) where
  single flag isSingle := by
    rw [settings_draft, settings_draft]
    exact single flag isSingle
  lists flag isList := by
    rw [settings_draft, settings_draft]
    exact lists flag isList
  normalizers := by rw [normalizers_draft, normalizers_draft]

end Arguments

end StructuralDiff
