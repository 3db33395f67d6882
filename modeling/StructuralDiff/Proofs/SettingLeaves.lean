import Mathlib
import StructuralDiff.Policy.Draft

/-!
# The leaves of settings

A list of settings may hold further lists. What it comes to as a list of patterns is told by
its leaves, the settings in it that are no lists, from left to right: each of them is read by
itself, and the first that cannot be read is the fault of the whole
(`Setting.patternsOfAll_eq_mapM`). The same goes for normalizers, whose patterns are settings
too (`Draft.unfoldNormalizers_eq_mapM`).
-/

namespace StructuralDiff

namespace Setting

mutual

/-- The settings in a setting that are no lists. -/
def leaves : Setting → List Setting
  | .list items => leavesOfAll items
  | .bool value => [.bool value]
  | .int value => [.int value]
  | .float value => [.float value]
  | .text value => [.text value]

/-- The leaves of settings, one after another. -/
def leavesOfAll : List Setting → List Setting
  | [] => []
  | item :: items => leaves item ++ leavesOfAll items

end

/-- The text that a leaf is read from as a pattern. Only texts and integers have one. -/
def patternText? : Setting → Option String
  | .text value => some value
  | .int value => some (Decimal.integerText value.toInt)
  | _ => none

/-- The pattern that a leaf stands for. -/
def readLeaf (flag : String) (leaf : Setting) : Except PolicyError Path :=
  match leaf.patternText? with
  | some written => readPattern flag written
  | none => .error (.illegalValue flag leaf)

theorem leavesOfAll_eq_flatMap (settings : List Setting) :
    leavesOfAll settings = settings.flatMap leaves := by
  induction settings with
  | nil => rfl
  | cons item items ih => rw [leavesOfAll, ih, List.flatMap_cons]

mutual

/-- A setting is read leaf by leaf. -/
theorem patterns_eq_mapM (flag : String) (setting : Setting) :
    patterns flag setting = setting.leaves.mapM (readLeaf flag) := by
  unfold patterns leaves
  cases setting with
  | list items => exact patternsOfAll_eq_mapM_leavesOfAll flag items
  | bool value => rfl
  | float value => rfl
  | text value =>
    simp only [readLeaf, patternText?, List.mapM_cons, List.mapM_nil]
    cases readPattern flag value <;> rfl
  | int value =>
    simp only [readLeaf, patternText?, List.mapM_cons, List.mapM_nil]
    cases readPattern flag (Decimal.integerText value.toInt) <;> rfl

theorem patternsOfAll_eq_mapM_leavesOfAll (flag : String) (settings : List Setting) :
    patternsOfAll flag settings = (leavesOfAll settings).mapM (readLeaf flag) := by
  unfold patternsOfAll leavesOfAll
  cases settings with
  | nil => rfl
  | cons item items =>
    simp only
    rw [patterns_eq_mapM, patternsOfAll_eq_mapM_leavesOfAll, List.mapM_append]

end

/-- Settings are read leaf by leaf. -/
theorem patternsOfAll_eq_mapM (flag : String) (settings : List Setting) :
    patternsOfAll flag settings = (settings.flatMap leaves).mapM (readLeaf flag) := by
  rw [patternsOfAll_eq_mapM_leavesOfAll, leavesOfAll_eq_flatMap]

/-- Settings with the same leaves are read alike. -/
theorem patternsOfAll_congr {flag : String} {settings others : List Setting}
    (same : settings.flatMap leaves = others.flatMap leaves) :
    patternsOfAll flag settings = patternsOfAll flag others := by
  rw [patternsOfAll_eq_mapM, patternsOfAll_eq_mapM, same]

/-- A list of settings has the patterns of its settings. -/
theorem patternsOfAll_list (flag : String) (settings others : List Setting) :
    patternsOfAll flag (.list settings :: others) = patternsOfAll flag (settings ++ others) := by
  apply patternsOfAll_congr
  rw [List.flatMap_cons, List.flatMap_append, leaves, leavesOfAll_eq_flatMap]

end Setting

namespace Draft

/-- The leaves of the patterns of normalizers, each with its normalizer. -/
def normalizerLeaves (given : List (Setting × Normalizer)) : List (Setting × Normalizer) :=
  given.flatMap fun entry => entry.1.leaves.map (·, entry.2)

/-- The leaf of a normalizer's patterns that is read, with the normalizer. -/
def readNormalizer (entry : Setting × Normalizer) : Except PolicyError (Path × Normalizer) :=
  (Setting.readLeaf "normalize_values" entry.1).map (·, entry.2)

/-- Leaves with one normalizer are read as the leaves are. -/
theorem mapM_readNormalizer (leaves : List Setting) (normalizer : Normalizer) :
    (leaves.map (·, normalizer)).mapM readNormalizer =
      (leaves.mapM (Setting.readLeaf "normalize_values")).map fun paths =>
        paths.map (·, normalizer) := by
  induction leaves with
  | nil => rfl
  | cons leaf leaves ih =>
    simp only [List.map_cons, List.mapM_cons, ih, readNormalizer]
    cases Setting.readLeaf "normalize_values" leaf with
    | error fault => rfl
    | ok path => cases leaves.mapM (Setting.readLeaf "normalize_values") <;> rfl

/-- Normalizers are read leaf by leaf. -/
theorem unfoldNormalizers_eq_mapM (given : List (Setting × Normalizer)) :
    unfoldNormalizers given = (normalizerLeaves given).mapM readNormalizer := by
  induction given with
  | nil => rfl
  | cons entry given ih =>
    obtain ⟨setting, normalizer⟩ := entry
    have parts : normalizerLeaves ((setting, normalizer) :: given) =
        setting.leaves.map (·, normalizer) ++ normalizerLeaves given := List.flatMap_cons
    rw [unfoldNormalizers, ih, parts, List.mapM_append, mapM_readNormalizer,
      Setting.patterns_eq_mapM]
    cases setting.leaves.mapM (Setting.readLeaf "normalize_values") <;> rfl

end Draft

end StructuralDiff
