import StructuralDiff.Policy.Basic
import StructuralDiff.Policy.Setting

/-!
# Drafts of a policy

A draft collects settings. A flag with one value keeps the last one given; a flag
with a list of paths keeps all of them, in order. The settings are checked once,
when the draft becomes a policy.
-/

namespace StructuralDiff

/-- The flags that can be set by name. -/
inductive Flag where
  | maxDiffs
  | failFast
  | maxDepth
  | selectPaths
  | rejectPaths
  | matchByKey
  | matchByValue
  | indifferentKeys
  | indifferentValues
deriving DecidableEq

namespace Flag

/-- All flags, in the order in which a file's settings are applied. -/
def all : List Flag :=
  [.maxDiffs, .failFast, .maxDepth, .selectPaths, .rejectPaths, .matchByKey, .matchByValue,
   .indifferentKeys, .indifferentValues]

/-- The name of a flag. -/
def name : Flag → String
  | .maxDiffs => "max_diffs"
  | .failFast => "fail_fast"
  | .maxDepth => "max_depth"
  | .selectPaths => "select_paths"
  | .rejectPaths => "reject_paths"
  | .matchByKey => "match_by_key"
  | .matchByValue => "match_by_value"
  | .indifferentKeys => "indifferent_keys"
  | .indifferentValues => "indifferent_values"

/-- The flag of a name, in which hyphens count as underscores. -/
def ofName? (given : String) : Option Flag :=
  let spelled := String.ofList (given.toList.map fun char => if char == '-' then '_' else char)
  all.find? fun flag => flag.name == spelled

end Flag

/-- The settings collected so far. -/
structure Draft where
  maxDiffs : Option Setting
  failFast : Option Setting
  maxDepth : Option Setting
  selectPaths : List Setting
  rejectPaths : List Setting
  matchByKey : List Setting
  matchByValue : List Setting
  indifferentKeys : Option Setting
  indifferentValues : Option Setting
  normalizers : List (Setting × Normalizer)

namespace Draft

/-- The draft without any setting. -/
def empty : Draft where
  maxDiffs := none
  failFast := none
  maxDepth := none
  selectPaths := []
  rejectPaths := []
  matchByKey := []
  matchByValue := []
  indifferentKeys := none
  indifferentValues := none
  normalizers := []

/-- Give a flag a setting. -/
def set (draft : Draft) (flag : Flag) (setting : Setting) : Draft :=
  match flag with
  | .maxDiffs => { draft with maxDiffs := some setting }
  | .failFast => { draft with failFast := some setting }
  | .maxDepth => { draft with maxDepth := some setting }
  | .selectPaths => { draft with selectPaths := draft.selectPaths ++ [setting] }
  | .rejectPaths => { draft with rejectPaths := draft.rejectPaths ++ [setting] }
  | .matchByKey => { draft with matchByKey := draft.matchByKey ++ [setting] }
  | .matchByValue => { draft with matchByValue := draft.matchByValue ++ [setting] }
  | .indifferentKeys => { draft with indifferentKeys := some setting }
  | .indifferentValues => { draft with indifferentValues := some setting }

/-- Give a flag a setting by its name. -/
def setByName (draft : Draft) (name : String) (setting : Setting) : Except PolicyError Draft :=
  match Flag.ofName? name with
  | some flag => .ok (draft.set flag setting)
  | none => .error (.unknownFlag name)

/-- Add a normalizer for the values at some paths. -/
def normalize (draft : Draft) (patterns : Setting) (normalizer : Normalizer) : Draft :=
  { draft with normalizers := draft.normalizers ++ [(patterns, normalizer)] }

/-- One step in writing a draft. -/
inductive Step where
  | set (flag : Flag) (setting : Setting)
  | setByName (name : String) (setting : Setting)
  | normalize (patterns : Setting) (normalizer : Normalizer)

/-- Take one step. -/
def apply (draft : Draft) : Step → Except PolicyError Draft
  | .set flag setting => .ok (draft.set flag setting)
  | .setByName name setting => draft.setByName name setting
  | .normalize patterns normalizer => .ok (draft.normalize patterns normalizer)

/-- Take steps in order, up to the first that fails. -/
def applyAll (draft : Draft) (steps : List Step) : Except PolicyError Draft :=
  steps.foldlM apply draft

/-- The count of a setting that may be absent. -/
def count? (flag : Flag) : Option Setting → Except PolicyError (Option Nat)
  | none => .ok none
  | some setting => (setting.count flag.name).map some

/-- A switch is on when it has a setting that turns it on. -/
def switch (setting : Option Setting) : Bool :=
  setting.any Setting.isOn

/-- Normalizers with each of their patterns on its own. -/
def unfoldNormalizers :
    List (Setting × Normalizer) → Except PolicyError (List (Path × Normalizer))
  | [] => .ok []
  | (setting, normalizer) :: rest => do
    let paths ← setting.patterns "normalize_values"
    let others ← unfoldNormalizers rest
    return paths.map (·, normalizer) ++ others

/-- The policy of a draft, or the first fault: the counts are checked first, then
each list of patterns, and between them that paths are not both selected and
rejected. -/
def build (draft : Draft) : Except PolicyError Policy := do
  let maxDiffs ← count? .maxDiffs draft.maxDiffs
  let maxDepth ← count? .maxDepth draft.maxDepth
  let selectPaths ← Setting.patternsOfAll Flag.selectPaths.name draft.selectPaths
  let rejectPaths ← Setting.patternsOfAll Flag.rejectPaths.name draft.rejectPaths
  if !selectPaths.isEmpty && !rejectPaths.isEmpty then
    throw .conflict
  let matchByKey ← Setting.patternsOfAll Flag.matchByKey.name draft.matchByKey
  let matchByValue ← Setting.patternsOfAll Flag.matchByValue.name draft.matchByValue
  let normalizers ← unfoldNormalizers draft.normalizers
  return {
    maxDiffs := maxDiffs
    failFast := switch draft.failFast
    maxDepth := maxDepth
    selectPaths := selectPaths
    rejectPaths := rejectPaths
    matchByKey := matchByKey
    matchByValue := matchByValue
    indifferentKeys := switch draft.indifferentKeys
    indifferentValues := switch draft.indifferentValues
    normalizers := normalizers }

/-- A policy has the terms that the settings of a draft stand for. -/
structure Settles (draft : Draft) (policy : Policy) : Prop where
  maxDiffs : count? .maxDiffs draft.maxDiffs = .ok policy.maxDiffs
  failFast : switch draft.failFast = policy.failFast
  maxDepth : count? .maxDepth draft.maxDepth = .ok policy.maxDepth
  selectPaths :
    Setting.patternsOfAll Flag.selectPaths.name draft.selectPaths = .ok policy.selectPaths
  rejectPaths :
    Setting.patternsOfAll Flag.rejectPaths.name draft.rejectPaths = .ok policy.rejectPaths
  oneFilter : policy.selectPaths = [] ∨ policy.rejectPaths = []
  matchByKey : Setting.patternsOfAll Flag.matchByKey.name draft.matchByKey = .ok policy.matchByKey
  matchByValue :
    Setting.patternsOfAll Flag.matchByValue.name draft.matchByValue = .ok policy.matchByValue
  indifferentKeys : switch draft.indifferentKeys = policy.indifferentKeys
  indifferentValues : switch draft.indifferentValues = policy.indifferentValues
  normalizers : unfoldNormalizers draft.normalizers = .ok policy.normalizers

/-- A draft becomes a policy exactly when the policy has the terms of its settings. -/
theorem build_eq_ok_iff {draft : Draft} {policy : Policy} :
    draft.build = .ok policy ↔ draft.Settles policy := by
  unfold build
  constructor
  · intro built
    obtain ⟨maxDiffs, diffs, built⟩ := Outcome.bind_eq_ok_iff.1 built
    obtain ⟨maxDepth, depth, built⟩ := Outcome.bind_eq_ok_iff.1 built
    obtain ⟨selectPaths, select, built⟩ := Outcome.bind_eq_ok_iff.1 built
    obtain ⟨rejectPaths, reject, built⟩ := Outcome.bind_eq_ok_iff.1 built
    dsimp only at built
    split at built
    · cases built
    · rename_i oneFilter
      obtain ⟨matchByKey, byKey, built⟩ := Outcome.bind_eq_ok_iff.1 built
      obtain ⟨matchByValue, byValue, built⟩ := Outcome.bind_eq_ok_iff.1 built
      obtain ⟨normalizers, normalized, built⟩ := Outcome.bind_eq_ok_iff.1 built
      cases Outcome.pure_eq_ok_iff.1 built
      refine ⟨diffs, rfl, depth, select, reject, ?_, byKey, byValue, rfl, rfl, normalized⟩
      cases selectPaths with
      | nil => exact .inl rfl
      | cons path paths => exact .inr (by simpa using oneFilter)
  · intro settles
    have oneFilter : (!policy.selectPaths.isEmpty && !policy.rejectPaths.isEmpty) = false := by
      rcases settles.oneFilter with none | none <;> simp [none]
    simp only [settles.maxDiffs, settles.maxDepth, settles.selectPaths, settles.rejectPaths,
      settles.matchByKey, settles.matchByValue, settles.normalizers, settles.failFast,
      settles.indifferentKeys, settles.indifferentValues]
    show (if (!policy.selectPaths.isEmpty && !policy.rejectPaths.isEmpty) = true then _ else _) = _
    rw [oneFilter]
    rfl

end Draft

end StructuralDiff
