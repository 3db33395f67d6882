import Mathlib
import StructuralDiff.Policy.Normalizer
import StructuralDiff.Proofs.KeyResolution
import StructuralDiff.Proofs.NumberText
import StructuralDiff.Proofs.SettingLeaves

/-!
# Which drafts become policies

What has to be right about a draft is a list of checks (`Draft.checks`): the two counts, then
the leaves of every list of patterns from left to right, and between them that paths are not
both selected and rejected. A draft becomes a policy exactly when no check refuses, and
otherwise its fault is that of the first check that does (`Draft.build_ok_iff_legal`). Each
check is said in terms of what was written: `Setting.IsCount` and `Setting.Spells` say which
settings stand for a count and for a pattern. The policies that come of it are well formed
(`Policy.WellFormed`), and a comparison relies on that.
-/

namespace StructuralDiff

namespace Decimal

/-- Decimal digits, at least one. -/
def IsDigits (chars : List Char) : Prop :=
  chars ≠ [] ∧ ∀ char ∈ chars, char.isDigit = true

/-- Characters that denote an integer: decimal digits after a sign or none. -/
inductive Denotes : List Char → Int → Prop where
  | unsigned {digits} (decimal : IsDigits digits) : Denotes digits (Nat.ofDigitChars 10 digits 0)
  | plus {digits} (decimal : IsDigits digits) :
      Denotes ('+' :: digits) (Nat.ofDigitChars 10 digits 0)
  | minus {digits} (decimal : IsDigits digits) :
      Denotes ('-' :: digits) (-(Nat.ofDigitChars 10 digits 0 : Int))

theorem readNatural?_eq_some_iff {chars : List Char} {value : Nat} :
    readNatural? chars = some value ↔ IsDigits chars ∧ Nat.ofDigitChars 10 chars 0 = value := by
  have illegible : (chars.isEmpty || !chars.all Char.isDigit) = true ↔ ¬ IsDigits chars := by
    simp [IsDigits, or_iff_not_imp_left]
  rw [readNatural?]
  by_cases digits : IsDigits chars
  · rw [if_neg (by rwa [illegible, not_not]), Option.some.injEq]
    simp [digits]
  · rw [if_pos (illegible.2 digits)]
    simp [digits]

/-- The integer that characters are read as is the one that they denote. -/
theorem readInteger?_eq_some_iff {chars : List Char} {value : Int} :
    readInteger? chars = some value ↔ Denotes chars value := by
  have noSign : ∀ sign digits, IsDigits (sign :: digits) → sign.isDigit = true :=
    fun sign digits decimal => decimal.2 sign List.mem_cons_self
  have natural : ∀ (digits : List Char) (change : Int → Int),
      ((readNatural? digits).bind fun number => some (number : Int)).map change = some value ↔
        IsDigits digits ∧ change (Nat.ofDigitChars 10 digits 0) = value := by
    intro digits change
    simp only [Option.map_eq_some_iff, Option.bind_eq_some_iff, readNatural?_eq_some_iff,
      Option.some.injEq, and_assoc, exists_and_left, exists_eq_left']
  unfold readInteger?
  split
  · refine (natural _ _).trans ⟨?_, fun denoted => ?_⟩
    · rintro ⟨decimal, rfl⟩
      exact .plus decimal
    · cases denoted with
      | unsigned decimal => exact absurd (noSign _ _ decimal) (by decide)
      | plus decimal => exact ⟨decimal, rfl⟩
  · refine (natural _ _).trans ⟨?_, fun denoted => ?_⟩
    · rintro ⟨decimal, rfl⟩
      exact .minus decimal
    · cases denoted with
      | unsigned decimal => exact absurd (noSign _ _ decimal) (by decide)
      | minus decimal => exact ⟨decimal, rfl⟩
  · rename_i noPlus noMinus
    refine (natural _ _).trans ⟨?_, fun denoted => ?_⟩
    · rintro ⟨decimal, rfl⟩
      exact .unsigned decimal
    · cases denoted with
      | unsigned decimal => exact ⟨decimal, rfl⟩
      | plus decimal => exact absurd rfl (noPlus _)
      | minus decimal => exact absurd rfl (noMinus _)

end Decimal

namespace Setting

/-- A setting that stands for a count: a positive integer, or a text that between blanks
denotes a positive integer of the signed range. -/
inductive IsCount : Setting → Nat → Prop where
  | int {value : Int64} (positive : 0 < value.toInt) : IsCount (.int value) value.toInt.toNat
  | text {content : String} {value : Nat}
      (denoted : Decimal.Denotes (Text.trimChars content.toList) value) (positive : 0 < value)
      (signed : value < 2 ^ 63) : IsCount (.text content) value

/-- A leaf spells a pattern: it is a text or an integer, and its text is read as the pattern. -/
def Spells (leaf : Setting) (pattern : Path) : Prop :=
  ∃ text, leaf.patternText? = some text ∧ Path.read text = .ok pattern

theorem integer?_text_eq_some_iff {content : String} {value : Int} :
    integer? (.text content) = some value ↔
      Decimal.Denotes (Text.trimChars content.toList) value ∧ -2 ^ 63 ≤ value ∧ value < 2 ^ 63 := by
  rw [← Decimal.readInteger?_eq_some_iff, ← Number.isSigned_iff, integer?]
  cases Decimal.readInteger? (Text.trimChars content.toList) with
  | none => simp
  | some number => grind

/-- A setting is taken as the count that it stands for. -/
theorem count_eq_ok_iff {flag : String} {setting : Setting} {value : Nat} :
    count flag setting = .ok value ↔ setting.IsCount value := by
  have positive : count flag setting = .ok value ↔
      ∃ number, setting.integer? = some number ∧ 0 < number ∧ number.toNat = value := by
    rw [count]
    cases setting.integer? with
    | none => simp
    | some number => by_cases low : 0 < number <;> simp [low]
  rw [positive]
  constructor
  · rintro ⟨number, known, low, rfl⟩
    cases setting with
    | int given =>
      cases known
      exact .int low
    | text content =>
      obtain ⟨denoted, -, high⟩ := integer?_text_eq_some_iff.1 known
      have same : (number.toNat : Int) = number := Int.toNat_of_nonneg low.le
      exact .text (same ▸ denoted) (by omega) (by omega)
    | _ => cases known
  · intro counts
    cases counts with
    | int low => exact ⟨_, rfl, low, rfl⟩
    | text denoted low high =>
      exact ⟨value, integer?_text_eq_some_iff.2 ⟨denoted, by omega, by omega⟩, by omega, rfl⟩

/-- A count is refused with the setting. -/
theorem count_eq_error_iff {flag : String} {setting : Setting} {error : PolicyError} :
    count flag setting = .error error ↔
      (∀ value, ¬ setting.IsCount value) ∧ error = .illegalValue flag setting := by
  have refused : ∀ other, count flag setting = .error other → other = .illegalValue flag setting := by
    intro other failed
    unfold count at failed
    split at failed
    · split at failed
      · cases failed
      · exact (Except.error.inj failed).symm
    · exact (Except.error.inj failed).symm
  constructor
  · intro failed
    refine ⟨fun value counts => ?_, refused error failed⟩
    rw [count_eq_ok_iff.2 counts] at failed
    cases failed
  · rintro ⟨noCount, rfl⟩
    cases outcome : count flag setting with
    | ok value => exact absurd (count_eq_ok_iff.1 outcome) (noCount value)
    | error other => rw [refused other outcome]

/-- A leaf is read as the pattern that it spells. -/
theorem readLeaf_eq_ok_iff {flag : String} {leaf : Setting} {pattern : Path} :
    readLeaf flag leaf = .ok pattern ↔ leaf.Spells pattern := by
  rw [readLeaf, Spells]
  cases leaf.patternText? with
  | none => simp
  | some written =>
    simp only [readPattern, Option.some.injEq, exists_eq_left']
    cases Path.read written <;> simp

/-- A leaf without a text is refused as such, and one whose text is no path with its cause. -/
theorem readLeaf_eq_error_iff {flag : String} {leaf : Setting} {error : PolicyError} :
    readLeaf flag leaf = .error error ↔
      (leaf.patternText? = none ∧ error = .illegalValue flag leaf) ∨
      ∃ text cause, leaf.patternText? = some text ∧ Path.read text = .error cause ∧
        error = .invalidPattern flag cause := by
  rw [readLeaf]
  cases leaf.patternText? with
  | none => simp [eq_comm]
  | some written =>
    simp only [readPattern, Option.some.injEq, reduceCtorEq, false_and, false_or, exists_and_left,
      exists_eq_left']
    cases Path.read written with
    | ok pattern => simp
    | error cause => simp [eq_comm]

/-- Settings stand for some patterns exactly when they have some leaves. -/
theorem eq_nil_iff_of_patternsOfAll {flag : String} {settings : List Setting} {paths : List Path}
    (given : patternsOfAll flag settings = .ok paths) :
    paths = [] ↔ settings.flatMap leaves = [] := by
  rw [patternsOfAll_eq_mapM] at given
  cases leaves : settings.flatMap Setting.leaves with
  | nil =>
    rw [leaves] at given
    cases given
    simp
  | cons leaf others =>
    rw [leaves, List.mapM_cons] at given
    obtain ⟨first, -, given⟩ := Outcome.bind_eq_ok_iff.1 given
    obtain ⟨rest, -, given⟩ := Outcome.bind_eq_ok_iff.1 given
    cases Outcome.pure_eq_ok_iff.1 given
    simp

end Setting

namespace Policy

/-- Of paths without those whose written form came before, no two are written alike. -/
theorem pairwise_distinctPaths (paths : List Path) :
    (distinctPaths paths).Pairwise fun first second => first.text ≠ second.text := by
  have step : ∀ known : List Path,
      known.Pairwise (fun first second => first.text ≠ second.text) →
      (paths.foldl (fun known path =>
        if known.any path.sameText then known else known ++ [path]) known).Pairwise
          fun first second => first.text ≠ second.text := by
    induction paths with
    | nil => exact fun known apart => apart
    | cons path paths ih =>
      intro known apart
      rw [List.foldl_cons]
      apply ih
      by_cases repeated : known.any path.sameText = true
      · rwa [if_pos repeated]
      · rw [if_neg repeated, List.pairwise_append]
        refine ⟨apart, List.pairwise_singleton _ _, fun first member second last => ?_⟩
        rw [List.mem_singleton.1 last]
        intro same
        exact repeated (List.any_eq_true.2 ⟨first, member, by simp [Path.sameText, same]⟩)
  exact step [] List.Pairwise.nil

/-- What a comparison relies on in a policy: its counts are positive, it does not both select
and reject, and the key expressions that it lists are different paths below the root that each
end in a key. -/
structure WellFormed (policy : Policy) : Prop where
  cutoff : ∀ limit, policy.cutoff = some limit → 1 ≤ limit
  maxDepth : ∀ depth, policy.maxDepth = some depth → 1 ≤ depth
  oneFilter : policy.selectPaths = [] ∨ policy.rejectPaths = []
  belowRoot : ∀ pattern ∈ policy.keyPatterns, pattern.isRoot = false
  endInKeys : ∀ pattern ∈ policy.keyPatterns,
    ∃ key, pattern.lastSegment? = some (.keyExpression key)
  distinct : policy.keyPatterns.Pairwise fun first second => first.text ≠ second.text

end Policy

namespace Draft

/-- One thing that has to be right about a draft. -/
inductive Check where
  /-- The setting of a flag stands for a count. -/
  | count (flag : String) (setting : Setting)
  /-- A leaf in the setting of a flag stands for a pattern. -/
  | pattern (flag : String) (leaf : Setting)
  /-- Paths are not both selected and rejected. -/
  | oneFilter (selected rejected : List Setting)

/-- A check refuses what it checks, with an error. -/
inductive Check.Refuses : Check → PolicyError → Prop where
  | count {flag setting} (noCount : ∀ value, ¬ setting.IsCount value) :
      Refuses (.count flag setting) (.illegalValue flag setting)
  | kind {flag leaf} (noText : leaf.patternText? = none) :
      Refuses (.pattern flag leaf) (.illegalValue flag leaf)
  | path {flag leaf text cause} (written : leaf.patternText? = some text)
      (noPath : Path.read text = .error cause) :
      Refuses (.pattern flag leaf) (.invalidPattern flag cause)
  | filters {selected rejected} (selects : selected ≠ []) (rejects : rejected ≠ []) :
      Refuses (.oneFilter selected rejected) .conflict

/-- The checks of the leaves of some settings, from left to right. -/
def patternChecks (flag : String) (settings : List Setting) : List Check :=
  (settings.flatMap Setting.leaves).map (.pattern flag)

/-- All checks of a draft, in order. -/
def checks (draft : Draft) : List Check :=
  draft.maxDiffs.toList.map (.count Flag.maxDiffs.name) ++
  draft.maxDepth.toList.map (.count Flag.maxDepth.name) ++
  patternChecks Flag.selectPaths.name draft.selectPaths ++
  patternChecks Flag.rejectPaths.name draft.rejectPaths ++
  [.oneFilter (draft.selectPaths.flatMap Setting.leaves)
    (draft.rejectPaths.flatMap Setting.leaves)] ++
  patternChecks Flag.matchByKey.name draft.matchByKey ++
  patternChecks Flag.matchByValue.name draft.matchByValue ++
  patternChecks "normalize_values" (draft.normalizers.map Prod.fst)

/-- An error is that of the first check that refuses. -/
def FirstRefusal (draft : Draft) (error : PolicyError) : Prop :=
  ∃ before check after, draft.checks = before ++ check :: after ∧ check.Refuses error ∧
    ∀ earlier ∈ before, ∀ other, ¬ earlier.Refuses other

/-- Settings that stand for patterns, leaf by leaf. -/
def SpellPatterns (settings : List Setting) : Prop :=
  ∀ leaf ∈ settings.flatMap Setting.leaves, ∃ pattern, leaf.Spells pattern

/-- A draft with which everything is right. -/
structure Legal (draft : Draft) : Prop where
  maxDiffs : ∀ setting, draft.maxDiffs = some setting → ∃ value, setting.IsCount value
  maxDepth : ∀ setting, draft.maxDepth = some setting → ∃ value, setting.IsCount value
  selectPaths : SpellPatterns draft.selectPaths
  rejectPaths : SpellPatterns draft.rejectPaths
  oneFilter : draft.selectPaths.flatMap Setting.leaves = [] ∨
    draft.rejectPaths.flatMap Setting.leaves = []
  matchByKey : SpellPatterns draft.matchByKey
  matchByValue : SpellPatterns draft.matchByValue
  normalizers : SpellPatterns (draft.normalizers.map Prod.fst)

namespace Check

/-- What is checked is right. -/
def Holds : Check → Prop
  | .count _ setting => ∃ value, setting.IsCount value
  | .pattern _ leaf => ∃ pattern, leaf.Spells pattern
  | .oneFilter selected rejected => selected = [] ∨ rejected = []

/-- The error with which a check refuses, if it does. -/
def error? : Check → Option PolicyError
  | .count flag setting => Outcome.error? (setting.count flag)
  | .pattern flag leaf => Outcome.error? (leaf.readLeaf flag)
  | .oneFilter selected rejected =>
    if selected ≠ [] ∧ rejected ≠ [] then some .conflict else none

/-- A check refuses with the error of the step that it stands for. -/
theorem error?_eq_some_iff {check : Check} {error : PolicyError} :
    check.error? = some error ↔ check.Refuses error := by
  cases check with
  | count flag setting =>
    rw [error?, Outcome.error?_eq_some_iff, Setting.count_eq_error_iff]
    constructor
    · rintro ⟨noCount, rfl⟩
      exact .count noCount
    · rintro ⟨noCount⟩
      exact ⟨noCount, rfl⟩
  | pattern flag leaf =>
    rw [error?, Outcome.error?_eq_some_iff, Setting.readLeaf_eq_error_iff]
    constructor
    · rintro (⟨noText, rfl⟩ | ⟨text, cause, written, noPath, rfl⟩)
      · exact .kind noText
      · exact .path written noPath
    · rintro (_ | noText | ⟨written, noPath⟩)
      · exact .inl ⟨noText, rfl⟩
      · exact .inr ⟨_, _, written, noPath, rfl⟩
  | oneFilter selected rejected =>
    rw [error?, Option.ite_none_right_eq_some, Option.some.injEq]
    constructor
    · rintro ⟨⟨selects, rejects⟩, rfl⟩
      exact .filters selects rejects
    · intro refused
      cases refused with
      | filters selects rejects => exact ⟨⟨selects, rejects⟩, rfl⟩

/-- A check has no error exactly when what it checks is right. -/
theorem error?_eq_none_iff {check : Check} : check.error? = none ↔ check.Holds := by
  cases check with
  | count flag setting =>
    simp only [error?, Outcome.error?_eq_none_iff, Setting.count_eq_ok_iff, Holds]
  | pattern flag leaf =>
    simp only [error?, Outcome.error?_eq_none_iff, Setting.readLeaf_eq_ok_iff, Holds]
  | oneFilter selected rejected =>
    simp [error?, Holds, or_iff_not_imp_left]

/-- A check refuses exactly what is not right. -/
theorem holds_iff {check : Check} : check.Holds ↔ ∀ error, ¬ check.Refuses error := by
  simp only [← error?_eq_none_iff, Option.eq_none_iff_forall_ne_some, ne_eq, error?_eq_some_iff]

end Check

/-- The error of normalizers is that of their patterns. -/
theorem error?_unfoldNormalizers (given : List (Setting × Normalizer)) :
    Outcome.error? (unfoldNormalizers given) =
      Outcome.error? (Setting.patternsOfAll "normalize_values" (given.map Prod.fst)) := by
  have leaves : (given.map Prod.fst).flatMap Setting.leaves =
      (normalizerLeaves given).map Prod.fst := by
    simp [normalizerLeaves, List.map_flatMap, List.flatMap_map, Function.comp_def]
  have one : ∀ entry, Outcome.error? (readNormalizer entry) =
      Outcome.error? (Setting.readLeaf "normalize_values" entry.1) :=
    fun entry => Outcome.error?_map _ _
  rw [unfoldNormalizers_eq_mapM, Setting.patternsOfAll_eq_mapM, leaves, Outcome.error?_mapM,
    Outcome.error?_mapM, List.findSome?_map]
  simp only [one, Function.comp_def]

/-- The error of a count is that of its check. -/
theorem error?_count? (flag : Flag) (setting : Option Setting) :
    Outcome.error? (count? flag setting) =
      (setting.toList.map (Check.count flag.name)).findSome? Check.error? := by
  cases setting with
  | none => rfl
  | some setting =>
    rw [count?, Outcome.error?_map, Option.toList_some, List.map_singleton,
      List.findSome?_singleton]
    rfl

/-- The error of patterns is that of the first of their checks that has one. -/
theorem error?_patternsOfAll (flag : String) (settings : List Setting) :
    Outcome.error? (Setting.patternsOfAll flag settings) =
      (patternChecks flag settings).findSome? Check.error? := by
  rw [Setting.patternsOfAll_eq_mapM, Outcome.error?_mapM, patternChecks, List.findSome?_map]
  rfl

/-- Selected and rejected paths clash when there are leaves for both of them. -/
theorem clash_iff {selected rejected : List Setting} {selectPaths rejectPaths : List Path}
    (select : Setting.patternsOfAll Flag.selectPaths.name selected = .ok selectPaths)
    (reject : Setting.patternsOfAll Flag.rejectPaths.name rejected = .ok rejectPaths) :
    (!selectPaths.isEmpty && !rejectPaths.isEmpty) = true ↔
      selected.flatMap Setting.leaves ≠ [] ∧ rejected.flatMap Setting.leaves ≠ [] := by
  rw [ne_eq, ne_eq, ← Setting.eq_nil_iff_of_patternsOfAll select,
    ← Setting.eq_nil_iff_of_patternsOfAll reject]
  simp

/-- The error of a draft is that of the first of its checks that has one. -/
theorem error?_build (draft : Draft) :
    Outcome.error? draft.build = draft.checks.findSome? Check.error? := by
  simp only [checks, List.findSome?_append, Option.or_assoc, ← error?_count?,
    ← error?_patternsOfAll]
  rw [← error?_unfoldNormalizers]
  unfold build
  refine Outcome.error?_bind fun maxDiffs _ => Outcome.error?_bind fun maxDepth _ =>
    Outcome.error?_bind fun selectPaths select => Outcome.error?_bind fun rejectPaths reject => ?_
  -- the clash is found in the paths that were read, and checked in the leaves they were read from
  have clash := clash_iff select reject
  rw [List.findSome?_singleton, Check.error?]
  by_cases both : (!selectPaths.isEmpty && !rejectPaths.isEmpty) = true
  · rw [if_pos both, if_pos (clash.1 both)]
    rfl
  · rw [if_neg both, if_neg (mt clash.2 both), Option.none_or]
    refine Outcome.error?_bind fun matchByKey _ => Outcome.error?_bind fun matchByValue _ => ?_
    refine (Outcome.error?_bind fun normalizers _ => ?_).trans Option.or_none
    rfl

/-- Everything is right with a draft when it is with all that is checked. -/
theorem legal_iff {draft : Draft} : draft.Legal ↔ ∀ check ∈ draft.checks, check.Holds := by
  have counts : ∀ (flag : String) (setting : Option Setting),
      (∀ check ∈ setting.toList.map (Check.count flag), check.Holds) ↔
        ∀ given, setting = some given → ∃ value, given.IsCount value := by
    simp [Check.Holds]
  have patterns : ∀ (flag : String) (settings : List Setting),
      (∀ check ∈ patternChecks flag settings, check.Holds) ↔ SpellPatterns settings := by
    simp only [patternChecks, List.forall_mem_map, Check.Holds, SpellPatterns, implies_true]
  simp only [checks, List.forall_mem_append, List.forall_mem_singleton, counts, patterns,
    and_assoc]
  constructor
  · rintro ⟨maxDiffs, maxDepth, selectPaths, rejectPaths, oneFilter, matchByKey, matchByValue,
      normalizers⟩
    exact ⟨maxDiffs, maxDepth, selectPaths, rejectPaths, oneFilter, matchByKey, matchByValue,
      normalizers⟩
  · rintro ⟨maxDiffs, maxDepth, selectPaths, rejectPaths, oneFilter, matchByKey, matchByValue,
      normalizers⟩
    exact ⟨maxDiffs, maxDepth, selectPaths, rejectPaths, oneFilter, matchByKey, matchByValue,
      normalizers⟩

/-- A count is positive. -/
theorem one_le_of_count? {flag : Flag} {setting : Option Setting} {value : Nat}
    (counted : count? flag setting = .ok (some value)) : 1 ≤ value := by
  cases setting with
  | none => cases counted
  | some setting =>
    obtain ⟨number, known, same⟩ := Outcome.map_eq_ok_iff.1 counted
    cases same
    cases Setting.count_eq_ok_iff.1 known with
    | int low => omega
    | text _ low _ => exact low

/-- The policy of a draft is well formed. -/
theorem wellFormed_of_build {draft : Draft} {policy : Policy} (built : draft.build = .ok policy) :
    policy.WellFormed := by
  have settles := build_eq_ok_iff.1 built
  have ends : ∀ pattern ∈ policy.keyPatterns,
      ∃ key, pattern.lastSegment? = some (.keyExpression key) := by
    intro pattern member
    obtain ⟨whole, -, within⟩ := List.mem_flatMap.1 (Policy.mem_of_mem_distinctPaths member)
    exact (Path.mem_keyExpressions_iff.1 within).2
  refine
    { cutoff := fun limit cut => ?_
      maxDepth := fun depth deep => one_le_of_count? (settles.maxDepth.trans (by rw [deep]))
      oneFilter := settles.oneFilter
      belowRoot := fun pattern member => ?_
      endInKeys := ends
      distinct := Policy.pairwise_distinctPaths _ }
  · unfold Policy.cutoff at cut
    split at cut
    · cases cut
      exact Nat.le_refl 1
    · exact one_le_of_count? (settles.maxDiffs.trans (by rw [cut]))
  · obtain ⟨key, last⟩ := ends pattern member
    cases segments : pattern.segments with
    | nil => simp [Path.lastSegment?, segments] at last
    | cons segment others => simp [Path.isRoot, segments]

/-- A draft becomes a policy exactly when everything is right with it. Otherwise its fault is
that of the first check that refuses, and the policies that come of drafts are well formed. -/
theorem build_ok_iff_legal (draft : Draft) :
    ((∃ policy, draft.build = .ok policy) ↔ draft.Legal) ∧
    (∀ error, draft.build = .error error ↔ draft.FirstRefusal error) ∧
    ∀ policy, draft.build = .ok policy → policy.WellFormed := by
  refine ⟨?_, fun error => ?_, fun policy built => wellFormed_of_build built⟩
  · rw [← Outcome.error?_eq_none_iff, error?_build, List.findSome?_eq_none_iff, legal_iff]
    simp only [Check.error?_eq_none_iff]
  · rw [← Outcome.error?_eq_some_iff, error?_build, List.findSome?_eq_some_iff]
    simp only [Check.error?_eq_some_iff, Check.error?_eq_none_iff, Check.holds_iff, FirstRefusal]

/-- A draft with counts between blanks and at the end of the signed range, and with nested
lists of patterns. -/
def draftAtTheLimits : Draft :=
  { empty with
    maxDiffs := some (.text " +5 ")
    maxDepth := some (.text "9223372036854775807")
    rejectPaths := [.list [.list [], .int (-7)]]
    matchByKey := [.text "/a/:id/b/:name", .list [.text "/a/:id"]]
    normalizers := [(.list [.text "/n"], Normalizer.lowerCase)] }

/-- A draft with a count beyond the signed range, and with further faults behind it. -/
def draftBeyondTheLimits : Draft :=
  { draftAtTheLimits with
    maxDepth := some (.text "9223372036854775808")
    selectPaths := [.text "/a", .bool true] }

/-- The last count of the signed range makes a policy, and the next one is the fault of its
draft, whatever faults come after it. -/
theorem build_ok_iff_legal_atTheLimits :
    draftAtTheLimits.Legal ∧
    (∃ policy, draftAtTheLimits.build = .ok policy ∧ policy.WellFormed ∧
      policy.cutoff = some 5 ∧ policy.maxDepth = some (2 ^ 63 - 1) ∧
      policy.rejectPaths.map Path.text = ["/-7"] ∧
      policy.keyPatterns.map Path.text = ["/a/:id", "/a/:id/b/:name"]) ∧
    draftBeyondTheLimits.FirstRefusal
      (.illegalValue "max_depth" (.text "9223372036854775808")) := by
  have built : draftAtTheLimits.build = .ok { Policy.default with
      maxDiffs := some 5, maxDepth := some (2 ^ 63 - 1)
      rejectPaths := [⟨[.plain "-7"]⟩]
      matchByKey := [⟨[.plain "a", .keyExpression "id", .plain "b", .keyExpression "name"]⟩,
        ⟨[.plain "a", .keyExpression "id"]⟩]
      normalizers := [(⟨[.plain "n"]⟩, Normalizer.lowerCase)] } := by
    cbv
  have refused : draftBeyondTheLimits.build =
      .error (.illegalValue "max_depth" (.text "9223372036854775808")) := by
    cbv
  obtain ⟨legal, -, wellFormed⟩ := build_ok_iff_legal draftAtTheLimits
  obtain ⟨-, first, -⟩ := build_ok_iff_legal draftBeyondTheLimits
  refine ⟨legal.1 ⟨_, built⟩, ⟨_, built, wellFormed _ built, ?_, rfl, ?_, ?_⟩, (first _).1 refused⟩
  all_goals cbv

end Draft

end StructuralDiff
