import StructuralDiff.Comparison.Recording

/-!
# Policies that compare alike

What two policies have in common decides in what their comparisons agree. Policies
that pair alike have the same plan for every two values, and policies that also
prepare scalars alike and leave out the same paths have the same walk. The limit on
what is recorded plays no part in either.
-/

namespace StructuralDiff

namespace Policy

/-- Two policies pair the contents of containers by the same rules. -/
structure PairsAlike (left right : Policy) : Prop where
  matchByKey : left.matchByKey = right.matchByKey
  matchByValue : left.matchByValue = right.matchByValue
  indifferentKeys : left.indifferentKeys = right.indifferentKeys
  indifferentValues : left.indifferentValues = right.indifferentValues

/-- Two policies also do the same to scalars before they are compared, so that they
differ at most in what they leave out and in how much they record. -/
structure ComparesAlike (left right : Policy) : Prop extends PairsAlike left right where
  normalizers : left.normalizers = right.normalizers

namespace PairsAlike

variable {left right : Policy} (alike : left.PairsAlike right)
include alike

theorem entries_eq : left.entries = right.entries := by
  funext entries
  simp only [Policy.entries, alike.indifferentKeys]

theorem lookUp_eq : left.lookUp = right.lookUp := by
  funext entries key
  simp only [lookUp, alike.indifferentKeys]

theorem identity_eq : left.identity = right.identity := by
  funext value
  simp only [identity, alike.indifferentValues]

theorem scalarsEqual_eq : left.scalarsEqual = right.scalarsEqual := by
  funext first second
  simp only [scalarsEqual, alike.indifferentValues]

theorem keyFor_eq : left.keyFor = right.keyFor := by
  funext path
  simp only [keyFor, keyPatternsFor, keyPatterns, alike.matchByKey]

theorem matchesByValue_eq : left.matchesByValue = right.matchesByValue := by
  funext path
  simp only [matchesByValue, alike.matchByValue]

theorem indexFrom_eq (side : Side) (path : Path) (key : String) (known : List Pairing.Keyed)
    (position : Nat) (items : List Value) :
    Pairing.indexFrom left side path key known position items =
      Pairing.indexFrom right side path key known position items := by
  induction items generalizing known position with
  | nil => rfl
  | cons item items ih => simp only [Pairing.indexFrom, alike.lookUp_eq, alike.identity_eq, ih]

theorem claim?_eq (value : Value) (candidates : Pairing.Positioned) :
    Pairing.claim? left value candidates = Pairing.claim? right value candidates := by
  induction candidates with
  | nil => rfl
  | cons candidate candidates ih => simp only [Pairing.claim?, alike.scalarsEqual_eq, ih]

theorem unclaimed_eq (references candidates : Pairing.Positioned) :
    Pairing.unclaimed left references candidates = Pairing.unclaimed right references candidates := by
  induction references generalizing candidates with
  | nil => rfl
  | cons reference references ih => simp only [Pairing.unclaimed, alike.claim?_eq, ih]

/-- The items of two arrays are paired alike. -/
theorem ofItems_eq (path : Path) (reference candidate : List Value) :
    Pairing.ofItems left path reference candidate =
      Pairing.ofItems right path reference candidate := by
  simp only [Pairing.ofItems, Pairing.byKey, Pairing.byValue, Pairing.index, alike.keyFor_eq,
    alike.matchesByValue_eq, alike.indexFrom_eq, alike.unclaimed_eq]

/-- The plan for two values depends on the rules of pairing only. -/
theorem plan_eq (path : Path) (reference candidate : Value) :
    Comparison.plan left path reference candidate =
      Comparison.plan right path reference candidate := by
  simp only [Comparison.plan, alike.entries_eq, alike.ofItems_eq]

end PairsAlike

namespace ComparesAlike

variable {left right : Policy} (alike : left.ComparesAlike right)
include alike

theorem prepared_eq (path : Path) (value : Value) :
    Comparison.prepared left path value = Comparison.prepared right path value := by
  simp only [Comparison.prepared, normalizerFor, alike.indifferentValues, alike.normalizers]

/-- Scalars that stand at the same path compare alike. -/
theorem compareScalars_eq (path : Path) (reference candidate : Value) :
    Comparison.compareScalars left path reference candidate =
      Comparison.compareScalars right path reference candidate := by
  simp only [Comparison.compareScalars, alike.prepared_eq]

/-- Policies that compare alike and leave out the same paths have the same walk. -/
theorem walk_eq (leftOut : left.excludes = right.excludes) (path : Path)
    (reference candidate : Value) :
    Comparison.walk left path reference candidate =
      Comparison.walk right path reference candidate := by
  induction path, reference, candidate using Comparison.walk_induction left with
  | visited path reference candidate ih =>
    rw [Comparison.walk_eq, Comparison.walk_eq, leftOut, ← alike.plan_eq, ← alike.compareScalars_eq]
    split
    · rfl
    · split <;> rename_i planned
      · rfl
      · rfl
      · rfl
      · congr 1
        refine List.map_congr_left fun pairing member => ?_
        cases pairing with
        | missing step value => simp only [Comparison.visit, Comparison.oneSided, leftOut]
        | extra step value => simp only [Comparison.visit, Comparison.oneSided, leftOut]
        | both step first second =>
          simp only [Comparison.visit, Comparison.below]
          cases joined : path.join step with
          | error cause => rfl
          | ok child => exact ih planned member joined

end ComparesAlike

end Policy

end StructuralDiff
