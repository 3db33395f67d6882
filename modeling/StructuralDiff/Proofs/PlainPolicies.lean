import StructuralDiff.Comparison.Recording

/-!
# Policies without filters and without rules of pairing

An unfiltered policy leaves nothing out. A positional policy pairs the entries of
objects by their keys as they are written and the items of arrays by position. Under
a positional policy the plan for two values is read off their shapes.
-/

namespace StructuralDiff

namespace Policy

/-- A policy leaves nothing out. -/
structure Unfiltered (policy : Policy) : Prop where
  maxDepth : policy.maxDepth = none
  selectPaths : policy.selectPaths = []
  rejectPaths : policy.rejectPaths = []

/-- A policy pairs by written keys and by position only. -/
structure Positional (policy : Policy) : Prop where
  matchByKey : policy.matchByKey = []
  matchByValue : policy.matchByValue = []
  indifferentKeys : policy.indifferentKeys = false

/-- What leaves nothing out leaves no path out. -/
theorem Unfiltered.excludes_eq_false {policy : Policy} (unfiltered : policy.Unfiltered)
    (path : Path) : policy.excludes path = false := by
  simp [excludes, Path.onOrUnder, unfiltered.maxDepth, unfiltered.selectPaths,
    unfiltered.rejectPaths]

/-- What only one side has is a difference where nothing is left out. -/
theorem Unfiltered.oneSided_eq_found {policy : Policy} (unfiltered : policy.Unfiltered)
    (kind : DifferenceKind) (path : Path) (reference candidate : Option Value) :
    Comparison.oneSided policy kind path reference candidate =
      .found ⟨kind, path.text, reference, candidate⟩ := by
  simp only [Comparison.oneSided, unfiltered.excludes_eq_false, Bool.false_eq_true, if_false]

/-- Items are paired by no key where there are no patterns for it. -/
theorem keyFor_of_noKeys {policy : Policy} (noKeys : policy.matchByKey = []) (path : Path) :
    policy.keyFor path = .ok none := by
  simp [keyFor, keyPatternsFor, keyPatterns, distinctPaths, noKeys]

/-- Two arrays are paired by position where there are no rules of pairing. -/
theorem plan_array_of_noRules {policy : Policy} (noKeys : policy.matchByKey = [])
    (noValues : policy.matchByValue = []) (path : Path) (references candidates : List Value) :
    Comparison.plan policy path (.array references) (.array candidates) =
      .descend (Pairing.byPosition references candidates) := by
  have noKey : policy.keyFor path = .ok none := keyFor_of_noKeys noKeys path
  have notByValue : policy.matchesByValue path = false := by simp [matchesByValue, noValues]
  simp [Comparison.plan, Pairing.ofItems, noKey, notByValue]

namespace Positional

variable {policy : Policy} (positional : policy.Positional) (path : Path)
include positional

/-- Two objects are paired by their keys. -/
theorem plan_object (references candidates : Entries Key Value) :
    Comparison.plan policy path (.object references) (.object candidates) =
      .descend (Pairing.ofEntries references candidates) := by
  simp [Comparison.plan, entries, positional.indifferentKeys]

/-- Two arrays are paired by position. -/
theorem plan_array (references candidates : List Value) :
    Comparison.plan policy path (.array references) (.array candidates) =
      .descend (Pairing.byPosition references candidates) :=
  plan_array_of_noRules positional.matchByKey positional.matchByValue path _ _

end Positional

end Policy

namespace Comparison

/-- Two scalars are compared as scalars, under any policy. -/
theorem plan_of_scalars (policy : Policy) (path : Path) {reference candidate : Value}
    (left : reference.isScalar) (right : candidate.isScalar) :
    plan policy path reference candidate = .compareScalars := by
  unfold plan
  split
  · cases left
  · cases left
  · simp [left, right]

/-- Values of different shapes differ as a whole, under any policy. -/
theorem plan_of_shape_ne (policy : Policy) (path : Path) {reference candidate : Value}
    (different : reference.shape ≠ candidate.shape) :
    plan policy path reference candidate = .differInShape := by
  cases reference <;> cases candidate <;> first | rfl | exact absurd rfl different

/-- Scalars are compared only where two scalars stand. -/
theorem isScalar_of_compareScalars {policy : Policy} {path : Path} {reference candidate : Value}
    (planned : plan policy path reference candidate = .compareScalars) :
    reference.isScalar ∧ candidate.isScalar := by
  unfold plan at planned
  split at planned
  · cases planned
  · split at planned <;> cases planned
  · split at planned
    · rename_i scalars
      exact Bool.and_eq_true_iff.1 scalars
    · cases planned

/-- Values differ as a whole only where they have different shapes. -/
theorem shape_ne_of_differInShape {policy : Policy} {path : Path} {reference candidate : Value}
    (planned : plan policy path reference candidate = .differInShape) :
    reference.shape ≠ candidate.shape := by
  cases reference, candidate using Value.casesPair with
  | objects references candidates => cases planned
  | arrays references candidates =>
    simp only [plan] at planned
    split at planned <;> cases planned
  | scalars left right scalar scalarToo =>
    rw [plan_of_scalars policy path scalar scalarToo] at planned
    cases planned
  | shapes left right different => exact different

end Comparison

end StructuralDiff
