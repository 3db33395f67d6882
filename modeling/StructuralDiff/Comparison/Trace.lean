import StructuralDiff.Comparison.Failure
import StructuralDiff.Difference

/-!
# Traces

What a comparison comes upon: differences in order, and at the end maybe a failure.
Nothing comes after a failure, so one trace follows another only if the first did
not fail.
-/

namespace StructuralDiff

/-- Differences in order, and the failure that ended them, if one did. -/
structure Trace where
  differences : List Difference
  failure : Option ComparisonError

namespace Trace

/-- Nothing comes up. -/
def clean : Trace := ⟨[], none⟩

/-- One difference comes up. -/
def found (difference : Difference) : Trace := ⟨[difference], none⟩

/-- The comparison fails at once. -/
def failed (error : ComparisonError) : Trace := ⟨[], some error⟩

/-- One trace and then another. -/
def append (first second : Trace) : Trace :=
  match first.failure with
  | some _ => first
  | none => ⟨first.differences ++ second.differences, second.failure⟩

instance : Append Trace := ⟨append⟩

/-- Traces one after another. -/
def sequence (traces : List Trace) : Trace :=
  traces.foldr append clean

/-- Without a failure, the differences of two traces follow each other. -/
theorem append_of_complete {first : Trace} (complete : first.failure = none) (second : Trace) :
    first ++ second = ⟨first.differences ++ second.differences, second.failure⟩ := by
  show append first second = _
  simp [append, complete]

/-- Nothing follows a failure. -/
theorem append_of_failed {first : Trace} {error : ComparisonError}
    (failed : first.failure = some error) (second : Trace) : first ++ second = first := by
  show append first second = _
  simp [append, failed]

@[simp] theorem clean_append (trace : Trace) : clean ++ trace = trace := rfl

@[simp] theorem append_clean (trace : Trace) : trace ++ clean = trace := by
  obtain ⟨differences, failure⟩ := trace
  show append _ _ = _
  cases failure <;> simp [append, clean]

/-- The order in which traces are put together does not matter. -/
theorem append_assoc (first second third : Trace) :
    first ++ second ++ third = first ++ (second ++ third) := by
  obtain ⟨firstDifferences, firstFailure⟩ := first
  obtain ⟨secondDifferences, secondFailure⟩ := second
  show append (append _ _) _ = append _ (append _ _)
  cases firstFailure <;> cases secondFailure <;> simp [append]

@[simp] theorem sequence_nil : sequence [] = clean := rfl

/-- A sequence is its first trace and then the others. -/
theorem sequence_cons (trace : Trace) (traces : List Trace) :
    sequence (trace :: traces) = trace ++ sequence traces := rfl

/-- Two traces after each other fail when one of them does. -/
theorem failure_append_eq_none_iff {first second : Trace} :
    (first ++ second).failure = none ↔ first.failure = none ∧ second.failure = none := by
  cases failure : first.failure with
  | none => simp [append_of_complete failure]
  | some error => simp [append_of_failed failure, failure]

/-- A sequence is complete when all of its traces are. -/
theorem failure_sequence_eq_none_iff {traces : List Trace} :
    (sequence traces).failure = none ↔ ∀ trace ∈ traces, trace.failure = none := by
  induction traces with
  | nil => simp [clean]
  | cons trace traces ih => simp [sequence_cons, failure_append_eq_none_iff, ih]

/-- The differences of complete traces follow each other. -/
theorem differences_sequence_of_complete {traces : List Trace}
    (complete : ∀ trace ∈ traces, trace.failure = none) :
    (sequence traces).differences = traces.flatMap differences := by
  induction traces with
  | nil => rfl
  | cons trace traces ih =>
    have head := complete trace List.mem_cons_self
    have tail := ih fun other member => complete other (List.mem_cons_of_mem _ member)
    rw [sequence_cons, append_of_complete head, List.flatMap_cons, tail]

/-- The differences of a sequence are differences of its traces, in their order, also when
one of them fails. -/
theorem differences_sequence_sublist (traces : List Trace) :
    (sequence traces).differences.Sublist (traces.flatMap differences) := by
  induction traces with
  | nil => exact List.Sublist.refl _
  | cons trace traces ih =>
    rw [sequence_cons, List.flatMap_cons]
    cases failure : trace.failure with
    | some error =>
      rw [append_of_failed failure]
      exact List.sublist_append_left _ _
    | none =>
      rw [append_of_complete failure]
      exact (List.Sublist.refl _).append ih

/-- What comes up in a sequence comes up in one of its traces. -/
theorem exists_of_mem_sequence {traces : List Trace} {difference : Difference}
    (member : difference ∈ (sequence traces).differences) :
    ∃ trace ∈ traces, difference ∈ trace.differences := by
  induction traces with
  | nil => cases member
  | cons trace traces ih =>
    rw [sequence_cons] at member
    cases failure : trace.failure with
    | some error =>
      rw [append_of_failed failure] at member
      exact ⟨trace, List.mem_cons_self, member⟩
    | none =>
      rw [append_of_complete failure] at member
      rcases List.mem_append.1 member with here | later
      · exact ⟨trace, List.mem_cons_self, here⟩
      · obtain ⟨other, known, held⟩ := ih later
        exact ⟨other, List.mem_cons_of_mem _ known, held⟩

end Trace

end StructuralDiff
