import StructuralDiff.Comparison.Pairing
import StructuralDiff.Comparison.Trace

/-!
# The comparison of two documents

Two values of different shapes differ as a whole; two scalars are compared by value;
two containers are paired and their pairs compared one after another. Values that
the policy leaves out come up nowhere. The walk ends because it descends in the
reference. It knows no limit: how much of what comes up is recorded is not decided
here.
-/

namespace StructuralDiff

/-- What is done with two values at a path. -/
inductive Plan where
  /-- Compare what the two containers hold. -/
  | descend (pairings : List Pairing)
  | compareScalars
  /-- The values have different shapes. -/
  | differInShape
  | fail (error : ComparisonError)

namespace Comparison

/-- What is done with two values at a path, by their shapes. -/
def plan (policy : Policy) (path : Path) (reference candidate : Value) : Plan :=
  match reference, candidate with
  | .object references, .object candidates =>
    .descend (Pairing.ofEntries (policy.entries references) (policy.entries candidates))
  | .array references, .array candidates =>
    match Pairing.ofItems policy path references candidates with
    | .ok pairings => .descend pairings
    | .error error => .fail error
  | _, _ => if reference.isScalar && candidate.isScalar then .compareScalars else .differInShape

/-- A scalar as it enters the comparison at a path: its text when texts are compared,
and then what the normalizer for the path makes of it. -/
def prepared (policy : Policy) (path : Path) (value : Value) : Value :=
  let value := if policy.indifferentValues then value.canonicalScalar else value
  match policy.normalizerFor path with
  | some normalizer => normalizer value
  | none => value

/-- The comparison of two scalars. A difference shows them as they are in the
documents. -/
def compareScalars (policy : Policy) (path : Path) (reference candidate : Value) : Trace :=
  if (prepared policy path reference).equal (prepared policy path candidate) then .clean
  else .found ⟨.mismatch, path.text, some reference, some candidate⟩

/-- A value that only one side has, unless it is left out. -/
def oneSided (policy : Policy) (kind : DifferenceKind) (path : Path)
    (reference candidate : Option Value) : Trace :=
  if policy.excludes path then .clean else .found ⟨kind, path.text, reference, candidate⟩

/-- What comes up one step below a path. A step that is no segment is a failure. -/
def below (path : Path) (step : String) (trace : Path → Trace) : Trace :=
  match path.join step with
  | .ok child => trace child
  | .error cause => .failed (.invalidStep cause)

/-- Pairings hold values from inside the two values. -/
theorem within_of_plan {policy : Policy} {path : Path} {reference candidate : Value}
    {pairings : List Pairing} (planned : plan policy path reference candidate = .descend pairings)
    {pairing : Pairing} (member : pairing ∈ pairings) :
    pairing.Within reference.parts candidate.parts := by
  have inEntries : ∀ (entries : Entries Key Value), ∀ value ∈ (policy.entries entries).map Prod.snd,
      value ∈ (Value.object entries).parts := by
    intro entries value known
    obtain ⟨entry, compared, rfl⟩ := List.mem_map.1 known
    obtain ⟨other, held, -, same⟩ := Policy.of_mem_entries compared
    exact List.mem_map.2 ⟨other, held, same⟩
  unfold plan at planned
  split at planned
  · rename_i references candidates
    cases planned
    have within := Pairing.within_of_mem_ofEntries member
    cases pairing with
    | missing step value => exact inEntries references value within
    | both step left right =>
      exact ⟨inEntries references left within.1, inEntries candidates right within.2⟩
    | extra step value => exact inEntries candidates value within
  · split at planned
    · rename_i paired
      cases planned
      exact Pairing.within_of_mem_ofItems paired member
    · cases planned
  · split at planned <;> cases planned

/-- Pairs come from inside the reference, so that the walk ends. -/
theorem sizeOf_lt_of_plan {policy : Policy} {path : Path} {reference candidate left right : Value}
    {pairings : List Pairing} {step : String}
    (planned : plan policy path reference candidate = .descend pairings)
    (member : .both step left right ∈ pairings) : sizeOf left < sizeOf reference :=
  Value.sizeOf_lt_of_mem_parts (within_of_plan planned member).1

/-- What comes up when two values at a path are compared. -/
def walk (policy : Policy) (path : Path) (reference candidate : Value) : Trace :=
  if policy.excludes path then .clean
  else
    match _planned : plan policy path reference candidate with
    | .fail error => .failed error
    | .differInShape => .found ⟨.typeMismatch, path.text, some reference, some candidate⟩
    | .compareScalars => compareScalars policy path reference candidate
    | .descend pairings =>
      Trace.sequence (pairings.attach.map fun
        | ⟨.missing step value, _⟩ =>
          below path step fun child => oneSided policy .missing child (some value) none
        | ⟨.both step left right, _⟩ => below path step fun child => walk policy child left right
        | ⟨.extra step value, _⟩ =>
          below path step fun child => oneSided policy .extra child none (some value))
termination_by sizeOf reference
decreasing_by exact sizeOf_lt_of_plan _planned ‹_›

/-- What comes up below a path for one pairing. -/
def visit (policy : Policy) (path : Path) : Pairing → Trace
  | .missing step value =>
    below path step fun child => oneSided policy .missing child (some value) none
  | .both step left right => below path step fun child => walk policy child left right
  | .extra step value =>
    below path step fun child => oneSided policy .extra child none (some value)

/-- The walk in one step: what is left out comes up nowhere, and of two containers
the pairings are visited in order. -/
theorem walk_eq (policy : Policy) (path : Path) (reference candidate : Value) :
    walk policy path reference candidate =
      if policy.excludes path then .clean
      else match plan policy path reference candidate with
        | .fail error => .failed error
        | .differInShape => .found ⟨.typeMismatch, path.text, some reference, some candidate⟩
        | .compareScalars => compareScalars policy path reference candidate
        | .descend pairings => Trace.sequence (pairings.map (visit policy path)) := by
  rw [walk]
  split
  · rfl
  · split <;> rename_i planned <;> simp only [planned]
    rename_i pairings
    conv => rhs; rw [← List.attach_map_subtype_val pairings, List.map_map]
    congr 2
    funext ⟨pairing, _⟩
    cases pairing <;> rfl

/-- Induction along the walk: what holds of two values as soon as it holds of every
pair that they are compared through holds of all values. -/
@[elab_as_elim]
theorem walk_induction {motive : Path → Value → Value → Prop} (policy : Policy)
    (visited : ∀ path reference candidate,
      (∀ {pairings step left right child},
        plan policy path reference candidate = .descend pairings →
        .both step left right ∈ pairings → path.join step = .ok child → motive child left right) →
      motive path reference candidate)
    (path : Path) (reference candidate : Value) : motive path reference candidate := by
  induction size : sizeOf reference using Nat.strongRecOn generalizing path reference candidate with
  | ind _ ih =>
    subst size
    refine visited path reference candidate fun planned member joined => ?_
    exact ih _ (sizeOf_lt_of_plan planned member) _ _ _ rfl

section Steps

variable {policy : Policy} {path child : Path} {step : String}
  {reference candidate left right : Value} {pairings : List Pairing}

/-- What only the reference has comes up where the step leads. -/
theorem visit_missing (joined : path.join (Pairing.missing step left).step = .ok child) :
    visit policy path (.missing step left) = oneSided policy .missing child (some left) none := by
  have joined : path.join step = .ok child := joined
  simp only [visit, below, joined]

/-- Two values are compared where the step leads. -/
theorem visit_both (joined : path.join (Pairing.both step left right).step = .ok child) :
    visit policy path (.both step left right) = walk policy child left right := by
  have joined : path.join step = .ok child := joined
  simp only [visit, below, joined]

/-- What only the candidate has comes up where the step leads. -/
theorem visit_extra (joined : path.join (Pairing.extra step right).step = .ok child) :
    visit policy path (.extra step right) = oneSided policy .extra child none (some right) := by
  have joined : path.join step = .ok child := joined
  simp only [visit, below, joined]

/-- A step that is no segment is a failure. -/
theorem visit_of_error {pairing : Pairing} {cause : PathError}
    (joined : path.join pairing.step = .error cause) :
    visit policy path pairing = .failed (.invalidStep cause) := by
  unfold Pairing.step at joined
  cases pairing <;> simp only [visit, below, joined]

/-- What is left out comes up nowhere. -/
theorem walk_of_excluded (leftOut : policy.excludes path = true) :
    walk policy path reference candidate = .clean := by
  simp only [walk_eq, leftOut, if_true]

/-- Where two values cannot be compared, the walk fails. -/
theorem walk_of_fail {error : ComparisonError} (shown : policy.excludes path = false)
    (planned : plan policy path reference candidate = .fail error) :
    walk policy path reference candidate = .failed error := by
  simp only [walk_eq, shown, planned, Bool.false_eq_true, if_false]

/-- What is shown and has another shape differs as a whole. -/
theorem walk_of_differInShape (shown : policy.excludes path = false)
    (planned : plan policy path reference candidate = .differInShape) :
    walk policy path reference candidate =
      .found ⟨.typeMismatch, path.text, some reference, some candidate⟩ := by
  simp only [walk_eq, shown, planned, Bool.false_eq_true, if_false]

/-- Scalars that are shown are compared. -/
theorem walk_of_compareScalars (shown : policy.excludes path = false)
    (planned : plan policy path reference candidate = .compareScalars) :
    walk policy path reference candidate = compareScalars policy path reference candidate := by
  simp only [walk_eq, shown, planned, Bool.false_eq_true, if_false]

/-- Of containers that are shown, the pairings are visited in order. -/
theorem walk_of_descend (shown : policy.excludes path = false)
    (planned : plan policy path reference candidate = .descend pairings) :
    walk policy path reference candidate = .sequence (pairings.map (visit policy path)) := by
  simp only [walk_eq, shown, planned, Bool.false_eq_true, if_false]

/-- What holds of a walk however it goes holds of it: the path is left out, the values cannot
be compared, they differ as a whole, they are compared as scalars, or what is inside them is
visited. -/
@[elab_as_elim]
theorem walk_cases {motive : Trace → Prop}
    (leftOut : policy.excludes path = true → motive .clean)
    (fails : ∀ error, policy.excludes path = false →
      plan policy path reference candidate = .fail error → motive (.failed error))
    (differs : policy.excludes path = false →
      plan policy path reference candidate = .differInShape →
      motive (.found ⟨.typeMismatch, path.text, some reference, some candidate⟩))
    (compares : policy.excludes path = false →
      plan policy path reference candidate = .compareScalars →
      motive (compareScalars policy path reference candidate))
    (descends : ∀ pairings, policy.excludes path = false →
      plan policy path reference candidate = .descend pairings →
      motive (.sequence (pairings.map (visit policy path)))) :
    motive (walk policy path reference candidate) := by
  cases shown : policy.excludes path with
  | true =>
    rw [walk_of_excluded shown]
    exact leftOut shown
  | false =>
    cases planned : plan policy path reference candidate with
    | fail error =>
      rw [walk_of_fail shown planned]
      exact fails error shown planned
    | differInShape =>
      rw [walk_of_differInShape shown planned]
      exact differs shown planned
    | compareScalars =>
      rw [walk_of_compareScalars shown planned]
      exact compares shown planned
    | descend pairings =>
      rw [walk_of_descend shown planned]
      exact descends pairings shown planned

/-- A complete walk of containers visits every pairing completely and comes upon what the
visits come upon. -/
theorem complete_of_descend (shown : policy.excludes path = false)
    (planned : plan policy path reference candidate = .descend pairings)
    (complete : (walk policy path reference candidate).failure = none) :
    (∀ pairing ∈ pairings, (visit policy path pairing).failure = none) ∧
      (walk policy path reference candidate).differences =
        pairings.flatMap fun pairing => (visit policy path pairing).differences := by
  rw [walk_of_descend shown planned] at complete ⊢
  rw [Trace.failure_sequence_eq_none_iff] at complete
  refine ⟨fun pairing member => complete _ (List.mem_map_of_mem member), ?_⟩
  rw [Trace.differences_sequence_of_complete complete, List.flatMap_map]

end Steps

/-- Two scalars have at most one difference, and it is at their path. -/
theorem path_of_mem_compareScalars {policy : Policy} {path : Path} {left right : Value}
    {difference : Difference}
    (member : difference ∈ (compareScalars policy path left right).differences) :
    difference.path = path.text := by
  unfold compareScalars at member
  split at member
  · cases member
  · rw [List.mem_singleton.1 member]

/-- A value that only one side has is at most one difference, and it is at its path. -/
theorem path_of_mem_oneSided {policy : Policy} {kind : DifferenceKind} {path : Path}
    {value other : Option Value} {difference : Difference}
    (member : difference ∈ (oneSided policy kind path value other).differences) :
    difference.path = path.text := by
  unfold oneSided at member
  split at member
  · cases member
  · rw [List.mem_singleton.1 member]

/-- Two scalars have one difference or none. -/
theorem exists_of_compareScalars (policy : Policy) (path : Path) (left right : Value) :
    ∃ shown : Option Difference,
      (compareScalars policy path left right).differences = shown.toList := by
  unfold compareScalars
  split
  · exact ⟨none, rfl⟩
  · exact ⟨some _, rfl⟩

/-- A value that only one side has is one difference or none. -/
theorem exists_of_oneSided (policy : Policy) (kind : DifferenceKind) (path : Path)
    (value other : Option Value) :
    ∃ shown : Option Difference,
      (oneSided policy kind path value other).differences = shown.toList := by
  unfold oneSided
  split
  · exact ⟨none, rfl⟩
  · exact ⟨some _, rfl⟩

/-- The comparison of two scalars does not fail. -/
@[simp] theorem failure_compareScalars (policy : Policy) (path : Path) (left right : Value) :
    (compareScalars policy path left right).failure = none := by
  unfold compareScalars
  split <;> rfl

/-- A value that only one side has is no failure. -/
@[simp] theorem failure_oneSided (policy : Policy) (kind : DifferenceKind) (path : Path)
    (value other : Option Value) : (oneSided policy kind path value other).failure = none := by
  unfold oneSided
  split <;> rfl

/-- A visit comes upon one difference or none, unless it compares two values. -/
theorem exists_of_visit (policy : Policy) (path : Path) (pairing : Pairing) :
    (∃ shown : Option Difference, (visit policy path pairing).differences = shown.toList) ∨
      ∃ step left right child, pairing = .both step left right ∧ path.join step = .ok child ∧
        visit policy path pairing = walk policy child left right := by
  cases joined : path.join pairing.step with
  | error cause =>
    left
    rw [visit_of_error joined]
    exact ⟨none, rfl⟩
  | ok child =>
    cases pairing with
    | missing step value =>
      left
      rw [visit_missing joined]
      exact exists_of_oneSided ..
    | extra step value =>
      left
      rw [visit_extra joined]
      exact exists_of_oneSided ..
    | both step left right => exact .inr ⟨step, left, right, child, rfl, joined, visit_both joined⟩

/-- A complete visit goes one step further. -/
theorem exists_child_of_complete {policy : Policy} {path : Path} {pairing : Pairing}
    (complete : (visit policy path pairing).failure = none) :
    ∃ child, path.join pairing.step = .ok child := by
  cases joined : path.join pairing.step with
  | ok child => exact ⟨child, rfl⟩
  | error cause =>
    rw [visit_of_error joined] at complete
    cases complete

/-- What comes up in a visit is at the path that the step leads to, or comes up when two
values are compared there. -/
theorem exists_child_of_mem_visit {policy : Policy} {path : Path} {pairing : Pairing}
    {difference : Difference} (member : difference ∈ (visit policy path pairing).differences) :
    ∃ child, path.join pairing.step = .ok child ∧
      (difference.path = child.text ∨
        ∃ step left right, pairing = .both step left right ∧
          difference ∈ (walk policy child left right).differences) := by
  cases joined : path.join pairing.step with
  | error cause =>
    rw [visit_of_error joined] at member
    cases member
  | ok child =>
    refine ⟨child, rfl, ?_⟩
    cases pairing with
    | missing step value =>
      rw [visit_missing joined] at member
      exact .inl (path_of_mem_oneSided member)
    | extra step value =>
      rw [visit_extra joined] at member
      exact .inl (path_of_mem_oneSided member)
    | both step left right =>
      rw [visit_both joined] at member
      exact .inr ⟨step, left, right, rfl, member⟩

end Comparison

end StructuralDiff
