import StructuralDiff.Comparison.Walk
import StructuralDiff.Findings

/-!
# Recording a comparison

A comparison records differences while it walks. The first difference that the
findings refuse stops it at once, however deep in the documents it is, and so does
the first failure. What is recorded in this way is what recording the whole walk
would leave (`record_eq_recordInto`), although nothing is visited after the stop.
-/

namespace StructuralDiff

/-- Why recording stops before everything is compared. -/
inductive Halt where
  /-- A difference was refused; the findings are what was recorded before it. -/
  | full (findings : Findings)
  | failed (error : ComparisonError)

namespace Trace

/-- Record the differences of a trace, and then fail if the trace fails. A failure
after a refused difference is of no account. -/
def recordInto (trace : Trace) (findings : Findings) : Except Halt Findings :=
  match findings.recordAll trace.differences, trace.failure with
  | (findings, true), _ => .error (.full findings)
  | (findings, false), none => .ok findings
  | (_, false), some error => .error (.failed error)

/-- Recording one trace after another is recording both in turn. -/
theorem recordInto_append (first second : Trace) (findings : Findings) :
    (first ++ second).recordInto findings = first.recordInto findings >>= second.recordInto := by
  obtain ⟨differences, failure⟩ := first
  cases failure with
  | some error =>
    rw [append_of_failed rfl]
    unfold recordInto
    rcases findings.recordAll differences with ⟨reached, stopped⟩
    cases stopped <;> rfl
  | none =>
    rw [append_of_complete rfl]
    unfold recordInto
    simp only [Findings.recordAll_append]
    rcases findings.recordAll differences with ⟨reached, stopped⟩
    cases stopped <;> rfl

/-- Recording a sequence of traces is recording each in turn. -/
theorem recordInto_sequence (traces : List Trace) (findings : Findings) :
    (sequence traces).recordInto findings =
      traces.foldlM (fun findings trace => trace.recordInto findings) findings := by
  induction traces generalizing findings with
  | nil => rfl
  | cons trace traces ih =>
    rw [sequence_cons, recordInto_append, List.foldlM_cons]
    congr
    funext reached
    exact ih reached

end Trace

namespace Comparison

/-- Record what comes up when two values at a path are compared. -/
def record (policy : Policy) (path : Path) (reference candidate : Value) (findings : Findings) :
    Except Halt Findings :=
  if policy.excludes path then .ok findings
  else
    match _planned : plan policy path reference candidate with
    | .fail error => .error (.failed error)
    | .differInShape =>
      (Trace.found ⟨.typeMismatch, path.text, some reference, some candidate⟩).recordInto findings
    | .compareScalars => (compareScalars policy path reference candidate).recordInto findings
    | .descend pairings =>
      pairings.attach.foldlM (fun findings pairing =>
        match pairing with
        | ⟨.missing step value, _⟩ =>
          (below path step fun child =>
            oneSided policy .missing child (some value) none).recordInto findings
        | ⟨.both step left right, _⟩ =>
          match path.join step with
          | .ok child => record policy child left right findings
          | .error cause => .error (.failed (.invalidStep cause))
        | ⟨.extra step value, _⟩ =>
          (below path step fun child =>
            oneSided policy .extra child none (some value)).recordInto findings) findings
termination_by sizeOf reference
decreasing_by exact sizeOf_lt_of_plan _planned ‹_›

/-- The findings of a comparison, or its failure. When the limit stops the
comparison, the findings are what was recorded so far. -/
def perform (policy : Policy) (reference candidate : Value) : Except ComparisonError Findings :=
  match record policy .root reference candidate (Findings.forPolicy policy) with
  | .ok findings => .ok findings
  | .error (.full findings) => .ok findings
  | .error (.failed error) => .error error

/-- The findings of a comparison on default terms. -/
def diff (reference candidate : Value) : Except ComparisonError Findings :=
  perform .default reference candidate

/-- Recording stops where recording the whole walk would refuse or fail. -/
theorem record_eq_recordInto (policy : Policy) (path : Path) (reference candidate : Value)
    (findings : Findings) :
    record policy path reference candidate findings =
      (walk policy path reference candidate).recordInto findings := by
  induction path, reference, candidate using walk_induction policy generalizing findings with
  | visited path reference candidate ih =>
    rw [record, walk_eq]
    split
    · rfl
    · split <;> rename_i planned <;> simp only [planned]
      · rfl
      · rename_i pairings
        rw [Trace.recordInto_sequence, List.foldlM_map]
        conv => rhs; rw [← List.attach_map_subtype_val pairings, List.foldlM_map]
        congr
        funext reached ⟨pairing, member⟩
        cases pairing with
        | missing step value => rfl
        | extra step value => rfl
        | both step left right =>
          simp only [visit, below]
          cases joined : path.join step with
          | error cause => rfl
          | ok child => exact ih planned member joined reached

/-- Documents over which the walk is the same are compared with the same outcome. -/
theorem perform_eq_of_walk_eq {policy : Policy} {reference candidate other otherToo : Value}
    (same : walk policy .root reference candidate = walk policy .root other otherToo) :
    perform policy reference candidate = perform policy other otherToo := by
  unfold perform
  rw [record_eq_recordInto, record_eq_recordInto, same]

/-- How a comparison ends, told by all that the walk comes upon and by the limit. -/
inductive Ends (trace : Trace) (limit : Option Nat) : Except ComparisonError Findings → Prop where
  /-- Everything was recorded. -/
  | complete {findings} (whole : trace.failure = none)
      (within : ∀ count, limit = some count → trace.differences.length ≤ count)
      (items : findings.items = trace.differences) : Ends trace limit (.ok findings)
  /-- There was more to record than the limit allows. -/
  | cut {findings count} (limited : limit = some count)
      (beyond : count < trace.differences.length)
      (items : findings.items = trace.differences.take count) : Ends trace limit (.ok findings)
  /-- The walk failed before it reached the limit. -/
  | failed {error} (failure : trace.failure = some error)
      (within : ∀ count, limit = some count → trace.differences.length ≤ count) :
      Ends trace limit (.error error)

/-- A comparison ends as the walk and the limit of the policy say. -/
theorem perform_ends (policy : Policy) (reference candidate : Value) :
    Ends (walk policy .root reference candidate) policy.cutoff
      (perform policy reference candidate) := by
  unfold perform
  rw [record_eq_recordInto]
  generalize walk policy .root reference candidate = trace
  unfold Trace.recordInto
  cases limited : policy.cutoff with
  | none =>
    obtain ⟨accepted, items⟩ :=
      Findings.recordAll_of_unlimited (show (Findings.forPolicy policy).limit = none from limited)
        trace.differences
    rcases recorded : (Findings.forPolicy policy).recordAll trace.differences with ⟨reached, stopped⟩
    simp only [recorded] at accepted items
    subst accepted
    cases failure : trace.failure with
    | none => exact .complete failure (by simp) items
    | some error => exact .failed failure (by simp)
  | some count =>
    obtain ⟨accepted, items⟩ :=
      Findings.recordAll_of_limited
        (show (Findings.forPolicy policy).limit = some count from limited) (Nat.zero_le _)
        trace.differences
    rcases recorded : (Findings.forPolicy policy).recordAll trace.differences with ⟨reached, stopped⟩
    simp only [recorded] at accepted items
    simp only [Findings.forPolicy, Findings.empty, List.nil_append, List.length_nil, Nat.zero_add]
      at accepted items
    subst accepted
    by_cases beyond : count < trace.differences.length
    · simp only [beyond, decide_true]
      exact .cut rfl beyond items
    · have fits : trace.differences.length ≤ count := Nat.le_of_not_lt beyond
      have within : ∀ other, some count = some other → trace.differences.length ≤ other := by
        rintro other ⟨rfl⟩
        exact fits
      rw [List.take_of_length_le fits] at items
      simp only [beyond, decide_false]
      cases failure : trace.failure with
      | none => exact .complete failure within items
      | some error => exact .failed failure within

/-- The differences that are found are the first ones that the walk comes upon. -/
theorem items_prefix_of_perform {policy : Policy} {reference candidate : Value}
    {findings : Findings} (done : perform policy reference candidate = .ok findings) :
    findings.items <+: (walk policy .root reference candidate).differences := by
  have ends := perform_ends policy reference candidate
  rw [done] at ends
  cases ends with
  | complete _ _ items => exact items ▸ List.prefix_refl _
  | cut _ _ items => exact items ▸ List.take_prefix _ _

/-- Without a limit, what a comparison yields is all that the walk comes upon. -/
theorem complete_of_perform {policy : Policy} {reference candidate : Value} {findings : Findings}
    (unlimited : policy.cutoff = none) (done : perform policy reference candidate = .ok findings) :
    (walk policy .root reference candidate).failure = none ∧
      findings.items = (walk policy .root reference candidate).differences := by
  have ends := perform_ends policy reference candidate
  rw [done, unlimited] at ends
  cases ends with
  | complete whole _ items => exact ⟨whole, items⟩
  | cut limited => cases limited

/-- Without a limit, a comparison fails as the walk does. -/
theorem perform_eq_error_iff {policy : Policy} {reference candidate : Value}
    (unlimited : policy.cutoff = none) {error : ComparisonError} :
    perform policy reference candidate = .error error ↔
      (walk policy .root reference candidate).failure = some error := by
  have ends := perform_ends policy reference candidate
  rw [unlimited] at ends
  cases outcome : perform policy reference candidate with
  | ok findings => simp [(complete_of_perform unlimited outcome).1]
  | error cause =>
    rw [outcome] at ends
    cases ends with
    | failed failure => simp [failure]

/-- Without a limit, a comparison succeeds when the walk is complete. -/
theorem exists_findings_of_complete {policy : Policy} {reference candidate : Value}
    (unlimited : policy.cutoff = none)
    (complete : (walk policy .root reference candidate).failure = none) :
    ∃ findings, perform policy reference candidate = .ok findings ∧
      findings.items = (walk policy .root reference candidate).differences := by
  cases outcome : perform policy reference candidate with
  | ok findings => exact ⟨findings, rfl, (complete_of_perform unlimited outcome).2⟩
  | error error =>
    rw [(perform_eq_error_iff unlimited).1 outcome] at complete
    cases complete

end Comparison

end StructuralDiff
