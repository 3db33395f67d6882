import Mathlib
import StructuralDiff.Proofs.LikePolicies
import StructuralDiff.Proofs.Meeting
import StructuralDiff.Proofs.PlainPolicies

/-!
# Comparisons under filters

A filter shows a path when it leaves out neither the path nor any path on the way to
it. What a comparison finds under filters is what it finds without them at the paths
that the filters show: leaving a value out while comparing hides what is at it and
under it, and nothing else. Nothing fails that does not fail without the filters.
-/

namespace StructuralDiff

namespace Path

/-- The way to a path one step further leads over the path. -/
theorem ancestors_join (path : Path) (segment : Segment) :
    ancestors ⟨path.segments ++ [segment]⟩ = path.ancestors ++ [path] := by
  simp only [ancestors, List.length_append, List.length_singleton, List.range_succ, List.map_append,
    List.map_singleton, List.take_left]
  congr 1
  refine List.map_congr_left fun length short => ?_
  rw [List.take_append_of_le_length (Nat.le_of_lt (List.mem_range.1 short))]

end Path

namespace Policy

variable {policy : Policy}

/-- The policy with other filters. -/
def filteredBy (policy : Policy) (maxDepth : Option Nat) (selectPaths rejectPaths : List Path) :
    Policy :=
  { policy with maxDepth := maxDepth, selectPaths := selectPaths, rejectPaths := rejectPaths }

/-- Filters change neither how values are paired nor how scalars are compared. -/
theorem filteredBy_comparesAlike (policy : Policy) (maxDepth : Option Nat)
    (selectPaths rejectPaths : List Path) :
    (policy.filteredBy maxDepth selectPaths rejectPaths).ComparesAlike policy :=
  ⟨⟨rfl, rfl, rfl, rfl⟩, rfl⟩

/-- A path is shown when neither it nor any path on the way to it is left out. -/
def shows (policy : Policy) (path : Path) : Bool :=
  !policy.excludes path && path.ancestors.all fun ancestor => !policy.excludes ancestor

/-- A written path is shown when the path that it stands for is. -/
def showsText (policy : Policy) (text : String) : Bool :=
  (Path.read text).toOption.any policy.shows

/-- The root is always shown. -/
theorem shows_root : policy.shows .root = true := by
  rw [shows, excludes_root]
  rfl

/-- One step further on, a path is shown when it is not left out itself. -/
theorem shows_join {path child : Path} {step : String} (joined : path.join step = .ok child)
    (shown : policy.shows path = true) : policy.shows child = !policy.excludes child := by
  obtain ⟨segment, -, rfl⟩ := Path.join_eq_ok_iff.1 joined
  obtain ⟨here, above⟩ := Bool.and_eq_true_iff.1 shown
  rw [shows, Path.ancestors_join, List.all_append, above]
  simp [here]

/-- Nothing is shown under a path that is left out. -/
theorem shows_eq_false_of_prefix {start path : Path} (starts : start.segments <+: path.segments)
    (leftOut : policy.excludes start = true) : policy.shows path = false := by
  rcases List.mem_append.1 (Path.mem_ancestors_append_iff.2 starts) with above | whole
  · have hidden : (path.ancestors.all fun ancestor => !policy.excludes ancestor) = false :=
      List.all_eq_false.2 ⟨start, above, by simp [leftOut]⟩
    simp [shows, hidden]
  · rw [List.mem_singleton.1 whole] at leftOut
    simp [shows, leftOut]

/-- The written form of a path that can be read back is shown when the path is. -/
theorem showsText_text {path : Path} (legible : path.Legible) :
    policy.showsText path.text = policy.shows path := by
  simp [showsText, Path.read_text legible, Except.toOption]

end Policy

namespace Trace

/-- A trace without the differences that fail a test. -/
def filter (keep : Difference → Bool) (trace : Trace) : Trace :=
  ⟨trace.differences.filter keep, trace.failure⟩

/-- One trace after another is filtered by filtering both. -/
theorem filter_append (keep : Difference → Bool) (first second : Trace) :
    (first ++ second).filter keep = first.filter keep ++ second.filter keep := by
  cases failure : first.failure with
  | some error =>
    have same : (first.filter keep).failure = some error := failure
    rw [append_of_failed failure, append_of_failed same]
  | none =>
    have same : (first.filter keep).failure = none := failure
    rw [append_of_complete failure, append_of_complete same]
    simp [filter]

/-- A sequence is filtered by filtering each of its traces. -/
theorem filter_sequence (keep : Difference → Bool) (traces : List Trace) :
    (sequence traces).filter keep = sequence (traces.map (filter keep)) := by
  induction traces with
  | nil => rfl
  | cons trace traces ih => rw [sequence_cons, filter_append, ih, List.map_cons, sequence_cons]

/-- One difference is kept or not. -/
theorem filter_found (keep : Difference → Bool) (difference : Difference) :
    (found difference).filter keep = if keep difference then found difference else clean := by
  cases kept : keep difference <;> simp [filter, found, clean, kept]

/-- Where every difference passes the test, filtering changes nothing. -/
theorem filter_eq_self {keep : Difference → Bool} {trace : Trace}
    (all : ∀ difference ∈ trace.differences, keep difference = true) :
    trace.filter keep = trace := by
  rw [filter, List.filter_eq_self.2 all]

/-- Where no difference of a complete trace passes the test, nothing is left. -/
theorem filter_eq_clean {keep : Difference → Bool} {trace : Trace}
    (complete : trace.failure = none)
    (none : ∀ difference ∈ trace.differences, keep difference = false) :
    trace.filter keep = clean := by
  have empty : trace.differences.filter keep = [] :=
    List.filter_eq_nil_iff.2 fun difference member => by simp [none difference member]
  rw [filter, empty, complete, clean]

end Trace

namespace Comparison

variable {policy filtered : Policy} {reference candidate left right : Value} {path : Path}

/-- Whether a difference is at a path that a policy shows. -/
def shownBy (policy : Policy) (difference : Difference) : Bool :=
  policy.showsText difference.path

/-- One step further on, filters leave out what only one side has where they do not show
its path. -/
theorem oneSided_filtered (unfiltered : policy.Unfiltered) {child : Path}
    (legible : child.Legible) (decides : filtered.shows child = !filtered.excludes child)
    (kind : DifferenceKind) (value other : Option Value) :
    oneSided filtered kind child value other =
      (oneSided policy kind child value other).filter (shownBy filtered) := by
  rw [unfiltered.oneSided_eq_found, Trace.filter_found, shownBy, Policy.showsText_text legible,
    decides, oneSided]
  cases filtered.excludes child <;> rfl

/-- Filters leave the differences at shown paths of a complete visit, if they do so one
step further on. -/
theorem visit_filtered (unfiltered : policy.Unfiltered) (legible : path.Legible)
    (shown : filtered.shows path = true) {pairing : Pairing}
    (stepClear : '/' ∉ pairing.step.toList)
    (complete : (visit policy path pairing).failure = none)
    (inside : ∀ {step first second child}, pairing = .both step first second →
      path.join step = .ok child → filtered.shows child = !filtered.excludes child →
      (walk policy child first second).failure = none →
      walk filtered child first second =
        (walk policy child first second).filter (shownBy filtered)) :
    visit filtered path pairing = (visit policy path pairing).filter (shownBy filtered) := by
  obtain ⟨child, joined⟩ := exists_child_of_complete complete
  have childLegible := legible.join joined stepClear
  have decides := Policy.shows_join joined shown
  cases pairing with
  | missing step value =>
    rw [visit_missing joined, visit_missing joined]
    exact oneSided_filtered unfiltered childLegible decides _ _ _
  | extra step value =>
    rw [visit_extra joined, visit_extra joined]
    exact oneSided_filtered unfiltered childLegible decides _ _ _
  | both step first second =>
    rw [visit_both joined] at complete ⊢
    rw [visit_both joined]
    exact inside rfl joined decides complete

/-- Leaving values out during a complete walk leaves the differences at shown paths. By
induction along the walk: to a value that is met, all paths on the way are shown. -/
theorem walk_filtered (alike : filtered.ComparesAlike policy) (unfiltered : policy.Unfiltered)
    (clear : StepsClear policy reference candidate)
    (meets : Meets policy reference candidate path left right)
    (decides : filtered.shows path = !filtered.excludes path)
    (complete : (walk policy path left right).failure = none) :
    walk filtered path left right = (walk policy path left right).filter (shownBy filtered) := by
  induction path, left, right using walk_induction policy with
  | visited path left right ih =>
    have legible := meets.legible clear
    have known := unfiltered.excludes_eq_false path
    by_cases leftOut : filtered.excludes path = true
    · -- What is left out hides all that comes up at it or under it.
      have hidden : ∀ difference ∈ (walk policy path left right).differences,
          shownBy filtered difference = false := by
        intro difference member
        obtain ⟨place, placeLegible, under, written⟩ := exists_path_of_mem_walk clear meets member
        rw [shownBy, written, Policy.showsText_text placeLegible]
        exact Policy.shows_eq_false_of_prefix under leftOut
      rw [Trace.filter_eq_clean complete hidden, walk_of_excluded leftOut]
    · have notLeftOut : filtered.excludes path = false := by simpa using leftOut
      have shown : filtered.shows path = true := by simp [decides, notLeftOut]
      have kept : ∀ difference : Difference, difference.path = path.text →
          shownBy filtered difference = true := by
        intro difference written
        rw [shownBy, written, Policy.showsText_text legible, shown]
      have same := alike.plan_eq path left right
      cases planned : plan policy path left right with
      | fail error =>
        rw [walk_of_fail known planned] at complete
        cases complete
      | differInShape =>
        rw [walk_of_differInShape known planned,
          walk_of_differInShape notLeftOut (same.trans planned)]
        refine (Trace.filter_eq_self fun difference member => kept difference ?_).symm
        rw [List.mem_singleton.1 member]
      | compareScalars =>
        rw [walk_of_compareScalars known planned,
          walk_of_compareScalars notLeftOut (same.trans planned), alike.compareScalars_eq]
        refine (Trace.filter_eq_self fun difference member => kept difference ?_).symm
        exact path_of_mem_compareScalars member
      | descend pairings =>
        obtain ⟨visited, -⟩ := complete_of_descend known planned complete
        rw [walk_of_descend known planned, walk_of_descend notLeftOut (same.trans planned),
          Trace.filter_sequence, List.map_map]
        congr 1
        refine List.map_congr_left fun pairing member => ?_
        refine visit_filtered unfiltered legible shown (clear meets planned pairing member)
          (visited pairing member) ?_
        rintro step first second child rfl joined childDecides inner
        exact ih planned member joined (meets.onward known planned member joined) childDecides inner

/-- A comparison under filters finds, in the same order, what the comparison without them
finds at paths that the filters show. The comparison without filters succeeds and has no
limit, and no key and no value by which it pairs items holds a separator. -/
theorem perform_filtered {draft : Draft} {policy : Policy} (built : draft.build = .ok policy)
    (unfiltered : policy.Unfiltered) (unlimited : policy.cutoff = none)
    (maxDepth : Option Nat) (selectPaths rejectPaths : List Path) {reference candidate : Value}
    (references : reference.EveryKey fun key => '/' ∉ key.name.toList)
    (candidates : candidate.EveryKey fun key => '/' ∉ key.name.toList)
    (values : ∀ value, PairsItemsBy policy reference candidate value →
      '/' ∉ value.segmentText.toList)
    {findings : Findings} (done : perform policy reference candidate = .ok findings) :
    (∀ difference ∈ findings.items, ∃ path, Path.read difference.path = .ok path) ∧
      ∃ kept, perform (policy.filteredBy maxDepth selectPaths rejectPaths) reference candidate =
          .ok kept ∧
        kept.items = findings.items.filter fun difference =>
          (policy.filteredBy maxDepth selectPaths rejectPaths).showsText difference.path := by
  have alike := policy.filteredBy_comparesAlike maxDepth selectPaths rejectPaths
  have unlimitedToo : (policy.filteredBy maxDepth selectPaths rejectPaths).cutoff = none := unlimited
  generalize policy.filteredBy maxDepth selectPaths rejectPaths = filtered at alike unlimitedToo ⊢
  have clear := stepsClear (Draft.legible_of_mem_matchByKey built) references candidates values
  obtain ⟨complete, items⟩ := complete_of_perform unlimited done
  have decides : filtered.shows .root = !filtered.excludes .root := by
    rw [Policy.shows_root, Policy.excludes_root]
    rfl
  have same := walk_filtered alike unfiltered clear .start decides complete
  have completeToo : (walk filtered .root reference candidate).failure = none := by
    rw [same]
    exact complete
  constructor
  · intro difference member
    rw [items] at member
    obtain ⟨place, legible, -, written⟩ := exists_path_of_mem_walk clear .start member
    exact ⟨place, by rw [written, Path.read_text legible]⟩
  · obtain ⟨kept, doneToo, itemsToo⟩ := exists_findings_of_complete unlimitedToo completeToo
    refine ⟨kept, doneToo, ?_⟩
    rw [itemsToo, same, items]
    rfl

/-- A list with one record. -/
def oneRecord : Value :=
  .array [.object [(.text "id", .text "a"), (.text "n", .null)]]

/-- The list with a second record, in which the first one has lost a field. -/
def twoRecords : Value :=
  .array [.object [(.text "id", .text "b")], .object [(.text "id", .text "a")]]

/-- Records are paired by their identifiers. -/
def byIdentifier : Policy :=
  { Policy.default with matchByKey := [⟨[.keyExpression "id"]⟩] }

/-- The values in the two lists. -/
def recordParts : List Value :=
  [oneRecord, twoRecords, .object [(.text "id", .text "a"), (.text "n", .null)],
    .object [(.text "id", .text "b")], .object [(.text "id", .text "a")],
    .text "a", .text "b", .null]

/-- Either a limit on the depth or a rejected pattern hides the field that was lost and shows the
new record. A selected pattern shows the field and hides the record. -/
theorem perform_filtered_records :
    ∃ findings shallow rejected selected,
      perform byIdentifier oneRecord twoRecords = .ok findings ∧
      findings.items.map Difference.path = ["/id=a/n", "/id=b"] ∧
      (perform (byIdentifier.filteredBy (some 2) [] []) oneRecord twoRecords = .ok shallow ∧
        shallow.items.map Difference.path = ["/id=b"]) ∧
      (perform (byIdentifier.filteredBy none [] [⟨[.wildcard, .plain "n"]⟩]) oneRecord twoRecords =
          .ok rejected ∧
        rejected.items.map Difference.path = ["/id=b"]) ∧
      (perform (byIdentifier.filteredBy none [⟨[.keyValue "id" "a"]⟩] []) oneRecord twoRecords =
          .ok selected ∧
        selected.items.map Difference.path = ["/id=a/n"]) := by
  have built :
      Draft.build { Draft.empty with matchByKey := [.text "/:id"] } = .ok byIdentifier := by
    cbv
  have done : perform byIdentifier oneRecord twoRecords = .ok {
      items := [⟨.missing, "/id=a/n", some .null, none⟩,
        ⟨.extra, "/id=b", none, some (.object [(.text "id", .text "b")])⟩]
      positions := [("/id=a/n", 0), ("/id=b", 1)]
      limit := none } := by
    cbv
  have keys : oneRecord.EveryKey (fun key => '/' ∉ key.name.toList) ∧
      twoRecords.EveryKey (fun key => '/' ∉ key.name.toList) := by
    simp [oneRecord, twoRecords, Value.EveryKey, Value.EveryKeyOfItems, Value.EveryKeyOfEntries,
      Key.name]
  have values : ∀ value, PairsItemsBy byIdentifier oneRecord twoRecords value →
      '/' ∉ value.segmentText.toList := by
    intro value pairs
    have part : value ∈ recordParts :=
      pairs.of_parts (by simp [recordParts, Value.parts, oneRecord, twoRecords])
        (by simp [recordParts]) (by simp [recordParts])
    have clear : (recordParts.all fun value => !value.segmentText.toList.contains '/') = true := by
      cbv
    simpa using List.all_eq_true.1 clear value part
  have filtered := fun maxDepth selectPaths rejectPaths =>
    (perform_filtered built ⟨rfl, rfl, rfl⟩ rfl maxDepth selectPaths rejectPaths keys.1 keys.2
      values done).2
  obtain ⟨shallow, shallowDone, shallowItems⟩ := filtered (some 2) [] []
  obtain ⟨rejected, rejectedDone, rejectedItems⟩ := filtered none [] [⟨[.wildcard, .plain "n"]⟩]
  obtain ⟨selected, selectedDone, selectedItems⟩ := filtered none [⟨[.keyValue "id" "a"]⟩] []
  refine ⟨_, shallow, rejected, selected, done, rfl, ⟨shallowDone, ?shallow⟩,
    ⟨rejectedDone, ?rejected⟩, ⟨selectedDone, ?selected⟩⟩
  case shallow =>
    rw [shallowItems]
    cbv
  case rejected =>
    rw [rejectedItems]
    cbv
  case selected =>
    rw [selectedItems]
    cbv

end Comparison

end StructuralDiff
