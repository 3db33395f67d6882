import Mathlib
import StructuralDiff.Proofs.PlainPolicies
import StructuralDiff.Proofs.SwappedPairing

/-!
# Comparisons with the documents exchanged

A comparison comes to the same differences when the two documents change places, up to
the order in which it comes upon them: what was missing is extra, what was extra is
missing, and every difference has its two values on the other sides
(`perform_swapped`). The path of a difference does not tell the sides apart, not even
where items are paired by a key and the two key values are written differently.

Documents may hold any numbers that are finite; infinities and NaN are alike in JSON and
not in a path.
-/

namespace StructuralDiff

namespace Difference

/-- The difference with its sides exchanged. -/
def swap (difference : Difference) : Difference :=
  ⟨difference.kind.swap, difference.path, difference.candidate, difference.reference⟩

end Difference

/-- Objects have distinct keys and numbers are finite, at any depth. -/
structure Value.Sound (value : Value) : Prop where
  wellFormed : value.WellFormed
  finite : value.EveryNumber Number.IsFinite

/-- What is inside a sound value is sound. -/
theorem Value.Sound.of_mem_parts {value part : Value} (sound : value.Sound)
    (member : part ∈ value.parts) : part.Sound :=
  ⟨sound.wellFormed.of_mem_parts member, sound.finite.of_mem_parts member⟩

/-- What normalizers make of scalars has distinct keys in every object, as every value that
is built by setting keys has. -/
def Policy.NormalizesWell (policy : Policy) : Prop :=
  ∀ entry ∈ policy.normalizers, ∀ value : Value, value.isScalar → (entry.2 value).WellFormed

namespace Trace

/-- A trace is complete and shows what another one shows, with the sides exchanged. -/
structure Mirrors (trace mirrored : Trace) : Prop where
  complete : mirrored.failure = none
  differences : mirrored.differences.Perm (trace.differences.map Difference.swap)

namespace Mirrors

theorem clean : Trace.clean.Mirrors .clean := ⟨rfl, List.Perm.refl []⟩

theorem found (difference : Difference) :
    (Trace.found difference).Mirrors (.found difference.swap) :=
  ⟨rfl, List.Perm.refl _⟩

/-- Traces of pairings mirror each other in sequence when those of every pairing do. -/
theorem sequence {shown : Pairing → Trace} {pairings mirrored : List Pairing}
    (complete : ∀ pairing ∈ pairings, (shown pairing).failure = none)
    (reordered : mirrored.Perm (pairings.map Pairing.swap))
    (each : ∀ pairing ∈ pairings, (shown pairing).Mirrors (shown pairing.swap)) :
    (Trace.sequence (pairings.map shown)).Mirrors (Trace.sequence (mirrored.map shown)) := by
  have completeToo : ∀ pairing ∈ mirrored, (shown pairing).failure = none := by
    intro pairing member
    obtain ⟨other, known, rfl⟩ := List.mem_map.1 (reordered.mem_iff.1 member)
    exact (each other known).complete
  refine ⟨failure_sequence_eq_none_iff.2 (List.forall_mem_map.2 completeToo), ?_⟩
  rw [differences_sequence_of_complete (List.forall_mem_map.2 complete),
    differences_sequence_of_complete (List.forall_mem_map.2 completeToo),
    List.flatMap_map, List.flatMap_map, List.map_flatMap]
  calc
    List.Perm (mirrored.flatMap fun pairing => (shown pairing).differences)
        ((pairings.map Pairing.swap).flatMap fun pairing => (shown pairing).differences) :=
      reordered.flatMap_right _
    _ = pairings.flatMap fun pairing => (shown pairing.swap).differences := List.flatMap_map ..
    List.Perm _ (pairings.flatMap fun pairing =>
        (shown pairing).differences.map Difference.swap) :=
      List.Perm.flatMap_left _ fun pairing member => (each pairing member).differences

end Mirrors

end Trace

namespace Comparison

variable {policy : Policy} {path : Path} {left right : Value}

/-- What is compared in place of a scalar is well formed. -/
theorem wellFormed_prepared (normal : policy.NormalizesWell) (path : Path) {value : Value}
    (scalar : value.isScalar) : (prepared policy path value).WellFormed := by
  have plain : (if policy.indifferentValues then value.canonicalScalar else value).isScalar := by
    split
    · exact Value.isScalar_canonicalScalar scalar
    · exact scalar
  unfold prepared
  cases chosen : policy.normalizerFor path with
  | none => exact Value.wellFormed_of_isScalar plain
  | some normalizer =>
    obtain ⟨entry, found, rfl⟩ := Option.map_eq_some_iff.1 chosen
    exact normal entry (List.mem_of_find?_eq_some found) _ plain

/-- Scalars that are compared differ on whatever side they are. -/
theorem compareScalars_swapped (normal : policy.NormalizesWell) (path : Path)
    (scalar : left.isScalar) (scalarToo : right.isScalar) :
    (compareScalars policy path left right).Mirrors (compareScalars policy path right left) := by
  unfold compareScalars
  rw [Value.equal_comm (wellFormed_prepared normal path scalarToo)
    (wellFormed_prepared normal path scalar)]
  split
  · exact .clean
  · exact .found _

/-- A value that only one side has comes up on whatever side it is. -/
theorem oneSided_swapped (policy : Policy) (kind : DifferenceKind) (path : Path)
    (reference candidate : Option Value) :
    (oneSided policy kind path reference candidate).Mirrors
      (oneSided policy kind.swap path candidate reference) := by
  unfold oneSided
  split
  · exact .clean
  · exact .found _

/-- Containers are paired with the sides exchanged when they change places. -/
theorem plan_descend_swapped (sound : left.Sound) (soundToo : right.Sound)
    {pairings : List Pairing} (planned : plan policy path left right = .descend pairings) :
    ∃ mirrored, plan policy path right left = .descend mirrored ∧
      mirrored.Perm (pairings.map Pairing.swap) := by
  cases left, right using Value.casesPair with
  | objects references candidates =>
    cases planned
    exact ⟨_, rfl, Pairing.ofEntries_perm_swap (policy.nodup_keys_entries sound.wellFormed.1)
      (policy.nodup_keys_entries soundToo.wellFormed.1)⟩
  | arrays references candidates =>
    simp only [plan] at planned ⊢
    split at planned
    · rename_i paired
      cases planned
      have finite : ∀ item ∈ references, item.EveryNumber Number.IsFinite := fun item member =>
        (sound.of_mem_parts member).finite
      have finiteToo : ∀ item ∈ candidates, item.EveryNumber Number.IsFinite := fun item member =>
        (soundToo.of_mem_parts member).finite
      obtain ⟨mirrored, pairedToo, reordered⟩ := Pairing.ofItems_swap finite finiteToo paired
      exact ⟨mirrored, by rw [pairedToo], reordered⟩
    · cases planned
  | scalars left right scalar scalarToo =>
    rw [plan_of_scalars policy path scalar scalarToo] at planned
    cases planned
  | shapes left right different =>
    rw [plan_of_shape_ne policy path different] at planned
    cases planned

/-- A complete visit mirrors the visit of the exchanged pairing, if the walk one step
further on does. -/
theorem visit_swapped {pairing : Pairing} (complete : (visit policy path pairing).failure = none)
    (inside : ∀ {step first second child}, pairing = .both step first second →
      path.join step = .ok child → (walk policy child first second).failure = none →
      (walk policy child first second).Mirrors (walk policy child second first)) :
    (visit policy path pairing).Mirrors (visit policy path pairing.swap) := by
  obtain ⟨child, joined⟩ := exists_child_of_complete complete
  have joinedToo : path.join pairing.swap.step = .ok child := by rw [Pairing.step_swap, joined]
  cases pairing with
  | missing step value =>
    rw [visit_missing joined, Pairing.swap, visit_extra joinedToo]
    exact oneSided_swapped policy .missing child (some value) none
  | extra step value =>
    rw [visit_extra joined, Pairing.swap, visit_missing joinedToo]
    exact oneSided_swapped policy .extra child none (some value)
  | both step first second =>
    rw [visit_both joined] at complete ⊢
    rw [Pairing.swap, visit_both joinedToo]
    exact inside rfl joined complete

/-- A complete walk is mirrored when its two values change places. By induction along the
walk: containers are paired alike up to order, and pairs change places inside them. -/
theorem walk_swapped (normal : policy.NormalizesWell) (sound : left.Sound) (soundToo : right.Sound)
    (complete : (walk policy path left right).failure = none) :
    (walk policy path left right).Mirrors (walk policy path right left) := by
  induction path, left, right using walk_induction policy with
  | visited path left right ih =>
    by_cases leftOut : policy.excludes path = true
    · rw [walk_of_excluded leftOut, walk_of_excluded leftOut]
      exact .clean
    · have shown : policy.excludes path = false := by simpa using leftOut
      cases planned : plan policy path left right with
      | descend pairings =>
        obtain ⟨mirrored, plannedToo, reordered⟩ := plan_descend_swapped sound soundToo planned
        obtain ⟨visited, -⟩ := complete_of_descend shown planned complete
        rw [walk_of_descend shown planned, walk_of_descend shown plannedToo]
        refine Trace.Mirrors.sequence visited reordered fun pairing member => ?_
        refine visit_swapped (visited pairing member) ?_
        rintro step first second child rfl joined inner
        have within := within_of_plan planned member
        exact ih planned member joined (sound.of_mem_parts within.1)
          (soundToo.of_mem_parts within.2) inner
      | fail error =>
        rw [walk_of_fail shown planned] at complete
        cases complete
      | compareScalars =>
        obtain ⟨scalar, scalarToo⟩ := isScalar_of_compareScalars planned
        rw [walk_of_compareScalars shown planned,
          walk_of_compareScalars shown (plan_of_scalars policy path scalarToo scalar)]
        exact compareScalars_swapped normal path scalar scalarToo
      | differInShape =>
        have different := shape_ne_of_differInShape planned
        rw [walk_of_differInShape shown planned,
          walk_of_differInShape shown (plan_of_shape_ne policy path different.symm)]
        exact .found _

/-- A comparison that ends with findings ends with the exchanged findings, in some order,
when the documents change places. -/
theorem exists_mirrored_of_perform (unlimited : policy.cutoff = none)
    (normal : policy.NormalizesWell) {reference candidate : Value} (sound : reference.Sound)
    (soundToo : candidate.Sound) {findings : Findings}
    (done : perform policy reference candidate = .ok findings) :
    ∃ mirrored, perform policy candidate reference = .ok mirrored ∧
      mirrored.items.Perm (findings.items.map Difference.swap) := by
  obtain ⟨complete, items⟩ := complete_of_perform unlimited done
  have mirrors := walk_swapped normal sound soundToo complete
  obtain ⟨mirrored, doneToo, itemsToo⟩ := exists_findings_of_complete unlimited mirrors.complete
  refine ⟨mirrored, doneToo, ?_⟩
  rw [itemsToo, items]
  exact mirrors.differences

/-- Exchanging the documents mirrors the result. Without a limit on the differences, two
documents of finite numbers can be compared when they can be compared the other way
round, and then the one comparison finds what the other finds with the sides exchanged,
at the same paths and in some order. -/
theorem perform_swapped (unlimited : policy.maxDiffs = none) (patient : policy.failFast = false)
    (normal : policy.NormalizesWell) {reference candidate : Value}
    (wellFormed : reference.WellFormed) (wellFormedToo : candidate.WellFormed)
    (finite : reference.EveryNumber Number.IsFinite)
    (finiteToo : candidate.EveryNumber Number.IsFinite) :
    ((∃ findings, perform policy reference candidate = .ok findings) ↔
      ∃ mirrored, perform policy candidate reference = .ok mirrored) ∧
    ∀ findings mirrored, perform policy reference candidate = .ok findings →
      perform policy candidate reference = .ok mirrored →
      mirrored.items.Perm (findings.items.map Difference.swap) := by
  have noCutoff : policy.cutoff = none := by rw [Policy.cutoff, patient, unlimited]; rfl
  have sound : reference.Sound := ⟨wellFormed, finite⟩
  have soundToo : candidate.Sound := ⟨wellFormedToo, finiteToo⟩
  refine ⟨⟨?_, ?_⟩, ?_⟩
  · rintro ⟨findings, done⟩
    obtain ⟨mirrored, doneToo, -⟩ := exists_mirrored_of_perform noCutoff normal sound soundToo done
    exact ⟨mirrored, doneToo⟩
  · rintro ⟨mirrored, done⟩
    obtain ⟨findings, doneToo, -⟩ := exists_mirrored_of_perform noCutoff normal soundToo sound done
    exact ⟨findings, doneToo⟩
  · intro findings mirrored done doneToo
    obtain ⟨other, again, reordered⟩ := exists_mirrored_of_perform noCutoff normal sound soundToo done
    cases again.symm.trans doneToo
    exact reordered

/-- A title, a record and three tags. -/
def recordAndTags : Value :=
  .object [
    (.text "title", .text "A"),
    (.text "records", .array [.object [(.text "id", .number (.int 1)), (.text "n", .bool true)]]),
    (.text "tags", .array [.text "a", .text "b", .text "a"])]

/-- Another title, other tags, and the record with its identifier written as a text. -/
def tagsAndRecord : Value :=
  .object [
    (.text "title", .text "a"),
    (.text "tags", .array [.text "c", .text "a"]),
    (.text "records", .array [.object [(.text "id", .text "1"), (.text "n", .null)]])]

/-- Records are paired by the spelling of their identifiers, and tags by value. The title
does not count. -/
def byIdAndTag : Policy :=
  { Policy.default with
    matchByKey := [⟨[.plain "records", .keyExpression "id"]⟩]
    matchByValue := [⟨[.plain "tags"]⟩]
    indifferentValues := true
    normalizers := [(⟨[.plain "title"]⟩, fun _ => .null)] }

/-- From one side the record comes up first, from the other side the tags do, and the values
of a difference stand on the other sides. -/
theorem perform_swapped_record :
    ∃ findings mirrored, perform byIdAndTag recordAndTags tagsAndRecord = .ok findings ∧
      findings.items.map Difference.path = ["/records/id=1/n", "/tags/2", "/tags/3", "/tags/1"] ∧
      perform byIdAndTag tagsAndRecord recordAndTags = .ok mirrored ∧
      mirrored.items.map Difference.path = ["/tags/1", "/tags/2", "/tags/3", "/records/id=1/n"] ∧
      mirrored.items.Perm (findings.items.map Difference.swap) := by
  have done : perform byIdAndTag recordAndTags tagsAndRecord = .ok {
      items := [
        ⟨.mismatch, "/records/id=1/n", some (.bool true), some .null⟩,
        ⟨.missing, "/tags/2", some (.text "b"), none⟩,
        ⟨.missing, "/tags/3", some (.text "a"), none⟩,
        ⟨.extra, "/tags/1", none, some (.text "c")⟩]
      positions := [("/records/id=1/n", 0), ("/tags/2", 1), ("/tags/3", 2), ("/tags/1", 3)]
      limit := none } := by
    cbv
  have doneToo : perform byIdAndTag tagsAndRecord recordAndTags = .ok {
      items := [
        ⟨.missing, "/tags/1", some (.text "c"), none⟩,
        ⟨.extra, "/tags/2", none, some (.text "b")⟩,
        ⟨.extra, "/tags/3", none, some (.text "a")⟩,
        ⟨.mismatch, "/records/id=1/n", some .null, some (.bool true)⟩]
      positions := [("/tags/1", 0), ("/tags/2", 1), ("/tags/3", 2), ("/records/id=1/n", 3)]
      limit := none } := by
    cbv
  have normal : byIdAndTag.NormalizesWell := by
    intro entry member value _
    cases List.mem_singleton.1 member
    trivial
  have wellFormed : recordAndTags.WellFormed ∧ tagsAndRecord.WellFormed := by
    simp [recordAndTags, tagsAndRecord, Value.WellFormed, Value.WellFormedItems,
      Value.WellFormedEntries, Entries.keys]
  have finite : recordAndTags.EveryNumber Number.IsFinite ∧
      tagsAndRecord.EveryNumber Number.IsFinite := by
    simp [recordAndTags, tagsAndRecord, Value.EveryNumber, Value.EveryNumberOfItems,
      Value.EveryNumberOfEntries, Number.IsFinite]
  obtain ⟨-, mirrors⟩ := perform_swapped rfl rfl normal wellFormed.1 wellFormed.2 finite.1 finite.2
  exact ⟨_, _, done, rfl, doneToo, rfl, mirrors _ _ done doneToo⟩

end Comparison

end StructuralDiff
