import Mathlib
import StructuralDiff.Proofs.PlainPolicies

/-!
# No differences between equal documents, and some between others

On default terms a comparison decides equality: when it does not fail, it finds
nothing exactly when the documents are equal. Equality looks an entry up under its
key and counts the entries, while the comparison looks for keys on both sides; that
the two agree rests on distinct keys.
-/

namespace StructuralDiff

namespace Pairing

/-- The two sides of a pairing are there and equal. -/
def Agrees : Pairing → Prop
  | .both _ left right => left.equal right = true
  | _ => False

/-- Arrays are equal when all pairings by position agree. -/
theorem equalItems_iff_agrees (position : Nat) (references candidates : List Value) :
    Value.equalItems references candidates = true ↔
      ∀ pairing ∈ byPositionFrom position references candidates, pairing.Agrees := by
  fun_induction byPositionFrom position references candidates with
  | case1 => simp [Value.equalItems]
  | case2 => simp [Value.equalItems, Agrees]
  | case3 => simp [Value.equalItems, Agrees]
  | case4 position reference references candidate candidates ih =>
    simp [Value.equalItems, Agrees, ih]

/-- Every entry has an equal one under its key. -/
theorem equalEntries_iff {references candidates : Entries Key Value} :
    Value.equalEntries references candidates = true ↔
      ∀ entry ∈ references, ∃ other, candidates.find? entry.1 = some other ∧
        entry.2.equal other = true := by
  induction references with
  | nil => simp [Value.equalEntries]
  | cons entry references ih =>
    obtain ⟨key, value⟩ := entry
    cases found : candidates.find? key <;> simp [Value.equalEntries, found, ih]

/-- Where every entry is found elsewhere, the keys are there. -/
theorem keys_subset_of_found {references candidates : Entries Key Value}
    (found : ∀ entry ∈ references, ∃ other, candidates.find? entry.1 = some other ∧
      entry.2.equal other = true) : references.keys ⊆ candidates.keys := by
  intro key inReferences
  obtain ⟨entry, held, rfl⟩ := List.mem_map.1 inReferences
  obtain ⟨other, there, -⟩ := found entry held
  exact Entries.mem_keys_of_mem (Entries.mem_of_find? there)

/-- Objects that have as many entries as each other have the same keys when one of them
has the keys of the other. -/
theorem keys_subset_of_length_le {references candidates : Entries Key Value}
    (distinct : references.keys.Nodup) (length : candidates.length ≤ references.length)
    (known : references.keys ⊆ candidates.keys) : candidates.keys ⊆ references.keys := by
  have contained := List.subperm_of_subset distinct known
  have same := contained.perm_of_length_le (by simpa [Entries.keys] using length)
  exact same.symm.subset

/-- Objects are equal when all pairings of their entries agree. -/
theorem equal_object_iff_agrees {references candidates : Entries Key Value}
    (distinct : references.keys.Nodup) (distinctToo : candidates.keys.Nodup) :
    (Value.object references).equal (.object candidates) = true ↔
      ∀ pairing ∈ ofEntries references candidates, pairing.Agrees := by
  simp only [Value.equal, Bool.and_eq_true, beq_iff_eq, equalEntries_iff]
  constructor
  · rintro ⟨length, found⟩ pairing member
    have known := keys_subset_of_found found
    rcases mem_ofEntries_iff.1 member with
      ⟨key, value, held, absent, rfl⟩ | ⟨key, value, other, held, there, rfl⟩ |
        ⟨key, value, held, absent, rfl⟩
    · exact absurd (known (Entries.mem_keys_of_mem held)) (Entries.find?_eq_none_iff.1 absent)
    · obtain ⟨same, thereToo, equal⟩ := found (key, value) held
      rw [there] at thereToo
      cases thereToo
      exact equal
    · have knownBack := keys_subset_of_length_le distinct (Nat.le_of_eq length.symm) known
      exact absurd (knownBack (Entries.mem_keys_of_mem held)) (Entries.find?_eq_none_iff.1 absent)
  · intro agree
    have found : ∀ entry ∈ references, ∃ other, candidates.find? entry.1 = some other ∧
        entry.2.equal other = true := by
      rintro ⟨key, value⟩ held
      cases there : candidates.find? key with
      | none => exact (agree _ (mem_ofEntries_iff.2 (.inl ⟨key, value, held, there, rfl⟩))).elim
      | some other =>
        have paired : .both key.name value other ∈ ofEntries references candidates :=
          mem_ofEntries_iff.2 (.inr (.inl ⟨key, value, other, held, there, rfl⟩))
        exact ⟨other, rfl, agree _ paired⟩
    have known := keys_subset_of_found found
    have knownBack : candidates.keys ⊆ references.keys := by
      intro key inCandidates
      obtain ⟨⟨key, value⟩, held, rfl⟩ := List.mem_map.1 inCandidates
      by_contra absent
      exact agree _ (mem_ofEntries_iff.2 (.inr (.inr
        ⟨key, value, held, Entries.find?_eq_none_iff.2 absent, rfl⟩)))
    refine ⟨?_, found⟩
    have atMost := (List.subperm_of_subset distinct known).length_le
    have atLeast := (List.subperm_of_subset distinctToo knownBack).length_le
    simp only [Entries.keys, List.length_map] at atMost atLeast
    exact Nat.le_antisymm atMost atLeast

end Pairing

namespace Comparison

/-- Scalars are compared by equality where nothing is done to them before. -/
theorem compareScalars_default (path : Path) (reference candidate : Value) :
    (compareScalars .default path reference candidate).differences = [] ↔
      reference.equal candidate = true := by
  have untouched : ∀ value, prepared .default path value = value := fun value => rfl
  unfold compareScalars
  rw [untouched, untouched]
  split
  · rename_i equal
    simp [Trace.clean, equal]
  · rename_i different
    simp [Trace.found, different]

/-- A complete visit finds nothing exactly when the pairing agrees. -/
theorem visit_default {path : Path} {pairing : Pairing}
    (complete : (visit .default path pairing).failure = none)
    (inside : ∀ {step left right child}, pairing = .both step left right →
      path.join step = .ok child → (walk .default child left right).failure = none →
        ((walk .default child left right).differences = [] ↔ left.equal right = true)) :
    (visit .default path pairing).differences = [] ↔ pairing.Agrees := by
  have unfiltered : Policy.default.Unfiltered := ⟨rfl, rfl, rfl⟩
  obtain ⟨child, joined⟩ := exists_child_of_complete complete
  cases pairing with
  | missing step value =>
    rw [visit_missing joined, unfiltered.oneSided_eq_found]
    simp [Trace.found, Pairing.Agrees]
  | extra step value =>
    rw [visit_extra joined, unfiltered.oneSided_eq_found]
    simp [Trace.found, Pairing.Agrees]
  | both step left right =>
    rw [visit_both joined] at complete ⊢
    exact inside rfl joined complete

/-- A complete walk on default terms comes upon nothing exactly when the two values
are equal. -/
theorem walk_default (path : Path) (reference candidate : Value)
    (wellFormed : reference.WellFormed) (wellFormedToo : candidate.WellFormed)
    (complete : (walk .default path reference candidate).failure = none) :
    (walk .default path reference candidate).differences = [] ↔
      reference.equal candidate = true := by
  induction path, reference, candidate using walk_induction .default with
  | visited path reference candidate ih =>
    have unfiltered : Policy.default.Unfiltered := ⟨rfl, rfl, rfl⟩
    have positional : Policy.default.Positional := ⟨rfl, rfl, rfl⟩
    have shown := unfiltered.excludes_eq_false path
    -- Two containers agree when all of their pairings do; the sides differ in what makes
    -- all pairings agree.
    have descended : ∀ pairings, plan .default path reference candidate = .descend pairings →
        ((walk .default path reference candidate).differences = [] ↔
          ∀ pairing ∈ pairings, pairing.Agrees) := by
      intro pairings planned
      obtain ⟨visited, found⟩ := complete_of_descend shown planned complete
      rw [found, List.flatMap_eq_nil_iff]
      refine forall₂_congr fun pairing member => visit_default (visited pairing member) ?_
      rintro step left right child rfl joined inner
      have within := within_of_plan planned member
      exact ih planned member joined (wellFormed.of_mem_parts within.1)
        (wellFormedToo.of_mem_parts within.2) inner
    cases reference, candidate using Value.casesPair with
    | objects references candidates =>
      rw [descended _ (positional.plan_object path references candidates),
        Pairing.equal_object_iff_agrees wellFormed.1 wellFormedToo.1]
    | arrays references candidates =>
      rw [descended _ (positional.plan_array path references candidates), Value.equal,
        Pairing.equalItems_iff_agrees 0, Pairing.byPosition]
    | scalars reference candidate left right =>
      rw [walk_of_compareScalars shown (plan_of_scalars _ path left right)]
      exact compareScalars_default path reference candidate
    | shapes reference candidate different =>
      rw [walk_of_differInShape shown (plan_of_shape_ne _ path different)]
      simp [Value.equal_eq_false_of_shape_ne different, Trace.found]

/-- A comparison on default terms that does not fail finds nothing exactly when the
documents are equal. -/
theorem diff_isEmpty_iff_equal {reference candidate : Value} (wellFormed : reference.WellFormed)
    (wellFormedToo : candidate.WellFormed) {findings : Findings}
    (done : diff reference candidate = .ok findings) :
    findings.isEmpty = true ↔ reference.equal candidate = true := by
  obtain ⟨complete, items⟩ := complete_of_perform (show Policy.default.cutoff = none from rfl) done
  rw [← walk_default .root reference candidate wellFormed wellFormedToo complete, ← items]
  simp [Findings.isEmpty]

/-- The order of keys does not make objects differ, and neither does the form of a number. -/
theorem diff_isEmpty_reordered :
    diff (.object [(.text "a", .number (.int 1)), (.text "b", .array [])])
        (.object [(.text "b", .array []), (.text "a", .number (.uint 1))]) =
      .ok (Findings.empty none) ∧
    (Value.object [(.text "a", .number (.int 1)), (.text "b", .array [])]).equal
      (.object [(.text "b", .array []), (.text "a", .number (.uint 1))]) = true := by
  have done : diff (.object [(.text "a", .number (.int 1)), (.text "b", .array [])])
        (.object [(.text "b", .array []), (.text "a", .number (.uint 1))]) =
      .ok (Findings.empty none) := by
    cbv
  refine ⟨done, (diff_isEmpty_iff_equal ?_ ?_ done).1 rfl⟩
  · simp [Value.WellFormed, Value.WellFormedItems, Value.WellFormedEntries, Entries.keys]
  · simp [Value.WellFormed, Value.WellFormedItems, Value.WellFormedEntries, Entries.keys]

end Comparison

end StructuralDiff
