import Mathlib
import StructuralDiff.Policy.Normalizer
import StructuralDiff.Proofs.SwappedPairing

/-!
# A document compared with itself

A document without NaN has no differences from itself, whatever the policy. However the
policy pairs what is inside a container, every value is paired with itself, and a value
that claims the first equal one claims itself. So the walk only ever compares a value with
itself, and comes upon nothing.
-/

namespace StructuralDiff

namespace Number

/-- A number stands for a value: it is not one of the patterns that stand for no number. -/
def HasValue : Number → Prop
  | .float value => value.isNaN = false
  | _ => True

/-- The numbers that stand for a value are those that equal themselves. -/
theorem equal_self_iff {number : Number} : number.equal number = true ↔ number.HasValue := by
  cases number with
  | int value => simp [equal, wholeValue, HasValue]
  | uint value => simp [equal, wholeValue, HasValue]
  | float value =>
    unfold equal
    cases whole : (Number.float value).wholeValue with
    | none => simp [toBinary64, Binary64.equal, HasValue]
    | some integer =>
      -- What has a fraction that can be tested is finite.
      have finite : value.isFinite = true := by
        by_contra notFinite
        simp [wholeValue, Binary64.isWhole, notFinite] at whole
      have hasValue : value.isNaN = false := by
        simp only [Binary64.isFinite, decide_eq_true_eq] at finite
        simp only [Binary64.isNaN, decide_eq_false_iff_not]
        omega
      simp [HasValue, hasValue]

end Number

/-- A scalar without NaN equals itself. -/
theorem Value.equal_self_of_isScalar {value : Value} (scalar : value.isScalar)
    (hasValues : value.EveryNumber Number.HasValue) : value.equal value = true := by
  cases value with
  | array items => cases scalar
  | object entries => cases scalar
  | number number => exact Number.equal_self_iff.2 hasValues
  | _ => simp [equal]

namespace Policy

/-- What a normalizer makes of a scalar without NaN equals itself. -/
def NormalizesFaithfully (policy : Policy) : Prop :=
  ∀ entry ∈ policy.normalizers, ∀ value : Value, value.isScalar →
    value.EveryNumber Number.HasValue → (entry.2 value).equal (entry.2 value) = true

/-- A scalar without NaN is one value with itself when items are paired by value. -/
theorem scalarsEqual_self (policy : Policy) {value : Value} (scalar : value.isScalar)
    (hasValues : value.EveryNumber Number.HasValue) : policy.scalarsEqual value value = true := by
  unfold scalarsEqual
  split
  · exact Value.equal_self_of_isScalar (Value.isScalar_canonicalScalar scalar)
      hasValues.canonicalScalar
  · exact Value.equal_self_of_isScalar scalar hasValues

end Policy

namespace Pairing

/-- The two sides of a pairing are there and are one value. -/
def IsReflexive : Pairing → Prop
  | .both _ left right => left = right
  | _ => False

/-- The entries of an object are paired with themselves. -/
theorem isReflexive_of_mem_ofEntries {entries : Entries Key Value} (distinct : entries.keys.Nodup)
    {pairing : Pairing} (member : pairing ∈ ofEntries entries entries) : pairing.IsReflexive := by
  have known : ∀ {key value}, (key, value) ∈ entries → entries.find? key = some value :=
    fun held => Entries.find?_of_mem distinct held
  rcases mem_ofEntries_iff.1 member with
    ⟨key, value, held, absent, rfl⟩ | ⟨key, value, other, held, found, rfl⟩ |
      ⟨key, value, held, absent, rfl⟩
  · cases absent.symm.trans (known held)
  · exact Option.some.inj ((known held).symm.trans found)
  · cases absent.symm.trans (known held)

/-- The items of an array are paired with themselves by position. -/
theorem isReflexive_of_mem_byPositionFrom {position : Nat} {items : List Value} {pairing : Pairing}
    (member : pairing ∈ byPositionFrom position items items) : pairing.IsReflexive := by
  induction items generalizing position with
  | nil => simp [byPositionFrom] at member
  | cons item items ih =>
    rw [byPositionFrom] at member
    rcases List.mem_cons.1 member with rfl | later
    · rfl
    · exact ih later

/-- The items of an array are paired with themselves by a key. -/
theorem isReflexive_of_mem_byKey {policy : Policy} {path : Path} {key : String} {items : List Value}
    {pairings : List Pairing} (paired : byKey policy path key items items = .ok pairings)
    {pairing : Pairing} (member : pairing ∈ pairings) : pairing.IsReflexive := by
  obtain ⟨-, -, rfl⟩ := byKey_eq_ok_iff.1 paired
  obtain ⟨keyed, -, shown⟩ := List.mem_filterMap.1 member
  unfold ofKeyed at shown
  cases found : findKeyed keyed.identity (keyedItems policy key items) with
  | none => simp [found] at shown
  | some held =>
    simp only [found, Option.some.injEq] at shown
    subst shown
    rfl

/-- Values that each are one value with themselves all find an equal one among themselves:
the first claims the first, and the others are left to the others. -/
theorem unclaimed_self {policy : Policy} {entries : Positioned}
    (reflexive : ∀ entry ∈ entries, policy.scalarsEqual entry.2 entry.2 = true) :
    unclaimed policy entries entries = ([], []) := by
  induction entries with
  | nil => rfl
  | cons entry entries ih =>
    obtain ⟨position, value⟩ := entry
    have here : policy.scalarsEqual value value = true := reflexive _ List.mem_cons_self
    have later := ih fun other member => reflexive other (List.mem_cons_of_mem _ member)
    simp only [unclaimed, claim?, here, if_true, later]

/-- An array that is paired with itself by value leaves nothing over. -/
theorem eq_nil_of_byValue_self {policy : Policy} {path : Path} {items : List Value}
    (hasValues : ∀ item ∈ items, item.EveryNumber Number.HasValue) {pairings : List Pairing}
    (paired : byValue policy path items items = .ok pairings) : pairings = [] := by
  unfold byValue at paired
  split at paired
  · rename_i scalars
    have scalar : ∀ item ∈ items, item.isScalar := by simpa using scalars
    have reflexive : ∀ entry ∈ positioned items, policy.scalarsEqual entry.2 entry.2 = true := by
      intro entry member
      have known := mem_of_mem_positioned member
      exact policy.scalarsEqual_self (scalar _ known) (hasValues _ known)
    simp only [unclaimed_self reflexive, List.map_nil, List.append_nil, Except.ok.injEq] at paired
    exact paired.symm
  · cases paired

/-- However the items of an array are paired with the items of the same array, each is
paired with itself. -/
theorem isReflexive_of_mem_ofItems {policy : Policy} {path : Path} {items : List Value}
    (hasValues : ∀ item ∈ items, item.EveryNumber Number.HasValue) {pairings : List Pairing}
    (paired : ofItems policy path items items = .ok pairings) {pairing : Pairing}
    (member : pairing ∈ pairings) : pairing.IsReflexive := by
  unfold ofItems at paired
  split at paired
  · cases paired
  · exact isReflexive_of_mem_byKey paired member
  · split at paired
    · rw [eq_nil_of_byValue_self hasValues paired] at member
      cases member
    · cases paired
      exact isReflexive_of_mem_byPositionFrom member

end Pairing

namespace Comparison

variable {policy : Policy}

/-- What is inside a container is paired with itself when the container is compared with
itself. -/
theorem isReflexive_of_plan {path : Path} {value : Value} (wellFormed : value.WellFormed)
    (hasValues : value.EveryNumber Number.HasValue) {pairings : List Pairing}
    (planned : plan policy path value value = .descend pairings) {pairing : Pairing}
    (member : pairing ∈ pairings) : pairing.IsReflexive := by
  cases value with
  | object entries =>
    cases planned
    exact Pairing.isReflexive_of_mem_ofEntries (policy.nodup_keys_entries wellFormed.1) member
  | array items =>
    simp only [plan] at planned
    split at planned
    · rename_i paired
      cases planned
      exact Pairing.isReflexive_of_mem_ofItems
        (fun item known => hasValues.of_mem_parts known) paired member
    · cases planned
  | _ => cases planned

/-- A scalar without NaN enters the comparison as a value that equals itself. -/
theorem prepared_equal_self (faithful : policy.NormalizesFaithfully) (path : Path) {value : Value}
    (scalar : value.isScalar) (hasValues : value.EveryNumber Number.HasValue) :
    (prepared policy path value).equal (prepared policy path value) = true := by
  have plain : (if policy.indifferentValues then value.canonicalScalar else value).isScalar := by
    split
    · exact Value.isScalar_canonicalScalar scalar
    · exact scalar
  have hasValuesToo : (if policy.indifferentValues then value.canonicalScalar
      else value).EveryNumber Number.HasValue := by
    split
    · exact hasValues.canonicalScalar
    · exact hasValues
  unfold prepared
  cases chosen : policy.normalizerFor path with
  | none => exact Value.equal_self_of_isScalar plain hasValuesToo
  | some normalizer =>
    obtain ⟨entry, found, rfl⟩ := Option.map_eq_some_iff.1 chosen
    exact faithful entry (List.mem_of_find?_eq_some found) _ plain hasValuesToo

/-- The comparison of a value with itself comes upon nothing, also when it fails further on.
By induction along the walk, which goes on from a value only to what is inside it, on both
sides the same. -/
theorem notMem_walk_self (faithful : policy.NormalizesFaithfully) {path : Path} {value : Value}
    (wellFormed : value.WellFormed) (hasValues : value.EveryNumber Number.HasValue)
    (difference : Difference) : difference ∉ (walk policy path value value).differences := by
  suffices alike : ∀ other, value = other →
      difference ∉ (walk policy path value other).differences from alike value rfl
  intro other same
  induction path, value, other using walk_induction policy with
  | visited path value other ih =>
    subst same
    refine walk_cases ?leftOut ?fails ?differs ?compares ?descends
    case leftOut => exact fun _ => List.not_mem_nil
    case fails => exact fun _ _ _ => List.not_mem_nil
    case differs => exact fun _ planned => absurd rfl (shape_ne_of_differInShape planned)
    case compares =>
      intro _ planned
      have scalar := (isScalar_of_compareScalars planned).1
      rw [compareScalars, if_pos (prepared_equal_self faithful path scalar hasValues)]
      exact List.not_mem_nil
    case descends =>
      intro pairings shown planned member
      obtain ⟨trace, known, here⟩ := Trace.exists_of_mem_sequence member
      obtain ⟨pairing, inPlan, rfl⟩ := List.mem_map.1 known
      have reflexive := isReflexive_of_plan wellFormed hasValues planned inPlan
      obtain ⟨child, joined, -⟩ := exists_child_of_mem_visit here
      cases pairing with
      | missing step part => exact reflexive
      | extra step part => exact reflexive
      | both step left right =>
        cases reflexive
        have inside := (within_of_plan planned inPlan).1
        rw [visit_both joined] at here
        exact ih planned inPlan joined (wellFormed.of_mem_parts inside)
          (hasValues.of_mem_parts inside) rfl here

/-- A document without NaN has no differences from itself, whatever the policy leaves out,
pairs by a key or by value, overlooks, normalizes or limits. -/
theorem perform_self_isEmpty (faithful : policy.NormalizesFaithfully) {document : Value}
    (wellFormed : document.WellFormed) (hasValues : document.EveryNumber Number.HasValue)
    {findings : Findings} (done : perform policy document document = .ok findings) :
    findings.isEmpty = true := by
  have nothing : (walk policy .root document document).differences = [] :=
    List.eq_nil_iff_forall_not_mem.2 (notMem_walk_self faithful wellFormed hasValues)
  have items := items_prefix_of_perform done
  rw [nothing, List.prefix_nil] at items
  rw [Findings.isEmpty, items]
  rfl

/-- A document whose keys meet, with a list of one record and a list of tags that repeat. -/
def recordAndRepeatedTags : Value :=
  .object [
    (.scalar "1", .null), (.text "1", .text "a "),
    (.text "records", .array [.object [(.text "id", .number (.int 2)), (.text "n", .bool true)]]),
    (.text "tags", .array [.number (.int 1), .text "1", .number (.int 1)])]

/-- Records are paired by their identifiers and tags by value, spellings are overlooked, a
text is trimmed, and one difference is enough. -/
def everyTerm : Policy :=
  { Policy.default with
    failFast := true
    maxDepth := some 4
    matchByKey := [⟨[.plain "records", .keyExpression "id"]⟩]
    matchByValue := [⟨[.plain "tags"]⟩]
    indifferentKeys := true
    indifferentValues := true
    normalizers := [(⟨[.plain "1"]⟩, Normalizer.trimmed)] }

/-- However the containers are paired, nothing comes up. -/
theorem perform_self_repeatedTags :
    everyTerm.NormalizesFaithfully ∧ recordAndRepeatedTags.WellFormed ∧
      recordAndRepeatedTags.EveryNumber Number.HasValue ∧
      ∃ findings, perform everyTerm recordAndRepeatedTags recordAndRepeatedTags = .ok findings ∧
        findings.isEmpty = true := by
  have faithful : everyTerm.NormalizesFaithfully := by
    intro entry member value scalar hasValues
    cases List.mem_singleton.1 member
    cases value with
    | text content => simp [Normalizer.trimmed, Value.equal]
    | _ => exact Value.equal_self_of_isScalar scalar hasValues
  have wellFormed : recordAndRepeatedTags.WellFormed := by
    simp [recordAndRepeatedTags, Value.WellFormed, Value.WellFormedItems, Value.WellFormedEntries,
      Entries.keys]
  have hasValues : recordAndRepeatedTags.EveryNumber Number.HasValue := by
    simp [recordAndRepeatedTags, Value.EveryNumber, Value.EveryNumberOfItems,
      Value.EveryNumberOfEntries, Number.HasValue]
  have done : perform everyTerm recordAndRepeatedTags recordAndRepeatedTags =
      .ok (Findings.empty (some 1)) := by
    cbv
  exact ⟨faithful, wellFormed, hasValues, _, done,
    perform_self_isEmpty faithful wellFormed hasValues done⟩

end Comparison

end StructuralDiff
