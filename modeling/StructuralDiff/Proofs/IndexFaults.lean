import Mathlib
import StructuralDiff.Comparison.Recording
import StructuralDiff.Proofs.UniquePaths

/-!
# The first fault of an array that is paired by a key

An item keeps its array from being indexed when it is no object, when it lacks the key, or
when an item before it has the same identity. An index looks at the items one after
another, so it fails with what is reported of the first such item, and the reference is
indexed before the candidate. Nothing is recorded until both arrays are indexed
(`Comparison.walk_reports_firstFault`).
-/

namespace StructuralDiff

namespace Pairing

variable {policy : Policy} {side : Side} {path : Path} {key : String}

/-- The item at a position keeps its array from being indexed. -/
inductive FaultyAt (policy : Policy) (key : String) (items : List Value) (position : Nat) :
    Prop where
  | notAnObject {item} (held : items[position]? = some item) (different : item.shape ≠ .object)
  | noSuchKey {entries} (held : items[position]? = some (.object entries))
      (lacking : policy.lookUp entries key = none)
  /-- An item before it has the same identity. -/
  | repeated {entries value earlier others other} (held : items[position]? = some (.object entries))
      (looked : policy.lookUp entries key = some value) (before : earlier < position)
      (heldToo : items[earlier]? = some (.object others))
      (lookedToo : policy.lookUp others key = some other)
      (same : policy.identity other = policy.identity value)

/-- The item at a position is the first that keeps its array from being indexed. -/
structure FirstFault (policy : Policy) (key : String) (items : List Value) (position : Nat) :
    Prop where
  faulty : FaultyAt policy key items position
  sound : ∀ earlier < position, ¬ FaultyAt policy key items earlier

/-- What is reported of an item that keeps its array from being indexed. An object that has
the key is at fault only when an item before it has the same identity, and then its path is
reported, if the step to it is a segment. -/
def reported (policy : Policy) (side : Side) (path : Path) (key : String) (position : Nat) :
    Value → ComparisonError
  | .object entries =>
    match policy.lookUp entries key with
    | none => .noSuchKey side position key (entries.map fun entry => entry.1.name)
    | some value =>
      match path.join (keyStep key value) with
      | .ok place => .duplicateKey side place
      | .error cause => .invalidStep cause
  | item => .notAnObject side position item.typeName

/-- If an item is at fault, then one is first. -/
theorem exists_firstFault {items : List Value} {position : Nat}
    (faulty : FaultyAt policy key items position) :
    ∃ first item, FirstFault policy key items first ∧ items[first]? = some item := by
  classical
  have atFault : ∃ position, FaultyAt policy key items position := ⟨position, faulty⟩
  have sound : ∀ earlier < Nat.find atFault, ¬ FaultyAt policy key items earlier :=
    fun earlier before => Nat.find_min atFault before
  cases Nat.find_spec atFault with
  | notAnObject held different => exact ⟨_, _, ⟨.notAnObject held different, sound⟩, held⟩
  | noSuchKey held lacking => exact ⟨_, _, ⟨.noSuchKey held lacking, sound⟩, held⟩
  | repeated held looked before heldToo lookedToo same =>
    exact ⟨_, _, ⟨.repeated held looked before heldToo lookedToo same, sound⟩, held⟩

/-- There is only one first item at fault. -/
theorem FirstFault.unique {items : List Value} {position other : Nat}
    (first : FirstFault policy key items position) (firstToo : FirstFault policy key items other) :
    position = other := by
  rcases Nat.lt_trichotomy position other with before | same | after
  · exact absurd first.faulty (firstToo.sound position before)
  · exact same
  · exact absurd firstToo.faulty (first.sound other after)

/-- An identity is among those of the first items when one of these items has it. -/
theorem mem_identity_keyedItems_iff {items : List Value} {identity : String} :
    identity ∈ (keyedItems policy key items).map Keyed.identity ↔
      ∃ (position : Nat) (entries : Entries Key Value) (value : Value),
        items[position]? = some (.object entries) ∧
        policy.lookUp entries key = some value ∧ policy.identity value = identity := by
  constructor
  · intro member
    obtain ⟨keyed, known, rfl⟩ := List.mem_map.1 member
    obtain ⟨item, held, shown⟩ := List.mem_filterMap.1 known
    obtain ⟨entries, rfl, looked, -, same⟩ := keyed?_eq_some_iff.1 shown
    obtain ⟨position, at_position⟩ := List.mem_iff_getElem?.1 held
    exact ⟨position, entries, keyed.keyValue, at_position, looked, same.symm⟩
  · rintro ⟨position, entries, value, held, looked, rfl⟩
    have shown : keyed? policy key (.object entries) =
        some ⟨policy.identity value, value, .object entries⟩ := by simp [keyed?, looked]
    exact List.mem_map.2 ⟨_, List.mem_filterMap.2 ⟨_, List.mem_of_getElem? held, shown⟩, rfl⟩

/-- The item after some items is at fault when it cannot be indexed on its own, or when its
identity is among theirs. -/
theorem faultyAt_length_iff {before rest : List Value} {item : Value} :
    FaultyAt policy key (before ++ item :: rest) before.length ↔
      ∀ keyed, keyed? policy key item = some keyed →
        keyed.identity ∈ (keyedItems policy key before).map Keyed.identity := by
  have here : (before ++ item :: rest)[before.length]? = some item := by simp
  constructor
  · intro faulty keyed shown
    obtain ⟨entries, rfl, looked, -, identity⟩ := keyed?_eq_some_iff.1 shown
    cases faulty with
    | notAnObject held different =>
      cases here.symm.trans held
      exact absurd rfl different
    | noSuchKey held lacking =>
      cases here.symm.trans held
      cases looked.symm.trans lacking
    | repeated held lookedHere earlier heldToo lookedToo same =>
      cases here.symm.trans held
      cases looked.symm.trans lookedHere
      rw [List.getElem?_append_left earlier] at heldToo
      rw [identity]
      exact mem_identity_keyedItems_iff.2 ⟨_, _, _, heldToo, lookedToo, same⟩
  · intro repeats
    cases item with
    | object entries =>
      cases looked : policy.lookUp entries key with
      | none => exact .noSuchKey here looked
      | some value =>
        have shown : keyed? policy key (.object entries) =
            some ⟨policy.identity value, value, .object entries⟩ := by simp [keyed?, looked]
        obtain ⟨earlier, others, other, held, lookedToo, same⟩ :=
          mem_identity_keyedItems_iff.1 (repeats _ shown)
        have sooner : earlier < before.length := (List.getElem?_eq_some_iff.1 held).1
        have heldToo : (before ++ .object entries :: rest)[earlier]? = some (.object others) := by
          rwa [List.getElem?_append_left sooner]
        exact .repeated here looked sooner heldToo lookedToo same
    | _ => exact .notAnObject here (by simp [Value.shape])

/-- An index that comes to an item at fault fails with what is reported of it. -/
theorem indexFrom_of_faulty {before rest : List Value} {item : Value}
    (faulty : FaultyAt policy key (before ++ item :: rest) before.length) :
    indexFrom policy side path key (keyedItems policy key before) before.length (item :: rest) =
      .error (reported policy side path key before.length item) := by
  have repeats := faultyAt_length_iff.1 faulty
  cases item with
  | object entries =>
    simp only [indexFrom, reported]
    cases looked : policy.lookUp entries key with
    | none => rfl
    | some value =>
      have known := repeats ⟨policy.identity value, value, .object entries⟩
        (by simp [keyed?, looked])
      have found : ((keyedItems policy key before).any fun other =>
          other.identity == policy.identity value) = true := by simpa using known
      simp only [found, if_true]
      cases path.join (keyStep key value) <;> rfl
  | _ => rfl

/-- An index that comes to any other item goes on behind it. -/
theorem indexFrom_of_sound {before rest : List Value} {item : Value}
    (sound : ¬ FaultyAt policy key (before ++ item :: rest) before.length) :
    indexFrom policy side path key (keyedItems policy key before) before.length (item :: rest) =
      indexFrom policy side path key (keyedItems policy key (before ++ [item]))
        (before ++ [item]).length rest := by
  rw [faultyAt_length_iff] at sound
  push Not at sound
  obtain ⟨keyed, shown, fresh⟩ := sound
  have further : keyedItems policy key (before ++ [item]) =
      keyedItems policy key before ++ [keyed] := by
    simp [keyedItems, shown]
  rw [further, List.length_append, List.length_singleton]
  cases item with
  | object entries =>
    cases looked : policy.lookUp entries key with
    | none => simp [keyed?, looked] at shown
    | some value =>
      simp only [keyed?, looked, Option.map_some, Option.some.injEq] at shown
      subst shown
      have unknown : ((keyedItems policy key before).any fun other =>
          other.identity == policy.identity value) = false := by simpa using fresh
      simp only [indexFrom, looked, unknown, Bool.false_eq_true, if_false]
  | _ => simp [keyed?] at shown

/-- An index fails with what is reported of the first item at fault. By induction on the
items that are left: those before hold none that is at fault. -/
theorem indexFrom_of_firstFault (before : List Value) {rest : List Value} {position : Nat}
    {item : Value} (first : FirstFault policy key (before ++ rest) position)
    (later : before.length ≤ position) (held : (before ++ rest)[position]? = some item) :
    indexFrom policy side path key (keyedItems policy key before) before.length rest =
      .error (reported policy side path key position item) := by
  induction rest generalizing before with
  | nil =>
    have inside := (List.getElem?_eq_some_iff.1 held).1
    rw [List.append_nil] at inside
    omega
  | cons next rest ih =>
    rcases Nat.eq_or_lt_of_le later with here | after
    · subst here
      have same : next = item := by simpa using held
      subst same
      exact indexFrom_of_faulty first.faulty
    · have split : before ++ next :: rest = (before ++ [next]) ++ rest := by simp
      rw [indexFrom_of_sound (first.sound _ after)]
      rw [split] at first held
      exact ih (before ++ [next]) first (by simpa using after) held

/-- Items of which none is at fault are all indexed. -/
theorem indexFrom_of_forall_sound (before : List Value) {rest : List Value}
    (sound : ∀ position, ¬ FaultyAt policy key (before ++ rest) position) :
    indexFrom policy side path key (keyedItems policy key before) before.length rest =
      .ok (keyedItems policy key (before ++ rest)) := by
  induction rest generalizing before with
  | nil => rw [List.append_nil, indexFrom]
  | cons next rest ih =>
    have split : before ++ next :: rest = (before ++ [next]) ++ rest := by simp
    rw [indexFrom_of_sound (sound _)]
    rw [split] at sound ⊢
    exact ih (before ++ [next]) sound

/-- An array with an item at fault is not indexed; the first one is reported. -/
theorem index_of_firstFault (side : Side) (path : Path) {items : List Value} {position : Nat}
    {item : Value} (first : FirstFault policy key items position)
    (held : items[position]? = some item) :
    index policy side path key items = .error (reported policy side path key position item) :=
  indexFrom_of_firstFault [] first (Nat.zero_le _) held

/-- An array is indexed when none of its items is at fault. -/
theorem index_of_forall_sound (side : Side) (path : Path) {items : List Value}
    (sound : ∀ position, ¬ FaultyAt policy key items position) :
    index policy side path key items = .ok (keyedItems policy key items) :=
  indexFrom_of_forall_sound [] sound

end Pairing

namespace Trace

/-- A sequence fails as one of its traces does. -/
theorem exists_of_failure_sequence {traces : List Trace} {error : ComparisonError}
    (failed : (sequence traces).failure = some error) :
    ∃ trace ∈ traces, trace.failure = some error := by
  induction traces with
  | nil => cases failed
  | cons trace traces ih =>
    rw [sequence_cons] at failed
    cases failure : trace.failure with
    | some cause =>
      rw [append_of_failed failure] at failed
      exact ⟨trace, List.mem_cons_self, failed⟩
    | none =>
      rw [append_of_complete failure] at failed
      obtain ⟨other, known, failedToo⟩ := ih failed
      exact ⟨other, List.mem_cons_of_mem _ known, failedToo⟩

end Trace

namespace Comparison

open Pairing

variable {policy : Policy} {path : Path} {key : String}

/-- Two values at a path cannot be compared: the walk comes upon nothing but the failure, and
nothing is recorded. -/
def FailsAtOnce (policy : Policy) (path : Path) (reference candidate : Value)
    (error : ComparisonError) : Prop :=
  walk policy path reference candidate = .failed error ∧
    ∀ findings, record policy path reference candidate findings = .error (.failed error)

/-- Where two values cannot be compared, the comparison fails at once. -/
theorem failsAtOnce_of_fail {reference candidate : Value} {error : ComparisonError}
    (shown : policy.excludes path = false)
    (planned : plan policy path reference candidate = .fail error) :
    FailsAtOnce policy path reference candidate error := by
  have failed := walk_of_fail shown planned
  refine ⟨failed, fun findings => ?_⟩
  rw [record_eq_recordInto, failed]
  rfl

/-- The plan for two arrays is to fail where their pairing does. -/
theorem plan_of_byKey_error {references candidates : List Value} {error : ComparisonError}
    (keyed : policy.keyFor path = .ok (some key))
    (failed : byKey policy path key references candidates = .error error) :
    plan policy path (.array references) (.array candidates) = .fail error := by
  simp only [plan, ofItems, keyed, failed]

/-- A visit fails because its step is no segment, or as the comparison of its two values
does. -/
theorem step_or_inner_of_failure_visit {pairing : Pairing} {error : ComparisonError}
    (failed : (visit policy path pairing).failure = some error) :
    (∃ cause, path.join pairing.step = .error cause ∧ error = .invalidStep cause) ∨
      ∃ step left right child, pairing = .both step left right ∧ path.join step = .ok child ∧
        (walk policy child left right).failure = some error := by
  cases joined : path.join pairing.step with
  | error cause =>
    rw [visit_of_error joined] at failed
    exact .inl ⟨cause, rfl, (Option.some.inj failed).symm⟩
  | ok child =>
    cases pairing with
    | missing step value =>
      rw [visit_missing joined, failure_oneSided] at failed
      cases failed
    | extra step value =>
      rw [visit_extra joined, failure_oneSided] at failed
      cases failed
    | both step left right =>
      rw [visit_both joined] at failed
      exact .inr ⟨step, left, right, child, rfl, joined, failed⟩

/-- Two arrays that are paired by a key fail at once with what is reported of the first item
of the reference that is at fault, or of the candidate where the reference has none. Where
neither has one, the items are paired, and the comparison only fails at a step that is no
segment or where two items are compared. -/
theorem walk_reports_firstFault (shown : policy.excludes path = false)
    (keyed : policy.keyFor path = .ok (some key)) (references candidates : List Value) :
    ((∃ position, FaultyAt policy key references position) →
      ∃ position item, FirstFault policy key references position ∧
        references[position]? = some item ∧
        FailsAtOnce policy path (.array references) (.array candidates)
          (reported policy .reference path key position item)) ∧
    ((∀ position, ¬ FaultyAt policy key references position) →
      (∃ position, FaultyAt policy key candidates position) →
      ∃ position item, FirstFault policy key candidates position ∧
        candidates[position]? = some item ∧
        FailsAtOnce policy path (.array references) (.array candidates)
          (reported policy .candidate path key position item)) ∧
    ((∀ position, ¬ FaultyAt policy key references position) →
      (∀ position, ¬ FaultyAt policy key candidates position) →
      ∃ pairings, plan policy path (.array references) (.array candidates) = .descend pairings ∧
        ∀ error, (walk policy path (.array references) (.array candidates)).failure = some error →
          ∃ pairing ∈ pairings,
            (∃ cause, path.join pairing.step = .error cause ∧ error = .invalidStep cause) ∨
            ∃ step left right child, pairing = .both step left right ∧ left ∈ references ∧
              right ∈ candidates ∧ path.join step = .ok child ∧
              (walk policy child left right).failure = some error) := by
  refine ⟨?references, ?candidates, ?neither⟩
  case references =>
    rintro ⟨position, faulty⟩
    obtain ⟨first, item, isFirst, held⟩ := exists_firstFault faulty
    have failed := index_of_firstFault .reference path isFirst held
    have failedToo : byKey policy path key references candidates =
        .error (reported policy .reference path key first item) := by
      rw [byKey, failed]
      rfl
    have planned := plan_of_byKey_error keyed failedToo
    exact ⟨first, item, isFirst, held, failsAtOnce_of_fail shown planned⟩
  case candidates =>
    rintro sound ⟨position, faulty⟩
    obtain ⟨first, item, isFirst, held⟩ := exists_firstFault faulty
    have indexed := index_of_forall_sound .reference path sound
    have failed := index_of_firstFault .candidate path isFirst held
    have failedToo : byKey policy path key references candidates =
        .error (reported policy .candidate path key first item) := by
      rw [byKey, indexed, failed]
      rfl
    have planned := plan_of_byKey_error keyed failedToo
    exact ⟨first, item, isFirst, held, failsAtOnce_of_fail shown planned⟩
  case neither =>
    intro sound soundToo
    have indexed := index_of_forall_sound .reference path sound
    have indexedToo := index_of_forall_sound .candidate path soundToo
    obtain ⟨pairings, paired⟩ : ∃ pairings,
        byKey policy path key references candidates = .ok pairings :=
      ⟨_, byKey_eq_ok_iff.2
        ⟨(index_eq_ok_iff.1 indexed).1, (index_eq_ok_iff.1 indexedToo).1, rfl⟩⟩
    have planned : plan policy path (.array references) (.array candidates) =
        .descend pairings := by
      simp only [plan, ofItems, keyed, paired]
    refine ⟨_, planned, fun error failed => ?_⟩
    rw [walk_of_descend shown planned] at failed
    obtain ⟨trace, known, failedHere⟩ := Trace.exists_of_failure_sequence failed
    obtain ⟨pairing, inPlan, rfl⟩ := List.mem_map.1 known
    refine ⟨pairing, inPlan, ?_⟩
    rcases step_or_inner_of_failure_visit failedHere with
      noSegment | ⟨step, left, right, child, rfl, joined, inner⟩
    · exact .inl noSegment
    · have within := within_of_plan planned inPlan
      exact .inr ⟨step, left, right, child, rfl, within.1, within.2, joined, inner⟩

/-- Items of which the second is no object and the last two have one identity. -/
def faultyItems : List Value :=
  [.object [(.text "id", .number (.int 1))], .text "x", .object [(.text "no", .null)],
    .object [(.text "id", .number (.int 1))]]

/-- Items of which the last has the identity of the first, in another form. -/
def repeatedItems : List Value :=
  [.object [(.text "id", .number (.int 1))], .object [(.text "id", .number (.uint 2))],
    .object [(.text "id", .number (.uint 1))]]

/-- The first fault of the reference is reported whatever the candidate holds, and the
repeated item of the candidate only where the reference has no fault. -/
theorem walk_reports_firstFault_twice :
    FailsAtOnce pairedByIdentifier .root (.array faultyItems) (.array repeatedItems)
      (.notAnObject .reference 1 "string") ∧
    FailsAtOnce pairedByIdentifier .root (.array []) (.array repeatedItems)
      (.duplicateKey .candidate ⟨[.keyValue "id" "1"]⟩) := by
  have shown : pairedByIdentifier.excludes .root = false := rfl
  have keyed : pairedByIdentifier.keyFor .root = .ok (some "id") := by cbv
  -- An item with a key value of a new identity is not at fault.
  have sound : ∀ (before rest : List Value) (value : Value),
      pairedByIdentifier.identity value ∉
        (keyedItems pairedByIdentifier "id" before).map Keyed.identity →
      ¬ FaultyAt pairedByIdentifier "id" (before ++ .object [(.text "id", value)] :: rest)
        before.length := by
    intro before rest value fresh faulty
    exact fresh (faultyAt_length_iff.1 faulty ⟨_, value, _⟩ rfl)
  constructor
  · have second : FirstFault pairedByIdentifier "id" faultyItems 1 := by
      refine ⟨.notAnObject rfl (by decide), fun earlier before => ?_⟩
      obtain rfl : earlier = 0 := by omega
      exact sound [] _ _ List.not_mem_nil
    obtain ⟨position, item, first, held, fails⟩ :=
      (walk_reports_firstFault shown keyed faultyItems repeatedItems).1 ⟨1, second.faulty⟩
    cases first.unique second
    cases held
    exact fails
  · have third : FirstFault pairedByIdentifier "id" repeatedItems 2 := by
      refine ⟨.repeated rfl rfl (by decide : 0 < 2) rfl rfl (by cbv), fun earlier before => ?_⟩
      obtain rfl | rfl : earlier = 0 ∨ earlier = 1 := by omega
      · exact sound [] _ _ List.not_mem_nil
      · have apart : pairedByIdentifier.identity (.number (.uint 2)) ∉
            (keyedItems pairedByIdentifier "id" [.object [(.text "id", .number (.int 1))]]).map
              Keyed.identity := by
          decide +kernel
        exact sound [_] _ _ apart
    have none : ∀ position, ¬ FaultyAt pairedByIdentifier "id" [] position := by
      intro position faulty
      cases faulty with
      | notAnObject held different => cases held
      | noSuchKey held lacking => cases held
      | repeated held looked before heldToo lookedToo same => cases held
    obtain ⟨position, item, first, held, fails⟩ :=
      (walk_reports_firstFault shown keyed [] repeatedItems).2.1 none ⟨2, third.faulty⟩
    cases first.unique third
    cases held
    have told : reported pairedByIdentifier .candidate .root "id" 2
        (.object [(.text "id", .number (.uint 1))]) =
          .duplicateKey .candidate ⟨[.keyValue "id" "1"]⟩ := by
      cbv
    exact told ▸ fails

end Comparison

end StructuralDiff
