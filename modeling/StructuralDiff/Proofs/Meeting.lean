import StructuralDiff.Comparison.Recording
import StructuralDiff.Policy.Draft
import StructuralDiff.Proofs.Position

/-!
# The pairs of values that a comparison meets

A comparison of two documents starts with the documents and goes on to the pairs of
values that it reads off containers. What holds of the documents as a whole is handed
down to every pair. When no key and no value by which items are paired holds a
separator, no step does (`stepsClear`), and the path of everything that comes up can be
read back (`exists_path_of_mem_walk`).
-/

namespace StructuralDiff

namespace Comparison

variable {policy : Policy} {reference candidate : Value}

/-- Two values stand at a path for each other when two documents are compared. -/
inductive Meets (policy : Policy) (reference candidate : Value) : Path → Value → Value → Prop where
  | start : Meets policy reference candidate .root reference candidate
  | onward {path child left right first second pairings step}
      (above : Meets policy reference candidate path left right)
      (shown : policy.excludes path = false)
      (planned : plan policy path left right = .descend pairings)
      (member : .both step first second ∈ pairings) (joined : path.join step = .ok child) :
      Meets policy reference candidate child first second

/-- What containers hand down to what is inside them, two documents hand down to values
that meet. -/
theorem Meets.of_parts {property : Value → Prop}
    (inherited : ∀ value, property value → ∀ part ∈ value.parts, property part)
    (references : property reference) (candidates : property candidate) {path : Path}
    {left right : Value} (meets : Meets policy reference candidate path left right) :
    property left ∧ property right := by
  induction meets with
  | start => exact ⟨references, candidates⟩
  | onward above shown planned member joined ih =>
    have within := within_of_plan planned member
    exact ⟨inherited _ ih.1 _ within.1, inherited _ ih.2 _ within.2⟩

/-- Two arrays that stand for each other hold an item that is paired by a value. -/
def PairsItemsBy (policy : Policy) (reference candidate value : Value) : Prop :=
  ∃ path references candidates key entries,
    Meets policy reference candidate path (.array references) (.array candidates) ∧
    policy.keyFor path = .ok (some key) ∧
    .object entries ∈ references ++ candidates ∧
    policy.lookUp entries key = some value

/-- What containers hand down to what is inside them, two documents hand down to the
values by which items are paired. -/
theorem PairsItemsBy.of_parts {property : Value → Prop}
    (inherited : ∀ value, property value → ∀ part ∈ value.parts, property part)
    (references : property reference) (candidates : property candidate) {value : Value}
    (pairs : PairsItemsBy policy reference candidate value) : property value := by
  obtain ⟨path, lefts, rights, key, entries, meets, -, known, found⟩ := pairs
  obtain ⟨left, right⟩ := meets.of_parts inherited references candidates
  have item : property (.object entries) := by
    rcases List.mem_append.1 known with inLeft | inRight
    · exact inherited _ left _ inLeft
    · exact inherited _ right _ inRight
  exact inherited _ item _ (Policy.mem_of_lookUp found)

/-- No step below a pair that meets holds a separator. -/
def StepsClear (policy : Policy) (reference candidate : Value) : Prop :=
  ∀ ⦃path left right pairings⦄, Meets policy reference candidate path left right →
    plan policy path left right = .descend pairings →
    ∀ pairing ∈ pairings, '/' ∉ pairing.step.toList

/-- Where no step holds a separator, the paths to all pairs can be read back. -/
theorem Meets.legible {path : Path} {left right : Value}
    (meets : Meets policy reference candidate path left right)
    (clear : StepsClear policy reference candidate) : path.Legible := by
  induction meets with
  | start => exact Path.root_legible
  | onward above shown planned member joined ih =>
    exact ih.join joined (clear above planned _ member)

/-- Everything that comes up when two values are compared is at their path or under it,
and its path can be read back. -/
theorem exists_path_of_mem_walk (clear : StepsClear policy reference candidate)
    {path : Path} {left right : Value}
    (meets : Meets policy reference candidate path left right) {difference : Difference}
    (member : difference ∈ (walk policy path left right).differences) :
    ∃ place : Path, place.Legible ∧ path.segments <+: place.segments ∧
      difference.path = place.text := by
  induction path, left, right using walk_induction policy with
  | visited path left right ih =>
    have legible := meets.legible clear
    revert member
    refine walk_cases ?leftOut ?fails ?differs ?compares ?descends
    case leftOut => exact fun _ member => absurd member List.not_mem_nil
    case fails => exact fun _ _ _ member => absurd member List.not_mem_nil
    case differs =>
      intro _ _ member
      rw [List.mem_singleton.1 member]
      exact ⟨path, legible, List.prefix_refl _, rfl⟩
    case compares =>
      intro _ _ member
      exact ⟨path, legible, List.prefix_refl _, path_of_mem_compareScalars member⟩
    case descends =>
      intro pairings shown planned member
      obtain ⟨trace, known, here⟩ := Trace.exists_of_mem_sequence member
      obtain ⟨pairing, inPlan, rfl⟩ := List.mem_map.1 known
      have stepClear := clear meets planned pairing inPlan
      obtain ⟨child, joined, came⟩ := exists_child_of_mem_visit here
      have childLegible := legible.join joined stepClear
      -- One step further on, every path still starts with this one.
      have further : path.segments <+: child.segments := by
        obtain ⟨segment, -, rfl⟩ := Path.join_eq_ok_iff.1 joined
        exact List.prefix_append _ _
      rcases came with written | ⟨step, first, second, rfl, found⟩
      · exact ⟨child, childLegible, further, written⟩
      · have onward := meets.onward shown planned inPlan joined
        obtain ⟨place, placeLegible, under, written⟩ := ih planned inPlan joined onward found
        exact ⟨place, placeLegible, further.trans under, written⟩

end Comparison

namespace Policy

variable {policy : Policy}

/-- The key by which items are paired holds no separator when the patterns were read. -/
theorem notMem_of_keyFor {path : Path} {key : String}
    (legible : ∀ pattern ∈ policy.matchByKey, pattern.Legible)
    (keyed : policy.keyFor path = .ok (some key)) : '/' ∉ key.toList := by
  obtain ⟨pattern, known, segment, member, named⟩ := exists_segment_of_keyFor keyed
  intro inside
  exact (legible pattern known segment member).2 (Segment.mem_text_of_mem_key named inside)

end Policy

/-- The patterns for matching by key in the policy of a draft were read from texts. -/
theorem Draft.legible_of_mem_matchByKey {draft : Draft} {policy : Policy}
    (built : draft.build = .ok policy) : ∀ pattern ∈ policy.matchByKey, pattern.Legible := by
  intro pattern member
  exact Setting.legible_of_mem_patternsOfAll (build_eq_ok_iff.1 built).matchByKey member

namespace Pairing

/-- The step to paired entries is a key of one of them. -/
theorem exists_key_of_mem_ofEntries {references candidates : Entries Key Value}
    {pairing : Pairing} (member : pairing ∈ ofEntries references candidates) :
    ∃ entry ∈ references ++ candidates, pairing.step = entry.1.name := by
  rcases mem_ofEntries_iff.1 member with
    ⟨key, value, known, -, rfl⟩ | ⟨key, value, other, known, -, rfl⟩ | ⟨key, value, known, -, rfl⟩
  · exact ⟨_, List.mem_append_left _ known, rfl⟩
  · exact ⟨_, List.mem_append_left _ known, rfl⟩
  · exact ⟨_, List.mem_append_right _ known, rfl⟩

/-- The step to items that are paired by position is a position. -/
theorem exists_position_of_mem_byPositionFrom {position : Nat} {references candidates : List Value}
    {pairing : Pairing} (member : pairing ∈ byPositionFrom position references candidates) :
    ∃ place, pairing.step = positionStep place := by
  fun_induction byPositionFrom position references candidates with
  | case1 => cases member
  | case2 position reference references ih | case3 position candidate candidates ih
  | case4 position reference references candidate candidates ih =>
    rcases List.mem_cons.1 member with rfl | later
    · exact ⟨position, rfl⟩
    · exact ih later

/-- The step to a position has only digits. -/
theorem notMem_positionStep (position : Nat) : '/' ∉ (positionStep position).toList :=
  (Position.Step.item_isPlain (position + 1)).1

/-- The step to a position is the name of a segment. -/
theorem read_positionStep (position : Nat) :
    Segment.read (positionStep position) = .ok (.plain (positionStep position)) := by
  refine Segment.read_of_digits ?_ fun char member => Decimal.isDigit_of_mem_naturalText member
  simp [positionStep, Decimal.naturalText, Nat.toDigits_ne_nil]

end Pairing

namespace Comparison

variable {policy : Policy} {reference candidate : Value}

/-- The step to items that are paired by a key names the key and a value by which items
are paired. -/
theorem Meets.pairsItemsBy {path : Path} {lefts rights : List Value} {key : String}
    {pairings : List Pairing} {pairing : Pairing}
    (meets : Meets policy reference candidate path (.array lefts) (.array rights))
    (keyed : policy.keyFor path = .ok (some key))
    (paired : Pairing.byKey policy path key lefts rights = .ok pairings)
    (member : pairing ∈ pairings) :
    ∃ value, pairing.step = Pairing.keyStep key value ∧
      PairsItemsBy policy reference candidate value := by
  obtain ⟨leftIndex, rightIndex, indexed, indexedToo, taken⟩ := Pairing.byKey_eq_ok paired
  obtain ⟨entry, known, step, -⟩ := taken pairing member
  refine ⟨entry.keyValue, step, ?_⟩
  rcases List.mem_append.1 known with inLeft | inRight
  · obtain ⟨held, entries, object, found⟩ := Pairing.of_mem_index indexed inLeft
    rw [object] at held
    exact ⟨path, lefts, rights, key, entries, meets, keyed, List.mem_append_left _ held, found⟩
  · obtain ⟨held, entries, object, found⟩ := Pairing.of_mem_index indexedToo inRight
    rw [object] at held
    exact ⟨path, lefts, rights, key, entries, meets, keyed, List.mem_append_right _ held, found⟩

/-- The step to what two values are compared through is the key of an entry of one of them,
or a position, or names the key and a value by which items are paired. -/
theorem Meets.step_cases {path : Path} {left right : Value} {pairings : List Pairing}
    (meets : Meets policy reference candidate path left right)
    (planned : plan policy path left right = .descend pairings) {pairing : Pairing}
    (member : pairing ∈ pairings) :
    (∃ entries entry, (left = .object entries ∨ right = .object entries) ∧ entry ∈ entries ∧
      pairing.step = entry.1.name) ∨
    (∃ position, pairing.step = Pairing.positionStep position) ∨
    ∃ key value, policy.keyFor path = .ok (some key) ∧
      pairing.step = Pairing.keyStep key value ∧ PairsItemsBy policy reference candidate value := by
  unfold plan at planned
  split at planned
  · rename_i lefts rights
    cases planned
    obtain ⟨entry, known, step⟩ := Pairing.exists_key_of_mem_ofEntries member
    rw [step]
    rcases List.mem_append.1 known with inLeft | inRight
    · obtain ⟨other, held, same, -⟩ := Policy.of_mem_entries inLeft
      exact .inl ⟨lefts, other, .inl rfl, held, same.symm⟩
    · obtain ⟨other, held, same, -⟩ := Policy.of_mem_entries inRight
      exact .inl ⟨rights, other, .inr rfl, held, same.symm⟩
  · rename_i lefts rights
    cases paired : Pairing.ofItems policy path lefts rights with
    | error error => simp [paired] at planned
    | ok found =>
      simp only [paired, Plan.descend.injEq] at planned
      subst planned
      unfold Pairing.ofItems at paired
      split at paired
      · cases paired
      · rename_i key keyed
        obtain ⟨value, step, pairs⟩ := meets.pairsItemsBy keyed paired member
        exact .inr (.inr ⟨key, value, keyed, step, pairs⟩)
      · split at paired
        · exact .inr (.inl (Pairing.byValue_eq_ok paired member).1)
        · cases paired
          exact .inr (.inl (Pairing.exists_position_of_mem_byPositionFrom member))
  · split at planned <;> cases planned

/-- What holds of every key in two documents holds of the keys of values that meet. -/
theorem Meets.of_mem_entries {property : Key → Prop} (references : reference.EveryKey property)
    (candidates : candidate.EveryKey property) {path : Path} {left right : Value}
    (meets : Meets policy reference candidate path left right) {entries : Entries Key Value}
    (object : left = .object entries ∨ right = .object entries) {entry : Key × Value}
    (member : entry ∈ entries) : property entry.1 := by
  obtain ⟨leftKeys, rightKeys⟩ := meets.of_parts
    (fun value everyKey part inside => Value.EveryKey.of_mem_parts everyKey inside)
    references candidates
  rcases object with rfl | rfl
  · exact leftKeys.of_mem member
  · exact rightKeys.of_mem member

/-- No step holds a separator when no key does, neither in the documents nor in the
patterns, and no value by which items are paired. -/
theorem stepsClear (legible : ∀ pattern ∈ policy.matchByKey, pattern.Legible)
    (references : reference.EveryKey fun key => '/' ∉ key.name.toList)
    (candidates : candidate.EveryKey fun key => '/' ∉ key.name.toList)
    (values : ∀ value, PairsItemsBy policy reference candidate value →
      '/' ∉ value.segmentText.toList) : StepsClear policy reference candidate := by
  intro path left right pairings meets planned pairing member
  rcases meets.step_cases planned member with
    ⟨entries, entry, object, held, step⟩ | ⟨position, step⟩ | ⟨key, value, keyed, step, pairs⟩
  · rw [step]
    exact meets.of_mem_entries references candidates object held
  · rw [step]
    exact Pairing.notMem_positionStep position
  · have keyClear := Policy.notMem_of_keyFor legible keyed
    have valueClear := values value pairs
    rw [step, Pairing.keyStep]
    simp [keyClear, valueClear]

end Comparison

end StructuralDiff
