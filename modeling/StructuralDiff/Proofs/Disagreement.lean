import Mathlib
import StructuralDiff.Proofs.PlainPolicies
import StructuralDiff.Proofs.Position

/-!
# What a comparison finds, position by position

Two documents disagree at a position when only one of them has a value there, when
their values have different shapes, or when both have scalars that differ after what
the policy does to them. A comparison without filters that pairs by keys and by
position finds one difference for every position that is reached and where the
documents disagree, and nothing else.
-/

namespace StructuralDiff

namespace Policy

/-- The first normalizer whose pattern matches a position. -/
def normalizerAt (policy : Policy) (position : Position) : Option Normalizer :=
  (Path.read position.text).toOption.bind policy.normalizerFor

/-- A scalar as it is compared at a position: its text when texts are compared, and
then what the normalizer for the position makes of it. -/
def comparedAt (policy : Policy) (position : Position) (value : Value) : Value :=
  (policy.normalizerAt position).getD id
    (if policy.indifferentValues then value.canonicalScalar else value)

/-- The difference between what two documents have at a position. -/
def disagreement (policy : Policy) (position : Position) :
    Option Value → Option Value → Option Difference
  | none, none => none
  | some left, none => some ⟨.missing, position.text, some left, none⟩
  | none, some right => some ⟨.extra, position.text, none, some right⟩
  | some left, some right =>
    if left.shape ≠ right.shape then
      some ⟨.typeMismatch, position.text, some left, some right⟩
    else if left.isScalar &&
        !(policy.comparedAt position left).equal (policy.comparedAt position right) then
      some ⟨.mismatch, position.text, some left, some right⟩
    else none

/-- The difference between two documents at a position. -/
def disagreementAt (policy : Policy) (reference candidate : Value) (position : Position) :
    Option Difference :=
  policy.disagreement position (reference.at? position) (candidate.at? position)

/-- Two containers alike do not disagree themselves. -/
theorem disagreement_of_sameContainer (policy : Policy) (position : Position) {left right : Value}
    (alike : left.SameContainer right) :
    policy.disagreement position (some left) (some right) = none := by
  have notScalar : left.isScalar = false := by simpa [Value.isScalar] using alike.2
  simp [disagreement, alike.1, notScalar]

end Policy

namespace Pairing

/-- A pairing holds what two containers have at a step. -/
inductive Opens (reference candidate : Value) (step : Position.Step) : Pairing → Prop where
  | missing {value} (left : reference.child? step = some value)
      (right : candidate.child? step = none) :
      Opens reference candidate step (.missing step.name value)
  | both {value other} (left : reference.child? step = some value)
      (right : candidate.child? step = some other) :
      Opens reference candidate step (.both step.name value other)
  | extra {value} (left : reference.child? step = none)
      (right : candidate.child? step = some value) :
      Opens reference candidate step (.extra step.name value)

/-- A pairing is under the name of its step. -/
theorem Opens.step_eq {reference candidate : Value} {step : Position.Step} {pairing : Pairing}
    (opened : Opens reference candidate step pairing) : pairing.step = step.name := by
  cases opened <;> rfl

/-- The steps into two objects in the order in which their entries are compared: the keys
that only the reference has, those that both have, and those that only the candidate
has. -/
def entrySteps (references candidates : Entries Key Value) : List Position.Step :=
  (references.keys.filter (fun key => !candidates.has key) ++
    references.keys.filter (fun key => candidates.has key) ++
    candidates.keys.filter (fun key => !references.has key)).map .entry

/-- The steps into two arrays in the order in which their items are compared. -/
def itemSteps (references candidates : List Value) : List Position.Step :=
  (List.range' 1 (max references.length candidates.length)).map .item

/-- The steps into two containers alike in the order in which what is inside is
compared. -/
def steps : Value → Value → List Position.Step
  | .object references, .object candidates => entrySteps references candidates
  | .array references, .array candidates => itemSteps references candidates
  | _, _ => []

/-- What two containers have at a step, as a pairing. -/
def between (reference candidate : Value) (step : Position.Step) : Option Pairing :=
  match reference.child? step, candidate.child? step with
  | some left, some right => some (.both step.name left right)
  | some left, none => some (.missing step.name left)
  | none, some right => some (.extra step.name right)
  | none, none => none

theorem Opens.between_eq {reference candidate : Value} {step : Position.Step} {pairing : Pairing}
    (opened : Opens reference candidate step pairing) :
    between reference candidate step = some pairing := by
  cases opened with
  | missing left right => simp [between, left, right]
  | both left right => simp [between, left, right]
  | extra left right => simp [between, left, right]

/-- Steps without repetition lead to all that two containers hold, and pairings hold
what is at the steps. -/
structure Enumerated (reference candidate : Value) (steps : List Position.Step)
    (pairings : List Pairing) : Prop where
  distinct : steps.Nodup
  mem_iff : ∀ step, step ∈ steps ↔
    (reference.child? step).isSome ∨ (candidate.child? step).isSome
  opens : List.Forall₂ (Opens reference candidate) steps pairings

/-- Enumerated pairings are what the containers have at the steps. -/
theorem Enumerated.eq_filterMap {reference candidate : Value} {steps : List Position.Step}
    {pairings : List Pairing} (enumerated : Enumerated reference candidate steps pairings) :
    pairings = steps.filterMap (between reference candidate) := by
  have opens := enumerated.opens
  clear enumerated
  induction opens with
  | nil => rfl
  | cons opened _ ih => rw [List.filterMap_cons_some opened.between_eq, ← ih]

/-- Enumerated pairings are under the names of the steps. -/
theorem Enumerated.map_step {reference candidate : Value} {steps : List Position.Step}
    {pairings : List Pairing} (enumerated : Enumerated reference candidate steps pairings) :
    pairings.map Pairing.step = steps.map Position.Step.name := by
  have opens := enumerated.opens
  clear enumerated
  induction opens with
  | nil => rfl
  | cons opened _ ih => rw [List.map_cons, List.map_cons, opened.step_eq, ih]

/-- What is left of an array after a position starts with the item at the position. -/
theorem child?_item_of_drop {items rest : List Value} {position : Nat} {item : Value}
    (dropped : items.drop position = item :: rest) :
    (Value.array items).child? (.item (position + 1)) = some item ∧
      items.drop (position + 1) = rest := by
  have here := congrArg List.head? dropped
  have later := congrArg List.tail dropped
  rw [List.head?_drop] at here
  rw [List.tail_drop] at later
  exact ⟨here, later⟩

/-- Where nothing is left of an array, there is no item at the position. -/
theorem child?_item_of_drop_nil {items : List Value} {position : Nat}
    (dropped : items.drop position = []) :
    (Value.array items).child? (.item (position + 1)) = none ∧ items.drop (position + 1) = [] := by
  have short := List.drop_eq_nil_iff.1 dropped
  exact ⟨List.getElem?_eq_none short, List.drop_eq_nil_iff.2 (by omega)⟩

/-- The pairings by position, from a position on, hold what is at the item steps. -/
theorem opens_byPositionFrom {references candidates : List Value} {position : Nat}
    {lefts rights : List Value} (left : references.drop position = lefts)
    (right : candidates.drop position = rights) :
    List.Forall₂ (Opens (.array references) (.array candidates))
      ((List.range' (position + 1) (max lefts.length rights.length)).map Position.Step.item)
      (byPositionFrom position lefts rights) := by
  fun_induction byPositionFrom position lefts rights with
  | case1 => exact .nil
  | case2 position value lefts ih =>
    obtain ⟨here, later⟩ := child?_item_of_drop left
    obtain ⟨absent, laterToo⟩ := child?_item_of_drop_nil right
    have count : max (value :: lefts).length ([] : List Value).length =
        max lefts.length ([] : List Value).length + 1 := by simp
    rw [count, List.range'_succ]
    exact .cons (.missing here absent) (ih later laterToo)
  | case3 position value rights ih =>
    obtain ⟨absent, later⟩ := child?_item_of_drop_nil left
    obtain ⟨here, laterToo⟩ := child?_item_of_drop right
    have count : max ([] : List Value).length (value :: rights).length =
        max ([] : List Value).length rights.length + 1 := by simp
    rw [count, List.range'_succ]
    exact .cons (.extra absent here) (ih later laterToo)
  | case4 position value lefts other rights ih =>
    obtain ⟨here, later⟩ := child?_item_of_drop left
    obtain ⟨hereToo, laterToo⟩ := child?_item_of_drop right
    have count : max (value :: lefts).length (other :: rights).length =
        max lefts.length rights.length + 1 := by simp
    rw [count, List.range'_succ]
    exact .cons (.both here hereToo) (ih later laterToo)

/-- Two arrays are enumerated by their item steps. -/
theorem enumerated_byPosition (references candidates : List Value) :
    Enumerated (.array references) (.array candidates) (itemSteps references candidates)
      (byPosition references candidates) := by
  refine ⟨?_, ?_, opens_byPositionFrom List.drop_zero List.drop_zero⟩
  · refine List.Nodup.map ?_ List.nodup_range'
    intro first second same
    exact Position.Step.item.inj same
  · intro step
    cases step with
    | entry key => simp [itemSteps, Value.child?]
    | item number =>
      cases number with
      | zero => simp [itemSteps, Value.child?]
      | succ position =>
        have there : ∀ items : List Value,
            ((Value.array items).child? (.item (position + 1))).isSome ↔ position < items.length := by
          intro items
          simp [Value.child?]
        rw [there, there, itemSteps, List.mem_map]
        constructor
        · rintro ⟨number, inRange, same⟩
          cases same
          rw [List.mem_range'_1] at inRange
          omega
        · intro inOne
          refine ⟨position + 1, ?_, rfl⟩
          rw [List.mem_range'_1]
          omega

/-- The keys that are kept lead to the pairings of their entries, when the others have
none. -/
theorem opens_filterMap {reference candidate : Value} {entries : Entries Key Value}
    {keep : Key → Bool} {pairingOf : Key × Value → Option Pairing}
    (kept : ∀ entry ∈ entries, keep entry.1 = true →
      ∃ pairing, pairingOf entry = some pairing ∧ Opens reference candidate (.entry entry.1) pairing)
    (dropped : ∀ entry ∈ entries, keep entry.1 = false → pairingOf entry = none) :
    List.Forall₂ (Opens reference candidate)
      ((entries.keys.filter keep).map Position.Step.entry) (entries.filterMap pairingOf) := by
  induction entries with
  | nil => exact .nil
  | cons entry entries ih =>
    have later := ih (fun other member => kept other (List.mem_cons_of_mem _ member))
      (fun other member => dropped other (List.mem_cons_of_mem _ member))
    have keys : Entries.keys (entry :: entries) = entry.1 :: Entries.keys entries := rfl
    cases held : keep entry.1 with
    | true =>
      obtain ⟨pairing, shown, opened⟩ := kept entry List.mem_cons_self held
      rw [keys, List.filter_cons_of_pos held, List.filterMap_cons_some shown]
      exact .cons opened later
    | false =>
      have none := dropped entry List.mem_cons_self held
      rw [keys, List.filter_cons_of_neg (by simp [held]), List.filterMap_cons_none none]
      exact later

/-- Two objects with distinct keys are enumerated by their keys. -/
theorem enumerated_ofEntries {references candidates : Entries Key Value}
    (distinct : references.keys.Nodup) (distinctToo : candidates.keys.Nodup) :
    Enumerated (.object references) (.object candidates) (entrySteps references candidates)
      (ofEntries references candidates) := by
  have absent : ∀ {entries : Entries Key Value} {key : Key},
      entries.has key = false → entries.find? key = none := by
    intro entries key missing
    simpa [Entries.has] using missing
  refine ⟨?_, ?_, ?_⟩
  · refine List.Nodup.map (fun first second same => Position.Step.entry.inj same) ?_
    rw [List.nodup_append, List.nodup_append]
    refine ⟨⟨distinct.filter _, distinct.filter _, ?_⟩, distinctToo.filter _, ?_⟩
    · rintro key inFirst other inSecond rfl
      have missing := (List.mem_filter.1 inFirst).2
      simp [(List.mem_filter.1 inSecond).2] at missing
    · rintro key inReferences other inCandidates rfl
      have missing := (List.mem_filter.1 inCandidates).2
      have there : key ∈ references.keys := by
        rcases List.mem_append.1 inReferences with first | second
        · exact (List.mem_filter.1 first).1
        · exact (List.mem_filter.1 second).1
      simp [Entries.mem_keys_iff_has.1 there] at missing
  · intro step
    cases step with
    | item number => simp [entrySteps, Value.child?]
    | entry key =>
      simp only [entrySteps, List.mem_append, List.mem_map, List.mem_filter,
        Position.Step.entry.injEq, exists_eq_right, Entries.mem_keys_iff_has, Value.child?]
      change _ ↔ references.has key = true ∨ candidates.has key = true
      cases references.has key <;> cases candidates.has key <;> simp
  · rw [entrySteps, List.map_append, List.map_append]
    refine List.rel_append (List.rel_append ?_ ?_) ?_
    · refine opens_filterMap ?_ ?_
      · rintro ⟨key, value⟩ member missing
        have missing : candidates.has key = false := by simpa using missing
        have there := Entries.find?_of_mem distinct member
        exact ⟨_, by simp [missing], .missing there (absent missing)⟩
      · rintro ⟨key, value⟩ member there
        have there : candidates.has key = true := by simpa using there
        simp [there]
    · refine opens_filterMap ?_ ?_
      · rintro ⟨key, value⟩ member there
        obtain ⟨other, found⟩ := Option.isSome_iff_exists.1 there
        exact ⟨_, by simp [found], .both (Entries.find?_of_mem distinct member) found⟩
      · rintro ⟨key, value⟩ member missing
        simp [absent missing]
    · refine opens_filterMap ?_ ?_
      · rintro ⟨key, value⟩ member missing
        have missing : references.has key = false := by simpa using missing
        have there := Entries.find?_of_mem distinctToo member
        exact ⟨_, by simp [missing], .extra (absent missing) there⟩
      · rintro ⟨key, value⟩ member there
        have there : references.has key = true := by simpa using there
        simp [there]

end Pairing

/-- A positional policy pairs what two containers alike have at their steps, in the order of
the steps. -/
theorem Policy.Positional.exists_plan {policy : Policy} (positional : policy.Positional)
    (path : Path) {reference candidate : Value} (distinct : reference.DistinctKeys)
    (distinctToo : candidate.DistinctKeys) (alike : reference.SameContainer candidate) :
    ∃ pairings, Comparison.plan policy path reference candidate = .descend pairings ∧
      Pairing.Enumerated reference candidate (Pairing.steps reference candidate) pairings := by
  cases reference, candidate using Value.casesPair with
  | objects references candidates =>
    exact ⟨_, positional.plan_object path references candidates,
      Pairing.enumerated_ofEntries distinct distinctToo⟩
  | arrays references candidates =>
    exact ⟨_, positional.plan_array path references candidates,
      Pairing.enumerated_byPosition references candidates⟩
  | scalars left right scalar scalarToo =>
    exact absurd (by simpa [Value.isScalar] using scalar) alike.2
  | shapes left right different => exact absurd alike.1 different

namespace Position

/-- What is at a step of a document with plain keys is at a plain step. -/
theorem Step.isPlain_of_child? {value : Value} {step : Step}
    (plain : value.EveryKey Key.IsPlain) (there : (value.child? step).isSome) : step.IsPlain := by
  cases step with
  | item number => exact Step.item_isPlain number
  | entry key =>
    cases value with
    | object entries =>
      obtain ⟨child, found⟩ := Option.isSome_iff_exists.1 there
      exact Step.entry_isPlain (plain.of_mem (Entries.mem_of_find? found))
    | _ => cases there

end Position

namespace Comparison

variable {policy : Policy} {base : Position} {reference candidate : Value}

/-- Differences are those of two values at some positions below a base, where the two
values stand: one for each of these positions that is reached and at which the values
disagree. -/
structure Covers (policy : Policy) (base : Position) (reference candidate : Value)
    (scope : Position → Prop) (differences : List Difference) (positions : List Position) :
    Prop where
  distinct : positions.Nodup
  mem_iff : ∀ position, position ∈ positions ↔
    scope position ∧ Reached reference candidate position ∧
      (policy.disagreement (base ++ position) (reference.at? position)
        (candidate.at? position)).isSome
  shown : differences.map some = positions.map fun position =>
    policy.disagreement (base ++ position) (reference.at? position) (candidate.at? position)

/-- The positions that start with one of some steps. -/
def Through (steps : List Position.Step) (position : Position) : Prop :=
  ∃ step ∈ steps, ∃ rest, position = step :: rest

/-- Differences at positions of two disjoint kinds follow each other. -/
theorem Covers.append {first second : Position → Prop} {differences others : List Difference}
    {positions otherPositions : List Position}
    (covers : Covers policy base reference candidate first differences positions)
    (coversToo : Covers policy base reference candidate second others otherPositions)
    (disjoint : ∀ position, first position → ¬ second position) :
    Covers policy base reference candidate (fun position => first position ∨ second position)
      (differences ++ others) (positions ++ otherPositions) := by
  refine ⟨?_, ?_, ?_⟩
  · refine List.nodup_append.2 ⟨covers.distinct, coversToo.distinct, ?_⟩
    rintro position member other memberToo rfl
    exact disjoint position ((covers.mem_iff position).1 member).1
      ((coversToo.mem_iff position).1 memberToo).1
  · intro position
    rw [List.mem_append, covers.mem_iff, coversToo.mem_iff, or_and_right]
  · rw [List.map_append, List.map_append, covers.shown, coversToo.shown]

/-- Where the two values are not containers alike, only they themselves are reached. -/
theorem covers_of_apart (apart : ¬ reference.SameContainer candidate) :
    ∃ positions, Covers policy base reference candidate (fun _ => True)
      (policy.disagreement base (some reference) (some candidate)).toList positions := by
  have onlyRoot : ∀ position, Reached reference candidate position ↔ position = [] := by
    intro position
    cases position with
    | nil => simp [reached_nil]
    | cons step rest => simp [reached_cons_iff, apart]
  cases outcome : policy.disagreement base (some reference) (some candidate) with
  | none =>
    refine ⟨[], List.nodup_nil, fun position => ?_, rfl⟩
    rw [onlyRoot]
    simp only [List.not_mem_nil, true_and, false_iff, not_and]
    rintro rfl
    simp [outcome]
  | some difference =>
    refine ⟨[[]], by simp, fun position => ?_, by simp [outcome]⟩
    rw [onlyRoot, List.mem_singleton]
    simp only [true_and, iff_self_and]
    rintro rfl
    simp [outcome]

/-- What only one side has differs at its own position and is not entered. -/
theorem covers_of_oneSided {step : Position.Step} (alike : reference.SameContainer candidate)
    (oneSided : reference.child? step = none ∨ candidate.child? step = none)
    {difference : Difference}
    (shown : policy.disagreement (base ++ [step]) (reference.child? step) (candidate.child? step) =
      some difference) :
    Covers policy base reference candidate (Through [step]) [difference] [[step]] := by
  refine ⟨by simp, fun position => ?_, by simp [Value.at?_singleton, shown]⟩
  rw [List.mem_singleton]
  constructor
  · rintro rfl
    refine ⟨⟨step, List.mem_singleton_self _, [], rfl⟩, reached_cons_iff.2 ⟨alike, .inl rfl⟩, ?_⟩
    simp [Value.at?_singleton, shown]
  · rintro ⟨⟨first, member, rest, rfl⟩, reached, -⟩
    rw [List.mem_singleton.1 member] at reached ⊢
    rcases (reached_cons_iff.1 reached).2 with rfl | ⟨left, right, leftThere, rightThere, -⟩
    · rfl
    · rcases oneSided with absent | absent
      · simp [absent] at leftThere
      · simp [absent] at rightThere

/-- What both sides have differs below its position as the two values inside differ. -/
theorem Covers.inside {step : Position.Step} {left right : Value} {differences : List Difference}
    {positions : List Position} (alike : reference.SameContainer candidate)
    (leftThere : reference.child? step = some left)
    (rightThere : candidate.child? step = some right)
    (covers : Covers policy (base ++ [step]) left right (fun _ => True) differences positions) :
    Covers policy base reference candidate (Through [step]) differences
      (positions.map (step :: ·)) := by
  have same : ∀ rest, policy.disagreement (base ++ step :: rest)
      (reference.at? (step :: rest)) (candidate.at? (step :: rest)) =
        policy.disagreement (base ++ [step] ++ rest) (left.at? rest) (right.at? rest) := by
    intro rest
    rw [List.append_assoc, List.singleton_append, Value.at?_cons, Value.at?_cons, leftThere,
      rightThere, Option.bind_some, Option.bind_some]
  have reached : ∀ rest, Reached reference candidate (step :: rest) ↔ Reached left right rest :=
    fun rest => reached_inside_iff alike leftThere rightThere
  refine ⟨covers.distinct.map fun first second equal => (List.cons.inj equal).2, ?_, ?_⟩
  · intro position
    rw [List.mem_map]
    constructor
    · rintro ⟨rest, member, rfl⟩
      obtain ⟨-, inner, differs⟩ := (covers.mem_iff rest).1 member
      exact ⟨⟨step, List.mem_singleton_self _, rest, rfl⟩, (reached rest).2 inner, by rwa [same]⟩
    · rintro ⟨⟨first, member, rest, rfl⟩, inner, differs⟩
      rw [List.mem_singleton.1 member] at inner differs ⊢
      rw [same] at differs
      exact ⟨rest, (covers.mem_iff rest).2 ⟨trivial, (reached rest).1 inner, differs⟩, rfl⟩
  · rw [covers.shown, List.map_map]
    exact List.map_congr_left fun rest _ => (same rest).symm

/-- A complete visit of what is at a step finds the differences at the positions that
start with the step. -/
theorem covers_visit (unfiltered : policy.Unfiltered) {path : Path} {step : Position.Step}
    {pairing : Pairing} (leads : base.LeadsTo path) (plain : step.IsPlain)
    (alike : reference.SameContainer candidate)
    (opened : pairing.Opens reference candidate step)
    (complete : (visit policy path pairing).failure = none)
    (inside : ∀ {left right child}, pairing = .both step.name left right →
      path.join step.name = .ok child → (walk policy child left right).failure = none →
      ∃ positions, Covers policy (base ++ [step]) left right (fun _ => True)
        (walk policy child left right).differences positions) :
    ∃ positions, Covers policy base reference candidate (Through [step])
      (visit policy path pairing).differences positions := by
  obtain ⟨child, joined⟩ := exists_child_of_complete complete
  have onward : path.join step.name = .ok child := by rw [← opened.step_eq, joined]
  have written := (leads.join plain onward).text_eq
  cases opened with
  | missing left right =>
    rw [visit_missing joined, unfiltered.oneSided_eq_found]
    refine ⟨_, covers_of_oneSided alike (.inr right) ?_⟩
    rw [left, right, Policy.disagreement, written]
  | extra left right =>
    rw [visit_extra joined, unfiltered.oneSided_eq_found]
    refine ⟨_, covers_of_oneSided alike (.inl left) ?_⟩
    rw [left, right, Policy.disagreement, written]
  | both left right =>
    rw [visit_both joined] at complete ⊢
    obtain ⟨positions, covers⟩ := inside rfl onward complete
    exact ⟨_, covers.inside alike left right⟩

/-- Complete visits of what is at some steps find, in order, the differences at the
positions that start with one of the steps. -/
theorem covers_sequence (unfiltered : policy.Unfiltered) {path : Path}
    {steps : List Position.Step} {pairings : List Pairing} (leads : base.LeadsTo path)
    (distinct : steps.Nodup) (plain : ∀ step ∈ steps, step.IsPlain)
    (alike : reference.SameContainer candidate)
    (opens : List.Forall₂ (Pairing.Opens reference candidate) steps pairings)
    (complete : ∀ pairing ∈ pairings, (visit policy path pairing).failure = none)
    (inside : ∀ step {left right child}, step.IsPlain → .both step.name left right ∈ pairings →
      path.join step.name = .ok child → (walk policy child left right).failure = none →
      ∃ positions, Covers policy (base ++ [step]) left right (fun _ => True)
        (walk policy child left right).differences positions) :
    ∃ positions, Covers policy base reference candidate (Through steps)
      (pairings.flatMap fun pairing => (visit policy path pairing).differences) positions := by
  induction opens with
  | nil => exact ⟨[], List.nodup_nil, by simp [Through], rfl⟩
  | @cons step pairing steps pairings opened opens ih =>
    obtain ⟨fresh, distinct⟩ := List.nodup_cons.1 distinct
    have stepPlain := plain step List.mem_cons_self
    obtain ⟨here, covers⟩ := covers_visit unfiltered leads stepPlain alike opened
      (complete pairing List.mem_cons_self) (by
        rintro left right child rfl joined inner
        exact inside step stepPlain List.mem_cons_self joined inner)
    obtain ⟨later, coversLater⟩ := ih distinct
      (fun other member => plain other (List.mem_cons_of_mem _ member))
      (fun other member => complete other (List.mem_cons_of_mem _ member))
      (fun other _ _ _ otherPlain member joined inner =>
        inside other otherPlain (List.mem_cons_of_mem _ member) joined inner)
    have disjoint : ∀ position, Through [step] position → ¬ Through steps position := by
      rintro position ⟨first, isStep, rest, rfl⟩ ⟨second, member, otherRest, same⟩
      cases same
      rw [List.mem_singleton.1 isStep] at member
      exact fresh member
    have both := covers.append coversLater disjoint
    refine ⟨_, both.distinct, fun position => ?_, both.shown⟩
    rw [both.mem_iff]
    refine and_congr_left fun _ => ?_
    simp [Through]

/-- Scalars are prepared at a path as they are compared at its position. -/
theorem prepared_eq_comparedAt {path : Path} (leads : base.LeadsTo path) (value : Value) :
    prepared policy path value = policy.comparedAt base value := by
  have normalizer : policy.normalizerAt base = policy.normalizerFor path := by
    rw [Policy.normalizerAt, leads.read_text]
    rfl
  unfold prepared Policy.comparedAt
  rw [normalizer]
  cases policy.normalizerFor path <;> rfl

/-- What is reached and differs below two containers starts with a step into them. -/
theorem through_of_reached {steps : List Position.Step} {pairings : List Pairing}
    (enumerated : Pairing.Enumerated reference candidate steps pairings)
    (alike : reference.SameContainer candidate) {position : Position}
    (reached : Reached reference candidate position)
    (differs : (policy.disagreement (base ++ position) (reference.at? position)
      (candidate.at? position)).isSome) : Through steps position := by
  cases position with
  | nil => simp [Policy.disagreement_of_sameContainer _ _ alike] at differs
  | cons step rest =>
    refine ⟨step, (enumerated.mem_iff step).2 ?_, rest, rfl⟩
    rcases (reached_cons_iff.1 reached).2 with rfl | ⟨left, right, leftThere, -⟩
    · rw [Value.at?_singleton, Value.at?_singleton] at differs
      cases left : reference.child? step with
      | some value => exact .inl rfl
      | none =>
        cases right : candidate.child? step with
        | some value => exact .inr rfl
        | none => simp [left, right, Policy.disagreement] at differs
    · simp [leftThere]

/-- The comparison of two scalars finds what they disagree in. -/
theorem compareScalars_differences {path : Path} (leads : base.LeadsTo path)
    (left : reference.isScalar) (right : candidate.isScalar) :
    (compareScalars policy path reference candidate).differences =
      (policy.disagreement base (some reference) (some candidate)).toList := by
  have sameShape : reference.shape = candidate.shape := by
    have leftShape : reference.shape = .scalar := by simpa [Value.isScalar] using left
    have rightShape : candidate.shape = .scalar := by simpa [Value.isScalar] using right
    rw [leftShape, rightShape]
  unfold compareScalars Policy.disagreement
  rw [prepared_eq_comparedAt leads, prepared_eq_comparedAt leads, ← leads.text_eq]
  cases equal : (policy.comparedAt base reference).equal (policy.comparedAt base candidate) <;>
    simp [sameShape, left, equal, Trace.clean, Trace.found]

/-- A complete walk finds one difference for every position that is reached and where
the two values disagree. By induction along the walk, from the base at which the two
values stand. -/
theorem walk_covers (unfiltered : policy.Unfiltered) (positional : policy.Positional)
    {path : Path} (leads : base.LeadsTo path)
    (wellFormed : reference.WellFormed) (wellFormedToo : candidate.WellFormed)
    (plain : reference.EveryKey Key.IsPlain) (plainToo : candidate.EveryKey Key.IsPlain)
    (complete : (walk policy path reference candidate).failure = none) :
    ∃ positions, Covers policy base reference candidate (fun _ => True)
      (walk policy path reference candidate).differences positions := by
  induction path, reference, candidate using walk_induction policy generalizing base with
  | visited path reference candidate ih =>
    have shown := unfiltered.excludes_eq_false path
    rcases Classical.em (reference.SameContainer candidate) with alike | apart
    · -- Of two containers alike, the pairings enumerate all that they hold.
      obtain ⟨pairings, planned, enumerated⟩ := positional.exists_plan path
        wellFormed.distinctKeys wellFormedToo.distinctKeys alike
      obtain ⟨visited, found⟩ := complete_of_descend shown planned complete
      rw [found]
      have stepPlain : ∀ step ∈ Pairing.steps reference candidate, step.IsPlain := by
        intro step member
        rcases (enumerated.mem_iff step).1 member with there | there
        · exact Position.Step.isPlain_of_child? plain there
        · exact Position.Step.isPlain_of_child? plainToo there
      obtain ⟨positions, covers⟩ := covers_sequence unfiltered leads enumerated.distinct stepPlain
        alike enumerated.opens visited (by
          intro step left right child isPlain member joined inner
          have within := within_of_plan planned member
          exact ih planned member joined (leads.join isPlain joined)
            (wellFormed.of_mem_parts within.1) (wellFormedToo.of_mem_parts within.2)
            (plain.of_mem_parts within.1) (plainToo.of_mem_parts within.2) inner)
      refine ⟨positions, covers.distinct, fun position => ?_, covers.shown⟩
      rw [covers.mem_iff]
      refine and_congr_left fun differs => ⟨fun _ => trivial, fun _ => ?_⟩
      exact through_of_reached enumerated alike differs.1 differs.2
    cases reference, candidate using Value.casesPair with
    | objects references candidates => exact absurd ⟨rfl, by simp [Value.shape]⟩ apart
    | arrays references candidates => exact absurd ⟨rfl, by simp [Value.shape]⟩ apart
    | scalars reference candidate left right =>
      rw [walk_of_compareScalars shown (plan_of_scalars _ path left right),
        compareScalars_differences leads left right]
      exact covers_of_apart apart
    | shapes reference candidate different =>
      have outcome : policy.disagreement base (some reference) (some candidate) =
          some ⟨.typeMismatch, path.text, some reference, some candidate⟩ := by
        simp [Policy.disagreement, different, leads.text_eq]
      rw [walk_of_differInShape shown (plan_of_shape_ne _ path different)]
      have found : (Trace.found
          ⟨.typeMismatch, path.text, some reference, some candidate⟩).differences =
            (policy.disagreement base (some reference) (some candidate)).toList := by
        rw [outcome]
        rfl
      rw [found]
      exact covers_of_apart apart

/-- The findings of a comparison that pairs by keys and by position and leaves nothing
out: one difference for each position that is reached in the documents and where they
disagree, and no others. -/
theorem perform_lists_disagreements (texts : Bool) (normalizers : List (Path × Normalizer))
    {reference candidate : Value} (wellFormed : reference.WellFormed)
    (wellFormedToo : candidate.WellFormed) (plain : reference.EveryKey Key.IsPlain)
    (plainToo : candidate.EveryKey Key.IsPlain) {policy : Policy}
    (terms : policy =
      { Policy.default with indifferentValues := texts, normalizers := normalizers })
    {findings : Findings} (done : perform policy reference candidate = .ok findings) :
    ∃ positions : List Position, positions.Nodup ∧
      (∀ position, position ∈ positions ↔ Reached reference candidate position ∧
        (policy.disagreementAt reference candidate position).isSome) ∧
      findings.items.map some =
        positions.map (policy.disagreementAt reference candidate) := by
  have unfiltered : policy.Unfiltered := by
    subst terms
    exact ⟨rfl, rfl, rfl⟩
  have positional : policy.Positional := by
    subst terms
    exact ⟨rfl, rfl, rfl⟩
  have noCutoff : policy.cutoff = none := by
    subst terms
    rfl
  obtain ⟨complete, items⟩ := complete_of_perform noCutoff done
  obtain ⟨positions, covers⟩ := walk_covers unfiltered positional Position.LeadsTo.root
    wellFormed wellFormedToo plain plainToo complete
  refine ⟨positions, covers.distinct, fun position => ?_, ?_⟩
  · rw [covers.mem_iff, List.nil_append]
    simp [Policy.disagreementAt]
  · rw [items, covers.shown]
    rfl

/-- An object with a scalar, an array and a key of its own. -/
def threeEntries : Value :=
  .object [(.text "a", .bool true), (.text "b", .array [.null]), (.text "c", .null)]

/-- An object in which every entry is different. -/
def otherEntries : Value :=
  .object [(.text "d", .null), (.text "b", .array [.text "x", .null]), (.text "a", .text "y")]

/-- The scalar at `/a` is compared as if it were null. -/
def ignoring : Policy :=
  { Policy.default with
    indifferentValues := true
    normalizers := [(⟨[.plain "a"]⟩, fun _ => .null)] }

/-- One difference for each of four positions, and none where a normalizer makes the
scalars equal. -/
theorem perform_lists_four_disagreements :
    ∃ findings, ∃ positions : List Position,
      perform ignoring threeEntries otherEntries = .ok findings ∧
      findings.items.map Difference.path = ["/c", "/b/1", "/b/2", "/d"] ∧
      (∀ position, position ∈ positions ↔ Reached threeEntries otherEntries position ∧
        (ignoring.disagreementAt threeEntries otherEntries position).isSome) ∧
      positions.length = 4 := by
  have done : perform ignoring threeEntries otherEntries = .ok {
      items := [⟨.missing, "/c", some .null, none⟩,
        ⟨.mismatch, "/b/1", some .null, some (.text "x")⟩,
        ⟨.extra, "/b/2", none, some .null⟩, ⟨.extra, "/d", none, some .null⟩]
      positions := [("/c", 0), ("/b/1", 1), ("/b/2", 2), ("/d", 3)]
      limit := none } := by
    cbv
  have wellFormed : threeEntries.WellFormed ∧ otherEntries.WellFormed := by
    simp [threeEntries, otherEntries, Value.WellFormed, Value.WellFormedItems,
      Value.WellFormedEntries, Entries.keys]
  have plain : threeEntries.EveryKey Key.IsPlain ∧ otherEntries.EveryKey Key.IsPlain := by
    have letters : ∀ name ∈ ["a", "b", "c", "d"], (Key.text name).IsPlain := by
      intro name letter
      refine ⟨name, rfl, ?_⟩
      simp only [List.mem_cons, List.not_mem_nil, or_false] at letter
      rcases letter with rfl | rfl | rfl | rfl <;> exact ⟨by decide, by cbv⟩
    simp [threeEntries, otherEntries, Value.EveryKey, Value.EveryKeyOfItems,
      Value.EveryKeyOfEntries, letters]
  obtain ⟨positions, -, reached, shown⟩ :=
    perform_lists_disagreements true [(⟨[.plain "a"]⟩, fun _ => .null)] wellFormed.1 wellFormed.2
      plain.1 plain.2 rfl done
  refine ⟨_, positions, done, rfl, reached, ?_⟩
  simpa using congrArg List.length shown.symm

end Comparison

end StructuralDiff
