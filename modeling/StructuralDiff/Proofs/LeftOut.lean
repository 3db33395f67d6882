import Mathlib
import StructuralDiff.Proofs.Disagreement

/-!
# What is left out has no influence

A comparison that pairs by keys and by position looks at nothing that its policy leaves
out. Documents with any other values at a position that is left out, or under one that is
left out, compare alike: the findings are the same, also where a limit cuts them short, and
so is a failure. The containers on the way to the position keep their steps when a value
inside them is exchanged, so the pairings differ at most in a pair that is never looked at.
-/

namespace StructuralDiff

namespace Entries

variable {κ α : Type} [DecidableEq κ]

/-- Setting a key that is there changes no key. -/
theorem keys_set_of_has {entries : Entries κ α} {key : κ} (known : entries.has key = true)
    (value : α) : (entries.set key value).keys = entries.keys := by
  rw [keys_set, if_pos (mem_keys_iff_has.2 known)]

/-- Entries with the same keys have the same keys there. -/
theorem has_eq_of_keys_eq {first second : Entries κ α} (same : first.keys = second.keys)
    (key : κ) : first.has key = second.has key := by
  rw [Bool.eq_iff_iff, ← mem_keys_iff_has, ← mem_keys_iff_has, same]

end Entries

namespace Value

/-- The value with another one inside it at a step. -/
def setChild (value : Value) (step : Position.Step) (child : Value) : Value :=
  match value, step with
  | .object entries, .entry key => .object (Entries.set key child entries)
  | .array items, .item (count + 1) => .array (items.set count child)
  | other, _ => other

/-- The value with another one at a position. Where there is nothing, nothing changes. -/
def replaceAt (value : Value) (position : Position) (new : Value) : Value :=
  match position with
  | [] => new
  | step :: rest =>
    match value.child? step with
    | some child => value.setChild step (child.replaceAt rest new)
    | none => value

section

variable {value child : Value} {step : Position.Step}

theorem replaceAt_cons (there : value.child? step = some child) (rest : Position) (new : Value) :
    value.replaceAt (step :: rest) new = value.setChild step (child.replaceAt rest new) := by
  rw [replaceAt, there]

theorem shape_setChild (value : Value) (step : Position.Step) (new : Value) :
    (value.setChild step new).shape = value.shape := by
  unfold setChild
  split <;> rfl

/-- At a step inside a value there is what was set there, and at any other step what was
there before. -/
theorem child?_setChild (there : (value.child? step).isSome) (new : Value)
    (other : Position.Step) :
    (value.setChild step new).child? other =
      if step = other then some new else value.child? other := by
  rcases container_of_child? there with
    ⟨entries, key, rfl, rfl, -⟩ | ⟨items, count, rfl, rfl, short⟩
  · cases other with
    | entry otherKey => simp [setChild, child?, Entries.find?_set]
    | item number => simp [setChild, child?]
  · cases other with
    | entry key => simp [setChild, child?]
    | item number =>
      cases number with
      | zero => simp [setChild, child?]
      | succ otherCount => simp [setChild, child?, List.getElem?_set, short]

/-- The keys stay distinct when a value inside is exchanged. -/
theorem DistinctKeys.setChild (distinct : value.DistinctKeys)
    (there : (value.child? step).isSome) (new : Value) :
    (value.setChild step new).DistinctKeys := by
  rcases container_of_child? there with
    ⟨entries, key, rfl, rfl, known⟩ | ⟨items, count, rfl, rfl, -⟩
  · rw [Value.setChild, DistinctKeys, Entries.keys_set_of_has known]
    exact distinct
  · trivial

end

end Value

/-- The steps into two containers stay when values inside both are exchanged. -/
theorem Pairing.steps_setChild {reference candidate : Value} {step : Position.Step}
    (there : (reference.child? step).isSome) (thereToo : (candidate.child? step).isSome)
    (first second : Value) :
    steps (reference.setChild step first) (candidate.setChild step second) =
      steps reference candidate := by
  rcases Value.container_of_child? there with
    ⟨references, key, rfl, rfl, known⟩ | ⟨references, count, rfl, rfl, -⟩
  · rcases Value.container_of_child? thereToo with
      ⟨candidates, _, rfl, same, knownToo⟩ | ⟨_, _, -, different, -⟩
    · cases same
      have keys := Entries.keys_set_of_has known first
      have keysToo := Entries.keys_set_of_has knownToo second
      simp only [Value.setChild, steps, entrySteps, keys, keysToo, Entries.has_eq_of_keys_eq keys,
        Entries.has_eq_of_keys_eq keysToo]
    · cases different
  · rcases Value.container_of_child? thereToo with
      ⟨_, _, -, different, -⟩ | ⟨candidates, _, rfl, same, -⟩
    · cases different
    · cases same
      simp only [Value.setChild, steps, itemSteps, List.length_set]

/-- The path to which the steps of a position lead from a path. -/
def Path.follow (path : Path) (position : Position) : Except PathError Path :=
  position.foldlM (fun path step => path.join step.name) path

/-- Something is left out on the way that a position leads from a path, at the end of the way
or before. -/
def Policy.LeavesOut (policy : Policy) (path : Path) (position : Position) : Prop :=
  ∃ before place, before ≠ [] ∧ before <+: position ∧ path.follow before = .ok place ∧
    policy.excludes place = true

/-- What is left out on the way is left out one step further on, or on the rest of the way. -/
theorem Policy.LeavesOut.onward {policy : Policy} {path child : Path} {step : Position.Step}
    {rest : Position} (leavesOut : policy.LeavesOut path (step :: rest))
    (joined : path.join step.name = .ok child) :
    policy.excludes child = true ∨ policy.LeavesOut child rest := by
  obtain ⟨before, place, some, isBefore, leads, leftOut⟩ := leavesOut
  cases before with
  | nil => exact absurd rfl some
  | cons first before =>
    obtain ⟨rfl, shorter⟩ := List.cons_prefix_cons.1 isBefore
    rw [Path.follow, List.foldlM_cons, joined] at leads
    have leads : child.follow before = .ok place := leads
    by_cases last : before = []
    · left
      subst last
      cases leads
      exact leftOut
    · right
      exact ⟨before, place, last, shorter, leads, leftOut⟩

namespace Comparison

variable {policy : Policy}

/-- Containers alike that differ from two others at one step only are walked as these are, if
what is at the step is walked as it is there. -/
theorem walk_setChild (positional : policy.Positional) (path : Path) {reference candidate : Value}
    {step : Position.Step} (distinct : reference.DistinctKeys)
    (distinctToo : candidate.DistinctKeys) (alike : reference.SameContainer candidate)
    {left right first second : Value} (leftThere : reference.child? step = some left)
    (rightThere : candidate.child? step = some right)
    (inside : ∀ {child}, path.join step.name = .ok child →
      walk policy child first second = walk policy child left right) :
    walk policy path (reference.setChild step first) (candidate.setChild step second) =
      walk policy path reference candidate := by
  have there : (reference.child? step).isSome := Option.isSome_of_eq_some leftThere
  have thereToo : (candidate.child? step).isSome := Option.isSome_of_eq_some rightThere
  have visited : visit policy path (.both step.name first second) =
      visit policy path (.both step.name left right) := by
    simp only [visit, below]
    cases joined : path.join step.name with
    | error cause => rfl
    | ok child => exact inside joined
  have stillAlike : (reference.setChild step first).SameContainer
      (candidate.setChild step second) := by
    unfold Value.SameContainer
    rw [Value.shape_setChild, Value.shape_setChild]
    exact alike
  obtain ⟨pairings, planned, enumerated⟩ := positional.exists_plan path distinct distinctToo alike
  obtain ⟨pairingsToo, plannedToo, enumeratedToo⟩ := positional.exists_plan path
    (distinct.setChild there first) (distinctToo.setChild thereToo second) stillAlike
  by_cases leftOut : policy.excludes path = true
  · rw [walk_of_excluded leftOut, walk_of_excluded leftOut]
  · have shown : policy.excludes path = false := by simpa using leftOut
    rw [walk_of_descend shown planned, walk_of_descend shown plannedToo, enumerated.eq_filterMap,
      enumeratedToo.eq_filterMap, Pairing.steps_setChild there thereToo, List.map_filterMap,
      List.map_filterMap]
    congr 1
    refine List.filterMap_congr fun other _ => ?_
    unfold Pairing.between
    rw [Value.child?_setChild there, Value.child?_setChild thereToo]
    by_cases same : step = other
    · subst same
      simp only [if_true, leftThere, rightThere, Option.map_some, visited]
    · simp only [same, if_false]

/-- Values at a position on the way to which something is left out can be exchanged. By
induction along the position: the containers on the way are paired along the same steps, and
the pair that differs is left out or holds the rest of the way. -/
theorem walk_replaceAt (positional : policy.Positional) {path : Path}
    {reference candidate : Value} {position : Position} (wellFormed : reference.WellFormed)
    (wellFormedToo : candidate.WellFormed) (leftThere : (reference.at? position).isSome)
    (rightThere : (candidate.at? position).isSome)
    (reached : Reached reference candidate position) (leavesOut : policy.LeavesOut path position)
    (first second : Value) :
    walk policy path (reference.replaceAt position first) (candidate.replaceAt position second) =
      walk policy path reference candidate := by
  induction position generalizing path reference candidate with
  | nil =>
    obtain ⟨before, -, some, isBefore, -⟩ := leavesOut
    exact absurd (List.prefix_nil.1 isBefore) some
  | cons step rest ih =>
    rw [Value.at?_cons] at leftThere rightThere
    obtain ⟨left, leftHere⟩ := Option.isSome_iff_exists.1 (Option.isSome_of_isSome_bind leftThere)
    obtain ⟨right, rightHere⟩ :=
      Option.isSome_iff_exists.1 (Option.isSome_of_isSome_bind rightThere)
    rw [leftHere, Option.bind_some] at leftThere
    rw [rightHere, Option.bind_some] at rightThere
    have alike := (reached_cons_iff.1 reached).1
    have inner := (reached_inside_iff alike leftHere rightHere).1 reached
    rw [Value.replaceAt_cons leftHere, Value.replaceAt_cons rightHere]
    refine walk_setChild positional path wellFormed.distinctKeys wellFormedToo.distinctKeys alike
      leftHere rightHere fun {child} joined => ?_
    rcases leavesOut.onward joined with leftOut | further
    · rw [walk_of_excluded leftOut, walk_of_excluded leftOut]
    · exact ih (wellFormed.of_mem_parts (Value.mem_parts_of_child? leftHere))
        (wellFormedToo.of_mem_parts (Value.mem_parts_of_child? rightHere)) leftThere rightThere
        inner further

/-- What is left out has no influence on a comparison that pairs by keys and by position.
Whatever stands in two documents at a position that is left out, or that is under one that is
left out, the outcome is the same: the same findings, cut short at the same difference, or the
same failure. -/
theorem perform_replaceAt (positional : policy.Positional) {reference candidate : Value}
    (wellFormed : reference.WellFormed) (wellFormedToo : candidate.WellFormed)
    {position before : Position} (leftThere : (reference.at? position).isSome)
    (rightThere : (candidate.at? position).isSome)
    (reached : Reached reference candidate position) (above : before <+: position)
    {place : Path} (leads : Path.root.follow before = .ok place)
    (leftOut : policy.excludes place = true) (first second : Value) :
    perform policy (reference.replaceAt position first) (candidate.replaceAt position second) =
      perform policy reference candidate := by
  have some : before ≠ [] := by
    rintro rfl
    cases leads
    rw [Policy.excludes_root] at leftOut
    cases leftOut
  exact perform_eq_of_walk_eq (walk_replaceAt positional wellFormed wellFormedToo leftThere
    rightThere reached ⟨before, place, some, above, leads, leftOut⟩ first second)

/-- What is under the key `secret` is left out, and the first difference is enough. -/
def withoutSecret : Policy :=
  { Policy.default with rejectPaths := [⟨[.plain "secret"]⟩], failFast := true }

/-- A secret and two entries more. -/
def secretAndTwo : Value :=
  .object [(.text "secret", .object [(.text "key", .text "x")]), (.text "a", .null),
    (.text "b", .null)]

/-- Another secret, and the two entries with other values. -/
def otherSecretAndTwo : Value :=
  .object [(.text "a", .text "y"), (.text "secret", .object [(.text "key", .text "z")]),
    (.text "b", .text "y")]

/-- The position of the secret. -/
def secretPosition : Position := [.entry (.text "secret"), .entry (.text "key")]

/-- Whatever the secrets are, the comparison stops after the same difference. -/
theorem perform_replaceAt_secret :
    secretAndTwo.replaceAt secretPosition (.array []) =
        .object [(.text "secret", .object [(.text "key", .array [])]), (.text "a", .null),
          (.text "b", .null)] ∧
      ∃ findings, findings.items.map Difference.path = ["/a"] ∧
        perform withoutSecret (secretAndTwo.replaceAt secretPosition (.array []))
          (otherSecretAndTwo.replaceAt secretPosition .null) = .ok findings := by
  have done : perform withoutSecret secretAndTwo otherSecretAndTwo = .ok {
      items := [⟨.mismatch, "/a", some .null, some (.text "y")⟩]
      positions := [("/a", 0)]
      limit := some 1 } := by
    cbv
  have wellFormed : secretAndTwo.WellFormed ∧ otherSecretAndTwo.WellFormed := by
    simp [secretAndTwo, otherSecretAndTwo, Value.WellFormed, Value.WellFormedEntries, Entries.keys]
  have reached : Reached secretAndTwo otherSecretAndTwo secretPosition := by
    refine reached_cons_iff.2 ⟨⟨rfl, by decide⟩, .inr ⟨_, _, rfl, rfl, ?_⟩⟩
    exact reached_cons_iff.2 ⟨⟨rfl, by decide⟩, .inl rfl⟩
  have above : [.entry (.text "secret")] <+: secretPosition := ⟨_, rfl⟩
  have leads : Path.root.follow [.entry (.text "secret")] = .ok ⟨[.plain "secret"]⟩ := by
    cbv
  have leftOut : withoutSecret.excludes ⟨[.plain "secret"]⟩ = true := by
    cbv
  have same := perform_replaceAt ⟨rfl, rfl, rfl⟩ wellFormed.1 wellFormed.2 rfl rfl reached above
    leads leftOut (.array []) .null
  exact ⟨rfl, _, rfl, same.trans done⟩

end Comparison

end StructuralDiff
