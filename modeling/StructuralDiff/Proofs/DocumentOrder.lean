import Mathlib
import StructuralDiff.Proofs.UniquePaths

/-!
# The order in which differences are found

A comparison without rules of pairing goes through the documents depth first. The
differences at a path and under it come one right after another. Where two objects are
compared, the entries that only the reference has come first, then what is under the keys of
both, and then the entries that only the candidate has; where two arrays are compared, the
items come by position. Filters and a limit leave out differences and move none, so the order
is shown of every part of what the walk comes upon.
-/

namespace StructuralDiff

/-! ## Blocks of a list -/

section Blocks

variable {α β : Type}

/-- The items of a list that pass a test stand together. -/
def InOneBlock (test : α → Bool) (list : List α) : Prop :=
  ∃ before block after, list = before ++ block ++ after ∧ (∀ item ∈ block, test item = true) ∧
    ∀ item ∈ before ++ after, test item = false

variable {test : α → Bool} {list kept : List α}

theorem inOneBlock_of_all (all : ∀ item ∈ list, test item = true) : InOneBlock test list :=
  ⟨[], list, [], by simp, all, by simp⟩

theorem inOneBlock_of_none (none : ∀ item ∈ list, test item = false) : InOneBlock test list :=
  ⟨list, [], [], by simp, by simp, by simpa using none⟩

theorem inOneBlock_toList (shown : Option α) : InOneBlock test shown.toList := by
  cases shown with
  | none => exact inOneBlock_of_none (by simp)
  | some item =>
    cases passes : test item with
    | true => exact inOneBlock_of_all (by simpa using passes)
    | false => exact inOneBlock_of_none (by simpa using passes)

/-- Leaving items out keeps the others together. -/
theorem InOneBlock.of_sublist (together : InOneBlock test list) (within : kept.Sublist list) :
    InOneBlock test kept := by
  obtain ⟨before, block, after, rfl, passes, fails⟩ := together
  obtain ⟨front, keptAfter, rfl, frontWithin, afterWithin⟩ := List.sublist_append_iff.1 within
  obtain ⟨keptBefore, keptBlock, rfl, beforeWithin, blockWithin⟩ :=
    List.sublist_append_iff.1 frontWithin
  refine ⟨keptBefore, keptBlock, keptAfter, rfl, ?_, ?_⟩
  · intro item member
    exact passes item (blockWithin.mem member)
  · intro item member
    exact fails item ((beforeWithin.append afterWithin).mem member)

/-- Items that stand together are a part of the list as they are. -/
theorem InOneBlock.filter_isInfix (together : InOneBlock test list) :
    list.filter test <:+: list := by
  obtain ⟨before, block, after, rfl, passes, fails⟩ := together
  have none : (before ++ after).filter test = [] := by
    rw [List.filter_eq_nil_iff]
    intro item member
    simp [fails item member]
  obtain ⟨noneBefore, noneAfter⟩ := List.append_eq_nil_iff.1 (List.filter_append .. ▸ none)
  rw [List.filter_append, List.filter_append, noneBefore, noneAfter, List.filter_eq_self.2 passes]
  exact ⟨before, after, by simp⟩

/-- The items stand together in parts one after another if they do in each part and are not in
two of them. -/
theorem inOneBlock_flatMap {parts : List β} {shown : β → List α}
    (each : ∀ part ∈ parts, InOneBlock test (shown part))
    (apart : parts.Pairwise fun first second =>
      (∃ item ∈ shown first, test item = true) → ∀ item ∈ shown second, test item = false) :
    InOneBlock test (parts.flatMap shown) := by
  induction parts with
  | nil => exact inOneBlock_of_none (by simp)
  | cons part parts ih =>
    obtain ⟨here, later⟩ := List.pairwise_cons.1 apart
    rw [List.flatMap_cons]
    by_cases found : ∃ item ∈ shown part, test item = true
    · obtain ⟨before, block, after, same, passes, fails⟩ := each part List.mem_cons_self
      refine ⟨before, block, after ++ parts.flatMap shown, by simp [same], passes, ?_⟩
      intro item member
      rw [← List.append_assoc] at member
      rcases List.mem_append.1 member with inPart | inOthers
      · exact fails item inPart
      · obtain ⟨other, known, inside⟩ := List.mem_flatMap.1 inOthers
        exact here other known found item inside
    · obtain ⟨before, block, after, same, passes, fails⟩ :=
        ih (fun other known => each other (List.mem_cons_of_mem _ known)) later
      refine ⟨shown part ++ before, block, after, by simp [same], passes, ?_⟩
      intro item member
      rw [List.append_assoc] at member
      rcases List.mem_append.1 member with inPart | inOthers
      · by_contra passesToo
        exact found ⟨item, inPart, by simpa using passesToo⟩
      · exact fails item inOthers

/-- There is a test for each part, and what a part shows passes the test of the part and no
other. -/
structure ToldBy (test : β → α → Bool) (shown : β → List α) (parts : List β) : Prop where
  own : ∀ part ∈ parts, ∀ item ∈ shown part, test part item = true
  others : parts.Pairwise fun first second =>
    (∀ item ∈ shown first, test second item = false) ∧
      ∀ item ∈ shown second, test first item = false

namespace ToldBy

variable {test : β → α → Bool} {shown : β → List α} {part : β} {parts : List β}

theorem tail (told : ToldBy test shown (part :: parts)) : ToldBy test shown parts where
  own other known := told.own other (List.mem_cons_of_mem _ known)
  others := (List.pairwise_cons.1 told.others).2

/-- Of the first part and the others, the tests tell each item. -/
theorem filter_of_kept (told : ToldBy test shown (part :: parts)) {first others : List α}
    (inFirst : first.Sublist (shown part)) (inOthers : others.Sublist (parts.flatMap shown)) :
    (first ++ others).filter (test part) = first ∧
      ∀ other ∈ parts, (first ++ others).filter (test other) = others.filter (test other) := by
  obtain ⟨apart, -⟩ := List.pairwise_cons.1 told.others
  constructor
  · have whole : first.filter (test part) = first :=
      List.filter_eq_self.2 fun item member =>
        told.own part List.mem_cons_self item (inFirst.mem member)
    have none : others.filter (test part) = [] := by
      rw [List.filter_eq_nil_iff]
      intro item member
      obtain ⟨other, known, inside⟩ := List.mem_flatMap.1 (inOthers.mem member)
      simp [(apart other known).2 item inside]
    rw [List.filter_append, whole, none, List.append_nil]
  · intro other known
    have none : first.filter (test other) = [] := by
      rw [List.filter_eq_nil_iff]
      intro item member
      simp [(apart other known).1 item (inFirst.mem member)]
    rw [List.filter_append, none, List.nil_append]

/-- What is kept of the parts is what passes the tests of the parts, one after another. -/
theorem eq_flatMap_filter (told : ToldBy test shown parts)
    (within : list.Sublist (parts.flatMap shown)) :
    list = parts.flatMap fun part => list.filter (test part) := by
  induction parts generalizing list with
  | nil => exact List.sublist_nil.1 within
  | cons part parts ih =>
    rw [List.flatMap_cons] at within
    obtain ⟨first, others, rfl, inFirst, inOthers⟩ := List.sublist_append_iff.1 within
    obtain ⟨own, later⟩ := told.filter_of_kept inFirst inOthers
    rw [List.flatMap_cons, own, List.flatMap_congr later, ← ih told.tail inOthers]

/-- What is kept of the parts and passes the test of a part is kept of the part. -/
theorem filter_sublist (told : ToldBy test shown parts)
    (within : list.Sublist (parts.flatMap shown)) (known : part ∈ parts) :
    (list.filter (test part)).Sublist (shown part) := by
  induction parts generalizing list with
  | nil => cases known
  | cons head parts ih =>
    rw [List.flatMap_cons] at within
    obtain ⟨first, others, rfl, inFirst, inOthers⟩ := List.sublist_append_iff.1 within
    obtain ⟨own, later⟩ := told.filter_of_kept inFirst inOthers
    rcases List.mem_cons.1 known with rfl | inTail
    · rw [own]
      exact inFirst
    · rw [later part inTail]
      exact ih told.tail inOthers inTail

end ToldBy

end Blocks

/-- Entries with plain keys are compared as they are. -/
theorem Policy.entries_of_plain (policy : Policy) {entries : Entries Key Value}
    (distinct : entries.keys.Nodup) (plain : ∀ entry ∈ entries, entry.1.IsPlain) :
    policy.entries entries = entries := by
  have written : entries.map (fun entry => (entry.1.canonical, entry.2)) = entries := by
    refine (List.map_congr_left fun entry member => ?_).trans (List.map_id entries)
    obtain ⟨name, same, -⟩ := plain entry member
    rw [same]
    exact Prod.ext same.symm rfl
  unfold Policy.entries
  split
  · rw [written, Entries.ofPairs_of_nodup distinct]
  · rfl

/-! ## Differences at and under a path -/

namespace Difference

/-- The difference is at a path or under it: its own path, or one on the way to it, is written
as the path is. -/
def isUnder (difference : Difference) (path : Path) : Bool :=
  (Path.read difference.path).toOption.any fun place =>
    (place.ancestors ++ [place]).any path.sameText

/-- The difference is where a step leads from a path, or under it. -/
def isBelow (difference : Difference) (path : Path) (step : String) : Bool :=
  (path.join step).toOption.any difference.isUnder

variable {difference : Difference} {path child : Path} {step : String}

/-- A difference is under a path that can be read back when its own path starts as the path
does. -/
theorem isUnder_iff (legible : path.Legible) :
    difference.isUnder path = true ↔
      ∃ place, Path.read difference.path = .ok place ∧ path.segments <+: place.segments := by
  unfold isUnder
  cases given : Path.read difference.path with
  | error cause => simp [Except.toOption]
  | ok place =>
    have placeLegible := Path.legible_of_read given
    simp only [Except.toOption, Option.any_some, List.any_eq_true, Except.ok.injEq,
      exists_eq_left', Path.mem_ancestors_append_iff]
    constructor
    · rintro ⟨start, starts, same⟩
      have texts : path.text = start.text := by simpa [Path.sameText] using same
      rw [legible.eq_of_text_eq (placeLegible.of_start starts) texts]
      exact starts
    · intro starts
      exact ⟨path, starts, by simp [Path.sameText]⟩

/-- Paths of one written form have the same differences under them. -/
theorem isUnder_eq_of_text_eq (same : path.text = child.text) :
    difference.isUnder path = difference.isUnder child := by
  have alike : path.sameText = child.sameText := by
    funext other
    rw [Path.sameText, Path.sameText, same]
  rw [isUnder, isUnder, alike]

/-- What has differences under it is written as a path that can be read back. -/
theorem exists_legible_of_isUnder (under : difference.isUnder path = true) :
    ∃ start : Path, start.Legible ∧ path.text = start.text := by
  unfold isUnder at under
  cases given : Path.read difference.path with
  | error cause => simp [given, Except.toOption] at under
  | ok place =>
    simp only [given, Except.toOption, Option.any_some, List.any_eq_true,
      Path.mem_ancestors_append_iff] at under
    obtain ⟨start, starts, same⟩ := under
    exact ⟨start, (Path.legible_of_read given).of_start starts, by simpa [Path.sameText] using same⟩

theorem isBelow_of_join (joined : path.join step = .ok child) :
    difference.isBelow path step = difference.isUnder child := by
  simp [isBelow, joined, Except.toOption]

/-- What is below a path by a step is under the path. -/
theorem isUnder_of_isBelow (legible : path.Legible) (clear : '/' ∉ step.toList)
    (below : difference.isBelow path step = true) : difference.isUnder path = true := by
  cases joined : path.join step with
  | error cause => simp [isBelow, joined, Except.toOption] at below
  | ok child =>
    rw [isBelow_of_join joined, isUnder_iff (legible.join joined clear)] at below
    obtain ⟨place, given, starts⟩ := below
    obtain ⟨segment, -, rfl⟩ := Path.join_eq_ok_iff.1 joined
    exact (isUnder_iff legible).2 ⟨place, given, (List.prefix_append _ _).trans starts⟩

end Difference

namespace Findings

/-- The differences at a path and under it. -/
def under (findings : Findings) (path : Path) : List Difference :=
  findings.items.filter (·.isUnder path)

/-- The differences where a step leads from a path, and under it. -/
def below (findings : Findings) (path : Path) (step : String) : List Difference :=
  findings.items.filter (·.isBelow path step)

end Findings

namespace Comparison

variable {policy : Policy} {reference candidate left right : Value} {path child : Path}
  {pairings : List Pairing} {pairing : Pairing} {difference : Difference} {list : List Difference}

/-- The pairings of two values that meet have distinct steps, none of them with a separator. -/
structure StepsTold (policy : Policy) (reference candidate : Value) : Prop where
  clear : StepsClear policy reference candidate
  distinct : ∀ ⦃path left right pairings⦄, Meets policy reference candidate path left right →
    plan policy path left right = .descend pairings → Pairing.StepsDistinct pairings

/-- A difference of a visit is below the path by no other step. -/
theorem trim_step_eq_of_isBelow (clear : StepsClear policy reference candidate)
    (meets : Meets policy reference candidate path left right)
    (shown : policy.excludes path = false)
    (planned : plan policy path left right = .descend pairings) {first second : Pairing}
    (inPlan : first ∈ pairings) (inPlanToo : second ∈ pairings)
    (member : difference ∈ (visit policy path first).differences)
    (below : difference.isBelow path second.step = true) :
    Text.trim first.step = Text.trim second.step := by
  obtain ⟨child, place, joined, legible, under, written⟩ :=
    exists_path_of_mem_visit clear meets shown planned inPlan member
  cases joinedToo : path.join second.step with
  | error cause => simp [Difference.isBelow, joinedToo, Except.toOption] at below
  | ok other =>
    have otherLegible := (meets.legible clear).join joinedToo (clear meets planned second inPlanToo)
    rw [Difference.isBelow_of_join joinedToo, Difference.isUnder_iff otherLegible, written,
      Path.read_text legible] at below
    obtain ⟨_, ⟨⟩, underToo⟩ := below
    exact Path.trim_eq_of_join joined joinedToo under underToo

/-- The steps tell the differences of the visits. -/
theorem toldBy_of_plan (told : StepsTold policy reference candidate)
    (meets : Meets policy reference candidate path left right)
    (shown : policy.excludes path = false)
    (planned : plan policy path left right = .descend pairings) :
    ToldBy (fun pairing difference => difference.isBelow path pairing.step)
      (fun pairing => (visit policy path pairing).differences) pairings where
  own pairing inPlan difference member := by
    obtain ⟨child, place, joined, legible, under, written⟩ :=
      exists_path_of_mem_visit told.clear meets shown planned inPlan member
    have childLegible := (meets.legible told.clear).join joined
      (told.clear meets planned pairing inPlan)
    rw [Difference.isBelow_of_join joined, Difference.isUnder_iff childLegible]
    exact ⟨place, by rw [written, Path.read_text legible], under⟩
  others := by
    refine (told.distinct meets planned).imp_of_mem fun {first second} inPlan inPlanToo apart => ?_
    constructor
    · intro difference member
      by_contra below
      exact apart (trim_step_eq_of_isBelow told.clear meets shown planned inPlan inPlanToo member
        (by simpa using below))
    · intro difference member
      by_contra below
      exact apart (trim_step_eq_of_isBelow told.clear meets shown planned inPlanToo inPlan member
        (by simpa using below)).symm

/-- The walk of two containers comes upon differences of the visits, in their order. -/
theorem differences_sublist_of_descend
    (planned : plan policy path left right = .descend pairings) :
    (walk policy path left right).differences.Sublist
      (pairings.flatMap fun pairing => (visit policy path pairing).differences) := by
  by_cases leftOut : policy.excludes path = true
  · rw [walk_of_excluded leftOut]
    exact List.nil_sublist _
  · rw [walk_of_descend (by simpa using leftOut) planned]
    simpa only [List.flatMap_map] using
      Trace.differences_sequence_sublist (pairings.map (visit policy path))

/-- What is below a path by a step is to be found under the path. -/
theorem filter_isBelow (told : StepsTold policy reference candidate)
    (meets : Meets policy reference candidate path left right)
    (planned : plan policy path left right = .descend pairings) (inPlan : pairing ∈ pairings)
    (list : List Difference) :
    (list.filter (·.isUnder path)).filter (·.isBelow path pairing.step) =
      list.filter (·.isBelow path pairing.step) := by
  rw [List.filter_filter]
  refine List.filter_congr fun difference _ => ?_
  rw [Bool.and_eq_left_iff_imp]
  exact Difference.isUnder_of_isBelow (meets.legible told.clear)
    (told.clear meets planned pairing inPlan)

/-- What the walk of two containers left of some differences is below the path by the steps of
the pairings, in their order. -/
theorem filter_isUnder_eq_flatMap (told : StepsTold policy reference candidate)
    (meets : Meets policy reference candidate path left right)
    (planned : plan policy path left right = .descend pairings)
    (within : (list.filter (·.isUnder path)).Sublist (walk policy path left right).differences) :
    list.filter (·.isUnder path) =
      pairings.flatMap fun pairing => list.filter (·.isBelow path pairing.step) := by
  have inside : ∀ pairing ∈ pairings,
      (list.filter (·.isUnder path)).filter (·.isBelow path pairing.step) =
        list.filter (·.isBelow path pairing.step) :=
    fun pairing inPlan => filter_isBelow told meets planned inPlan list
  rw [← List.flatMap_congr inside]
  by_cases leftOut : policy.excludes path = true
  · rw [walk_of_excluded leftOut] at within
    simp [List.sublist_nil.1 within]
  · have shown : policy.excludes path = false := by simpa using leftOut
    exact (toldBy_of_plan told meets shown planned).eq_flatMap_filter
      (within.trans (differences_sublist_of_descend planned))

/-- What is below a path by the step of a pairing comes up in the visit of the pairing. -/
theorem filter_isBelow_sublist (told : StepsTold policy reference candidate)
    (meets : Meets policy reference candidate path left right)
    (planned : plan policy path left right = .descend pairings) (inPlan : pairing ∈ pairings)
    (within : (list.filter (·.isUnder path)).Sublist (walk policy path left right).differences) :
    (list.filter (·.isBelow path pairing.step)).Sublist
      (visit policy path pairing).differences := by
  rw [← filter_isBelow told meets planned inPlan]
  by_cases leftOut : policy.excludes path = true
  · rw [walk_of_excluded leftOut] at within
    rw [List.sublist_nil.1 within]
    exact List.nil_sublist _
  · have shown : policy.excludes path = false := by simpa using leftOut
    exact (toldBy_of_plan told meets shown planned).filter_sublist
      (within.trans (differences_sublist_of_descend planned)) inPlan

/-- Of what a comparison comes upon, the differences under the path of two values that meet are
those of their own walk. By induction along the way to the two values. -/
theorem filter_isUnder_sublist (told : StepsTold policy reference candidate)
    (kept : list.Sublist (walk policy .root reference candidate).differences)
    (meets : Meets policy reference candidate path left right) :
    (list.filter (·.isUnder path)).Sublist (walk policy path left right).differences := by
  induction meets with
  | start => exact List.filter_sublist.trans kept
  | onward above shown planned member joined ih =>
    have below := filter_isBelow_sublist told above planned member ih
    rw [visit_both joined] at below
    simpa only [Pairing.step, Difference.isBelow_of_join joined] using below

/-- A visit that comes upon something under a path goes towards the path, unless the path is on
the way already. -/
theorem child_prefix_of_isUnder (clear : StepsClear policy reference candidate)
    (meets : Meets policy reference candidate path left right)
    (shown : policy.excludes path = false)
    (planned : plan policy path left right = .descend pairings) (inPlan : pairing ∈ pairings)
    (member : difference ∈ (visit policy path pairing).differences) {start : Path}
    (legible : start.Legible) (notAbove : ¬ start.segments <+: path.segments)
    (under : difference.isUnder start = true) :
    ∃ child, path.join pairing.step = .ok child ∧ child.segments <+: start.segments := by
  obtain ⟨child, place, joined, placeLegible, childUnder, written⟩ :=
    exists_path_of_mem_visit clear meets shown planned inPlan member
  rw [Difference.isUnder_iff legible, written, Path.read_text placeLegible] at under
  obtain ⟨_, ⟨⟩, starts⟩ := under
  refine ⟨child, joined, ?_⟩
  rcases List.prefix_or_prefix_of_prefix childUnder starts with onward | back
  · exact onward
  · obtain ⟨segment, -, rfl⟩ := Path.join_eq_ok_iff.1 joined
    rcases List.prefix_concat_iff.1 back with whole | shorter
    · exact whole ▸ List.prefix_refl _
    · exact absurd shorter notAbove

/-- The differences at a path and under it come one right after another. By induction along the
walk: unless all of the walk is under the path, only one of the visits goes towards it. -/
theorem inOneBlock_walk (told : StepsTold policy reference candidate)
    (meets : Meets policy reference candidate path left right) {start : Path}
    (legible : start.Legible) :
    InOneBlock (·.isUnder start) (walk policy path left right).differences := by
  induction path, left, right using walk_induction policy with
  | visited path left right ih =>
    by_cases above : start.segments <+: path.segments
    · refine inOneBlock_of_all fun difference member => ?_
      obtain ⟨place, placeLegible, under, written⟩ :=
        exists_path_of_mem_walk told.clear meets member
      rw [Difference.isUnder_iff legible, written, Path.read_text placeLegible]
      exact ⟨place, rfl, above.trans under⟩
    refine walk_cases ?leftOut ?fails ?differs ?compares ?descends
    case leftOut => exact fun _ => inOneBlock_toList none
    case fails => exact fun _ _ _ => inOneBlock_toList none
    case differs => exact fun _ _ => inOneBlock_toList (some _)
    case compares =>
      intro shown planned
      obtain ⟨once, same⟩ := exists_of_compareScalars policy path left right
      rw [same]
      exact inOneBlock_toList once
    case descends =>
      intro pairings shown planned
      have kept := Trace.differences_sequence_sublist (pairings.map (visit policy path))
      refine InOneBlock.of_sublist ?_ kept
      rw [List.flatMap_map]
      refine inOneBlock_flatMap ?_ ?_
      · intro pairing inPlan
        rcases exists_of_visit policy path pairing with
          ⟨once, same⟩ | ⟨_, _, _, _, rfl, joined, same⟩
        · rw [same]
          exact inOneBlock_toList once
        · rw [same]
          exact ih planned inPlan joined (meets.onward shown planned inPlan joined)
      · refine (told.distinct meets planned).imp_of_mem ?_
        rintro first second inPlan inPlanToo apart ⟨difference, member, under⟩ other memberToo
        by_contra underToo
        obtain ⟨child, joined, towards⟩ := child_prefix_of_isUnder told.clear meets shown planned
          inPlan member legible above under
        obtain ⟨childToo, joinedToo, towardsToo⟩ := child_prefix_of_isUnder told.clear meets shown
          planned inPlanToo memberToo legible above (by simpa using underToo)
        exact apart (Path.trim_eq_of_join joined joinedToo towards towardsToo)

/-- Without rules of pairing, the steps into documents with plain keys are told. -/
theorem stepsTold_of_noRules (noKeys : policy.matchByKey = []) (noValues : policy.matchByValue = [])
    (wellFormed : reference.WellFormed) (wellFormedToo : candidate.WellFormed)
    (plain : reference.EveryKey Key.IsPlain) (plainToo : candidate.EveryKey Key.IsPlain) :
    StepsTold policy reference candidate := by
  have legible : ∀ pattern ∈ policy.matchByKey, pattern.Legible := by
    rw [noKeys]
    exact fun pattern member => absurd member List.not_mem_nil
  have unpaired : ∀ value, ¬ PairsItemsBy policy reference candidate value := by
    rintro value ⟨path, references, candidates, key, entries, -, keyed, -⟩
    rw [policy.keyFor_of_noKeys noKeys] at keyed
    cases keyed
  have apart : ApartByText policy reference candidate :=
    .of_texts fun value pairs => absurd pairs (unpaired value)
  refine ⟨stepsClear legible ?_ ?_ apart.clear, fun path left right pairings meets planned => ?_⟩
  · exact plain.imp fun key isPlain => (Position.Step.entry_isPlain isPlain).1
  · exact plainToo.imp fun key isPlain => (Position.Step.entry_isPlain isPlain).1
  · exact stepsDistinct_of_plan legible noValues wellFormed wellFormedToo plain plainToo apart meets
      planned

/-- Differences come in the order of the documents. -/
structure InDocumentOrder (policy : Policy) (reference candidate : Value) (findings : Findings) :
    Prop where
  /-- What is at a path and under it comes without a gap. -/
  block : ∀ path, findings.under path <:+: findings.items
  /-- Under two objects come the entries that only the reference has, what is under the keys of
  both in the order of the reference, and the entries that only the candidate has. -/
  entries : ∀ {path} {references candidates : Entries Key Value},
    Meets policy reference candidate path (.object references) (.object candidates) →
    findings.under path =
      ((references.keys.filter fun key => !candidates.has key).flatMap fun key =>
        findings.below path key.name) ++
      ((references.keys.filter fun key => candidates.has key).flatMap fun key =>
        findings.below path key.name) ++
      ((candidates.keys.filter fun key => !references.has key).flatMap fun key =>
        findings.below path key.name)
  /-- An entry that only the reference has is at most one difference. -/
  missing : ∀ {path child} {references candidates : Entries Key Value} {key value},
    Meets policy reference candidate path (.object references) (.object candidates) →
    references.find? key = some value → candidates.find? key = none →
    path.join key.name = .ok child →
    (findings.under child).Sublist [⟨.missing, child.text, some value, none⟩]
  /-- An entry that only the candidate has is at most one difference. -/
  extra : ∀ {path child} {references candidates : Entries Key Value} {key value},
    Meets policy reference candidate path (.object references) (.object candidates) →
    references.find? key = none → candidates.find? key = some value →
    path.join key.name = .ok child →
    (findings.under child).Sublist [⟨.extra, child.text, none, some value⟩]
  /-- Under two arrays comes what is under the numbers of the items, in their order. -/
  items : ∀ {path} {references candidates : List Value},
    Meets policy reference candidate path (.array references) (.array candidates) →
    findings.under path =
      (List.range' 1 (max references.length candidates.length)).flatMap fun number =>
        findings.below path (Decimal.naturalText number)

/-- A value that only one side has is one difference at its path, or left out. -/
theorem oneSided_sublist (policy : Policy) (kind : DifferenceKind) (path : Path)
    (value other : Option Value) :
    (oneSided policy kind path value other).differences.Sublist
      [⟨kind, path.text, value, other⟩] := by
  unfold oneSided
  split
  · exact List.nil_sublist _
  · exact List.Sublist.refl _

section Parts

variable {findings : Findings}

/-- Of the differences of a comparison, those at a path and under it come one right after
another. -/
theorem under_isInfix (told : StepsTold policy reference candidate)
    (kept : findings.items.Sublist (walk policy .root reference candidate).differences)
    (path : Path) : findings.under path <:+: findings.items := by
  by_cases found : ∃ difference ∈ findings.items, difference.isUnder path = true
  · obtain ⟨difference, -, under⟩ := found
    obtain ⟨start, legible, same⟩ := Difference.exists_legible_of_isUnder under
    have alike : findings.under path = findings.under start :=
      List.filter_congr fun other _ => Difference.isUnder_eq_of_text_eq same
    rw [alike]
    exact ((inOneBlock_walk told .start legible).of_sublist kept).filter_isInfix
  · have none : findings.under path = [] :=
      List.filter_eq_nil_iff.2 fun difference member under => found ⟨difference, member, under⟩
    rw [none]
    exact List.nil_infix

/-- The differences under the path of two containers that meet are below it by the steps into
them, in the order of the steps. -/
theorem under_eq_flatMap (told : StepsTold policy reference candidate)
    (kept : findings.items.Sublist (walk policy .root reference candidate).differences)
    (meets : Meets policy reference candidate path left right)
    (planned : plan policy path left right = .descend pairings) {steps : List Position.Step}
    (enumerated : Pairing.Enumerated left right steps pairings) :
    findings.under path = steps.flatMap fun step => findings.below path step.name := by
  calc
    findings.under path = pairings.flatMap fun pairing => findings.below path pairing.step :=
      filter_isUnder_eq_flatMap told meets planned (filter_isUnder_sublist told kept meets)
    _ = (pairings.map Pairing.step).flatMap (findings.below path) := by rw [List.flatMap_map]
    _ = (steps.map Position.Step.name).flatMap (findings.below path) := by rw [enumerated.map_step]
    _ = steps.flatMap fun step => findings.below path step.name := by rw [List.flatMap_map]

/-- The differences under the path to which a pairing leads come up in its visit. -/
theorem under_sublist_visit (told : StepsTold policy reference candidate)
    (kept : findings.items.Sublist (walk policy .root reference candidate).differences)
    (meets : Meets policy reference candidate path left right)
    (planned : plan policy path left right = .descend pairings) (inPlan : pairing ∈ pairings)
    (joined : path.join pairing.step = .ok child) :
    (findings.under child).Sublist (visit policy path pairing).differences := by
  have below := filter_isBelow_sublist told meets planned inPlan
    (filter_isUnder_sublist told kept meets)
  simp only [Difference.isBelow_of_join joined] at below
  exact below

/-- Under the path of a value that only the reference has there is at most its own
difference. -/
theorem under_sublist_missing (told : StepsTold policy reference candidate)
    (kept : findings.items.Sublist (walk policy .root reference candidate).differences)
    (meets : Meets policy reference candidate path left right)
    (planned : plan policy path left right = .descend pairings) {step : String} {value : Value}
    (inPlan : .missing step value ∈ pairings) (joined : path.join step = .ok child) :
    (findings.under child).Sublist [⟨.missing, child.text, some value, none⟩] := by
  have visited := under_sublist_visit told kept meets planned inPlan joined
  rw [visit_missing joined] at visited
  exact visited.trans (oneSided_sublist ..)

/-- Under the path of a value that only the candidate has there is at most its own
difference. -/
theorem under_sublist_extra (told : StepsTold policy reference candidate)
    (kept : findings.items.Sublist (walk policy .root reference candidate).differences)
    (meets : Meets policy reference candidate path left right)
    (planned : plan policy path left right = .descend pairings) {step : String} {value : Value}
    (inPlan : .extra step value ∈ pairings) (joined : path.join step = .ok child) :
    (findings.under child).Sublist [⟨.extra, child.text, none, some value⟩] := by
  have visited := under_sublist_visit told kept meets planned inPlan joined
  rw [visit_extra joined] at visited
  exact visited.trans (oneSided_sublist ..)

end Parts

/-- Objects with plain keys that meet are paired by their keys, and these are distinct. -/
theorem Meets.plan_object (wellFormed : reference.WellFormed)
    (wellFormedToo : candidate.WellFormed) (plain : reference.EveryKey Key.IsPlain)
    (plainToo : candidate.EveryKey Key.IsPlain) {references candidates : Entries Key Value}
    (meets : Meets policy reference candidate path (.object references) (.object candidates)) :
    references.keys.Nodup ∧ candidates.keys.Nodup ∧
      plan policy path (.object references) (.object candidates) =
        .descend (Pairing.ofEntries references candidates) := by
  obtain ⟨leftFormed, rightFormed⟩ := meets.of_parts
    (fun value formed part inside => formed.of_mem_parts inside) wellFormed wellFormedToo
  obtain ⟨leftPlain, rightPlain⟩ := meets.of_parts
    (fun value everyKey part inside => Value.EveryKey.of_mem_parts everyKey inside) plain plainToo
  refine ⟨leftFormed.1, rightFormed.1, ?_⟩
  rw [plan, policy.entries_of_plain leftFormed.1 fun entry member => leftPlain.of_mem member,
    policy.entries_of_plain rightFormed.1 fun entry member => rightPlain.of_mem member]

/-- Without rules of pairing, differences between documents with plain keys come in the order of
the documents, whatever filters and limits leave of them. -/
theorem perform_inDocumentOrder {policy : Policy} (noKeys : policy.matchByKey = [])
    (noValues : policy.matchByValue = []) {reference candidate : Value}
    (wellFormed : reference.WellFormed) (wellFormedToo : candidate.WellFormed)
    (plain : reference.EveryKey Key.IsPlain) (plainToo : candidate.EveryKey Key.IsPlain)
    {findings : Findings} (done : perform policy reference candidate = .ok findings) :
    InDocumentOrder policy reference candidate findings := by
  have told : StepsTold policy reference candidate :=
    stepsTold_of_noRules noKeys noValues wellFormed wellFormedToo plain plainToo
  have kept := (items_prefix_of_perform done).sublist
  constructor
  case block => exact under_isInfix told kept
  case entries =>
    intro path references candidates meets
    obtain ⟨distinct, distinctToo, planned⟩ :=
      meets.plan_object wellFormed wellFormedToo plain plainToo
    have enumerated := Pairing.enumerated_ofEntries distinct distinctToo
    rw [under_eq_flatMap told kept meets planned enumerated]
    simp only [Pairing.entrySteps, List.flatMap_map, List.flatMap_append, Position.Step.name_entry]
  case missing =>
    intro path child references candidates key value meets there absent joined
    obtain ⟨-, -, planned⟩ := meets.plan_object wellFormed wellFormedToo plain plainToo
    have inPlan : .missing key.name value ∈ Pairing.ofEntries references candidates :=
      Pairing.mem_ofEntries_iff.2 (.inl ⟨key, value, Entries.mem_of_find? there, absent, rfl⟩)
    exact under_sublist_missing told kept meets planned inPlan joined
  case extra =>
    intro path child references candidates key value meets absent there joined
    obtain ⟨-, -, planned⟩ := meets.plan_object wellFormed wellFormedToo plain plainToo
    have inPlan : .extra key.name value ∈ Pairing.ofEntries references candidates :=
      Pairing.mem_ofEntries_iff.2
        (.inr (.inr ⟨key, value, Entries.mem_of_find? there, absent, rfl⟩))
    exact under_sublist_extra told kept meets planned inPlan joined
  case items =>
    intro path references candidates meets
    have planned := policy.plan_array_of_noRules noKeys noValues path references candidates
    rw [under_eq_flatMap told kept meets planned (Pairing.enumerated_byPosition ..)]
    simp only [Pairing.itemSteps, List.flatMap_map, Position.Step.name_item]

/-- An array of three, an object of two and a key of its own. -/
def arrayObjectAndKey : Value :=
  .object [(.text "a", .array [.null, .null, .null]),
    (.text "b", .object [(.text "x", .null), (.text "y", .null)]), (.text "c", .null)]

/-- A shorter array, another object and another key, in another order. -/
def keyObjectAndArray : Value :=
  .object [(.text "d", .null), (.text "b", .object [(.text "z", .null), (.text "x", .text "t")]),
    (.text "a", .array [.text "t"])]

/-- The second item of the array is left out, and the differences end after the sixth. -/
def sixWithoutSecond : Policy :=
  { Policy.default with maxDiffs := some 6, rejectPaths := [⟨[.plain "a", .plain "2"]⟩] }

/-- Six differences of two documents in the order of the documents. -/
theorem perform_inDocumentOrder_six :
    ∃ findings, perform sixWithoutSecond arrayObjectAndKey keyObjectAndArray = .ok findings ∧
      findings.items.map Difference.path = ["/c", "/a/1", "/a/3", "/b/y", "/b/x", "/b/z"] ∧
      InDocumentOrder sixWithoutSecond arrayObjectAndKey keyObjectAndArray findings := by
  have done : perform sixWithoutSecond arrayObjectAndKey keyObjectAndArray = .ok {
      items := [⟨.missing, "/c", some .null, none⟩,
        ⟨.mismatch, "/a/1", some .null, some (.text "t")⟩, ⟨.missing, "/a/3", some .null, none⟩,
        ⟨.missing, "/b/y", some .null, none⟩, ⟨.mismatch, "/b/x", some .null, some (.text "t")⟩,
        ⟨.extra, "/b/z", none, some .null⟩]
      positions := [("/c", 0), ("/a/1", 1), ("/a/3", 2), ("/b/y", 3), ("/b/x", 4), ("/b/z", 5)]
      limit := some 6 } := by
    cbv
  have wellFormed : arrayObjectAndKey.WellFormed ∧ keyObjectAndArray.WellFormed := by
    simp [arrayObjectAndKey, keyObjectAndArray, Value.WellFormed, Value.WellFormedItems,
      Value.WellFormedEntries, Entries.keys]
  have plain : arrayObjectAndKey.EveryKey Key.IsPlain ∧ keyObjectAndArray.EveryKey Key.IsPlain := by
    have letters : ∀ name ∈ ["a", "b", "c", "d", "x", "y", "z"], (Key.text name).IsPlain := by
      intro name letter
      refine ⟨name, rfl, ?_⟩
      simp only [List.mem_cons, List.not_mem_nil, or_false] at letter
      rcases letter with rfl | rfl | rfl | rfl | rfl | rfl | rfl <;> exact ⟨by decide, by cbv⟩
    simp [arrayObjectAndKey, keyObjectAndArray, Value.EveryKey, Value.EveryKeyOfItems,
      Value.EveryKeyOfEntries, letters]
  exact ⟨_, done, rfl, perform_inDocumentOrder rfl rfl wellFormed.1 wellFormed.2 plain.1 plain.2
    done⟩

end Comparison

end StructuralDiff
