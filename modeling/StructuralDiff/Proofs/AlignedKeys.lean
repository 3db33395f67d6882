import Mathlib
import StructuralDiff.Comparison.Recording
import StructuralDiff.Policy.Draft
import StructuralDiff.Proofs.Indexing
import StructuralDiff.Proofs.Legible
import StructuralDiff.Proofs.PlainPolicies
import StructuralDiff.Proofs.UniquePaths

/-!
# Arrays whose items are aligned by a key

When the items of two arrays are objects that have the same key values in the same order,
it makes no difference whether they are paired by position or by the key: the same objects
are compared, and what comes up in them is the same, below a step that names the key value
instead of the position. Only the order of the steps is another, for items that are paired
by a key come in the order of its values (`Comparison.perform_keyedBy_aligned`).
-/

namespace StructuralDiff

/-! ## Differences below another first step -/

/-- A difference comes up below another first step, and is otherwise the same. -/
structure Difference.Moved (front frontToo : String) (before after : Difference) : Prop where
  kind : after.kind = before.kind
  reference : after.reference = before.reference
  candidate : after.candidate = before.candidate
  path : ∃ rest : List String, before.path = "/" ++ "/".intercalate (front :: rest) ∧
    after.path = "/" ++ "/".intercalate (frontToo :: rest)

namespace Trace

/-- The same comes up below another first step. -/
structure Moved (front frontToo : String) (before after : Trace) : Prop where
  failure : after.failure = before.failure
  differences : List.Forall₂ (Difference.Moved front frontToo) before.differences after.differences

variable {front frontToo : String}

theorem Moved.clean : Moved front frontToo .clean .clean := ⟨rfl, .nil⟩

theorem Moved.failed (error : ComparisonError) :
    Moved front frontToo (.failed error) (.failed error) := ⟨rfl, .nil⟩

theorem Moved.found {before after : Difference}
    (moved : Difference.Moved front frontToo before after) :
    Moved front frontToo (.found before) (.found after) := ⟨rfl, .cons moved .nil⟩

/-- What comes up one after another is moved when all of it is. -/
theorem Moved.sequence {befores afters : List Trace}
    (moved : List.Forall₂ (Moved front frontToo) befores afters) :
    Moved front frontToo (sequence befores) (sequence afters) := by
  induction moved with
  | nil => exact .clean
  | @cons before after befores afters here _ ih =>
    rw [sequence_cons, sequence_cons]
    cases failure : before.failure with
    | some error =>
      rw [append_of_failed failure, append_of_failed (here.failure.trans failure)]
      exact here
    | none =>
      rw [append_of_complete failure, append_of_complete (here.failure.trans failure)]
      exact ⟨ih.failure, List.rel_append here.differences ih.differences⟩

end Trace

/-! ## A key for the items of the whole document -/

namespace Policy

/-- The terms on which the items of the whole document are paired by a key. -/
def keyedBy (key : String) : Policy :=
  { default with matchByKey := [⟨[.keyExpression key]⟩] }

variable {key : String}

/-- A setting for a key of the whole document makes a policy. -/
theorem build_keyedBy (given : Segment.read (":" ++ key) = .ok (.keyExpression key))
    (oneSegment : '/' ∉ key.toList) :
    ({ Draft.empty with matchByKey := [.list [.text ("/:" ++ key)]] } : Draft).build =
      .ok (keyedBy key) := by
  have legible : Path.Legible ⟨[.keyExpression key]⟩ := by
    intro segment member
    cases List.mem_singleton.1 member
    exact ⟨Segment.legible_of_read given, by simpa [Segment.text] using oneSegment⟩
  have written : Path.text ⟨[.keyExpression key]⟩ = "/:" ++ key := by
    rw [← String.toList_inj]
    simp [Path.text, Segment.text]
  have read := Path.read_text legible
  rw [written] at read
  simp only [Draft.build, Draft.empty, Setting.patternsOfAll, Setting.patterns,
    Setting.readPattern, read]
  rfl

/-- The key applies to the whole document. -/
theorem keyFor_keyedBy_root : (keyedBy key).keyFor .root = .ok (some key) := rfl

/-- The key applies to nothing inside the document. -/
theorem keyFor_keyedBy_inside {first : Segment} (written : first.text.toList ≠ [])
    (rest : List Segment) : (keyedBy key).keyFor ⟨first :: rest⟩ = .ok none := by
  have otherText : Path.sameText .root ⟨first :: rest⟩ = false := by
    rw [Path.sameText, beq_eq_false_iff_ne]
    intro same
    have characters := congrArg String.toList same
    rw [Path.toList_text, Path.toList_text] at characters
    have some : first.text ≠ "" := fun empty => written (by rw [empty]; rfl)
    cases rest <;> simp [Path.root, some] at characters
  have otherwise : Path.root.accepts ⟨first :: rest⟩ = false := by
    rw [Path.accepts, otherText]
    rfl
  have patterns : (keyedBy key).keyPatterns = [⟨[.keyExpression key]⟩] := rfl
  have none : (keyedBy key).keyPatternsFor ⟨first :: rest⟩ = [] := by
    rw [keyPatternsFor, patterns, List.filter_cons_of_neg, List.filter_nil]
    have above : Path.parent? ⟨[.keyExpression key]⟩ = some .root := rfl
    simp [above, otherwise]
  rw [keyFor, none]

end Policy

namespace Comparison

variable {firstToo : Segment}

/-- Below a first step, two values are treated as on default terms. -/
theorem plan_keyedBy_inside (key : String) (first : Segment)
    (written : firstToo.text.toList ≠ []) (rest restToo : List Segment)
    (reference candidate : Value) :
    plan (.keyedBy key) ⟨firstToo :: restToo⟩ reference candidate =
      plan .default ⟨first :: rest⟩ reference candidate := by
  have items : ∀ references candidates : List Value,
      Pairing.ofItems (.keyedBy key) ⟨firstToo :: restToo⟩ references candidates =
        Pairing.ofItems .default ⟨first :: rest⟩ references candidates := by
    intro references candidates
    have unkeyed : Policy.default.keyFor ⟨first :: rest⟩ = .ok none := rfl
    rw [Pairing.ofItems, Pairing.ofItems, Policy.keyFor_keyedBy_inside written, unkeyed]
    rfl
  have entries : (Policy.keyedBy key).entries = Policy.default.entries := rfl
  simp only [plan, items, entries]

/-- Below another first step, the same comes up. By induction along the walk: the same values
are paired under the same steps. -/
theorem walk_keyedBy_inside (key : String) (first : Segment)
    (written : firstToo.text.toList ≠ []) (rest : List Segment) (reference candidate : Value) :
    Trace.Moved first.text firstToo.text (walk .default ⟨first :: rest⟩ reference candidate)
      (walk (.keyedBy key) ⟨firstToo :: rest⟩ reference candidate) := by
  have moved : ∀ (rest : List Segment) (kind : DifferenceKind) (left right : Option Value),
      Difference.Moved first.text firstToo.text ⟨kind, Path.text ⟨first :: rest⟩, left, right⟩
        ⟨kind, Path.text ⟨firstToo :: rest⟩, left, right⟩ := fun rest kind left right =>
    ⟨rfl, rfl, rfl, rest.map Segment.text, rfl, rfl⟩
  obtain ⟨path, isPath⟩ : ∃ path : Path, path = ⟨first :: rest⟩ := ⟨_, rfl⟩
  rw [← isPath]
  induction path, reference, candidate using walk_induction .default generalizing rest with
  | visited path reference candidate ih =>
    subst isPath
    have same := plan_keyedBy_inside key first written rest rest reference candidate
    cases planned : plan .default ⟨first :: rest⟩ reference candidate with
    | fail error =>
      rw [walk_of_fail (by rfl) planned, walk_of_fail (by rfl) (same.trans planned)]
      exact .failed error
    | differInShape =>
      rw [walk_of_differInShape rfl planned, walk_of_differInShape rfl (same.trans planned)]
      exact .found (moved rest _ _ _)
    | compareScalars =>
      rw [walk_of_compareScalars rfl planned, walk_of_compareScalars rfl (same.trans planned)]
      have prepared : ∀ value, prepared (.keyedBy key) ⟨firstToo :: rest⟩ value =
          Comparison.prepared .default ⟨first :: rest⟩ value := fun _ => rfl
      rw [compareScalars, compareScalars, prepared, prepared]
      split
      · exact .clean
      · exact .found (moved rest _ _ _)
    | descend pairings =>
      rw [walk_of_descend rfl planned, walk_of_descend rfl (same.trans planned)]
      refine .sequence ?_
      rw [List.forall₂_map_left_iff, List.forall₂_map_right_iff, List.forall₂_same]
      intro pairing inPlan
      cases given : Segment.read pairing.step with
      | error fault =>
        have joined : ∀ segment, Path.join ⟨segment :: rest⟩ pairing.step =
            .error (.segment pairing.step fault) := fun segment => by simp only [Path.join, given]
        rw [visit_of_error (joined first), visit_of_error (joined firstToo)]
        exact .failed _
      | ok segment =>
        have joined : ∀ start, Path.join ⟨start :: rest⟩ pairing.step =
            .ok ⟨start :: (rest ++ [segment])⟩ := fun start => by simp only [Path.join, given]; rfl
        cases pairing with
        | missing step value =>
          rw [visit_missing (joined first), visit_missing (joined firstToo)]
          exact .found (moved _ _ _ _)
        | extra step value =>
          rw [visit_extra (joined first), visit_extra (joined firstToo)]
          exact .found (moved _ _ _ _)
        | both step left right =>
          rw [visit_both (joined first), visit_both (joined firstToo)]
          exact ih planned inPlan (joined first) _ rfl

end Comparison

/-! ## Arrays that are aligned by a key -/

/-- A value is an object that has a value under a text key. -/
def Value.HasUnder (key : String) (item value : Value) : Prop :=
  ∃ entries, item = .object entries ∧ Entries.find? (.text key) entries = some value

namespace Pairing

variable {key : String} {references candidates values valuesToo : List Value}

/-- The items of two arrays are objects with values under a key. The values of either side
are told apart by their texts, and at every position the two sides have values of one
text. -/
structure Aligned (key : String) (references candidates values valuesToo : List Value) : Prop where
  references : List.Forall₂ (Value.HasUnder key) references values
  candidates : List.Forall₂ (Value.HasUnder key) candidates valuesToo
  distinct : (values.map (Policy.keyedBy key).identity).Nodup
  same : values.map (Policy.keyedBy key).identity = valuesToo.map (Policy.keyedBy key).identity

/-- An item as it is indexed under a value. -/
def keyedUnder (key : String) (item value : Value) : Keyed :=
  ⟨(Policy.keyedBy key).identity value, value, item⟩

/-- Items that have values under a key are indexed under these. -/
theorem keyedItems_eq_zipWith (keyed : List.Forall₂ (Value.HasUnder key) references values) :
    (∀ item ∈ references, (keyed? (.keyedBy key) key item).isSome) ∧
      keyedItems (.keyedBy key) key references =
        List.zipWith (keyedUnder key) references values := by
  induction keyed with
  | nil => exact ⟨by simp, rfl⟩
  | @cons item value items values here _ ih =>
    obtain ⟨entries, rfl, found⟩ := here
    have shown : keyed? (.keyedBy key) key (.object entries) =
        some (keyedUnder key (.object entries) value) := by
      rw [keyed?, Policy.lookUp, found]
      rfl
    refine ⟨List.forall_mem_cons.2 ⟨by rw [shown]; rfl, ih.1⟩, ?_⟩
    rw [keyedItems, List.filterMap_cons_some shown, List.zipWith_cons_cons]
    exact congrArg _ ih.2

/-- The pairing of two items under the key value of the first. -/
def bothKeyed (key : String) (left right : Keyed) : Pairing :=
  .both (keyStep key left.keyValue) left.item right.item

/-- Items with distinct identities, of which the other side has the same in the same order,
are paired with those. -/
theorem filterMap_ofKeyed_eq_zipWith {lefts rights : List Keyed}
    (distinct : (lefts.map Keyed.identity).Nodup)
    (same : lefts.map Keyed.identity = rights.map Keyed.identity) :
    lefts.filterMap (ofKeyed key lefts rights) = List.zipWith (bothKeyed key) lefts rights := by
  have distinctToo : (rights.map Keyed.identity).Nodup := same ▸ distinct
  have lengths : lefts.length = rights.length := by simpa using congrArg List.length same
  have paired : List.Forall₂ (fun left right => ofKeyed key lefts rights left =
      some (bothKeyed key left right)) lefts rights := by
    refine List.forall₂_iff_zip.2 ⟨lengths, fun {left right} member => ?_⟩
    have identities : left.identity = right.identity := by
      have equal :
          List.Forall₂ (fun left right => left.identity = right.identity) lefts rights := by
        rwa [← List.forall₂_map_right_iff, ← List.forall₂_map_left_iff, List.forall₂_eq_eq_eq]
      exact (List.forall₂_iff_zip.1 equal).2 member
    have here := (findKeyed_eq_some_iff distinct).2 ⟨(List.of_mem_zip member).1, rfl⟩
    have there := (findKeyed_eq_some_iff distinctToo).2
      ⟨(List.of_mem_zip member).2, identities.symm⟩
    rw [ofKeyed, here, there]
    rfl
  generalize ofKeyed key lefts rights = pair at paired
  clear distinct same distinctToo lengths
  induction paired with
  | nil => rfl
  | cons here _ ih => rw [List.filterMap_cons_some here, ih, List.zipWith_cons_cons]

/-- Two pairings hold the same values, one under their position and the other under the key
value that is known for the position. -/
def SamePair (key : String) (values : List Value) (before after : Pairing) : Prop :=
  ∃ position value left right, values[position]? = some value ∧
    before = .both (positionStep position) left right ∧
    after = .both (keyStep key value) left right

/-- Items by position are the items that are paired by their key values. By induction on the
items, with the key values of those before. -/
theorem forall₂_byPositionFrom (before : List Value) {all : List Value}
    (keyed : List.Forall₂ (Value.HasUnder key) references values)
    (keyedToo : List.Forall₂ (Value.HasUnder key) candidates valuesToo)
    (lengths : values.length = valuesToo.length) (whole : all = before ++ values) :
    List.Forall₂ (SamePair key all) (byPositionFrom before.length references candidates)
      (List.zipWith (bothKeyed key) (List.zipWith (keyedUnder key) references values)
        (List.zipWith (keyedUnder key) candidates valuesToo)) := by
  induction keyed generalizing before candidates valuesToo with
  | nil =>
    cases keyedToo with
    | nil =>
      rw [byPositionFrom]
      exact .nil
    | cons _ _ => cases lengths
  | @cons item value items values _ _ ih =>
    cases keyedToo with
    | nil => cases lengths
    | @cons other _ others _ _ keyedToo =>
      rw [byPositionFrom]
      refine .cons ⟨before.length, value, item, other, by simp [whole], rfl, rfl⟩ ?_
      have rest := ih (before ++ [value]) keyedToo (by simpa using lengths)
        (by simpa using whole)
      rwa [List.length_append, List.length_singleton] at rest

/-- Arrays that are aligned by a key are paired by it as they are paired by position, but for
the steps and the order. -/
theorem Aligned.byKey (aligned : Aligned key references candidates values valuesToo) :
    ∃ pairings others, byKey (.keyedBy key) .root key references candidates = .ok pairings ∧
      pairings.Perm others ∧
      List.Forall₂ (SamePair key values) (byPosition references candidates) others := by
  obtain ⟨indexed, items⟩ := keyedItems_eq_zipWith aligned.references
  obtain ⟨indexedToo, itemsToo⟩ := keyedItems_eq_zipWith aligned.candidates
  have identities : ∀ {items values : List Value}, List.Forall₂ (Value.HasUnder key) items values →
      (List.zipWith (keyedUnder key) items values).map Keyed.identity =
        values.map (Policy.keyedBy key).identity := by
    intro items values keyed
    induction keyed with
    | nil => rfl
    | cons _ _ ih => rw [List.zipWith_cons_cons, List.map_cons, ih]; rfl
  have known := identities aligned.references
  have knownToo := identities aligned.candidates
  rw [← items] at known
  rw [← itemsToo] at knownToo
  have distinct := aligned.distinct
  have same := aligned.same
  rw [← known] at distinct same
  rw [← knownToo] at same
  have none : (keyedItems (.keyedBy key) key candidates).filter
      (fun keyed => (findKeyed keyed.identity (keyedItems (.keyedBy key) key references)).isNone) =
        [] := by
    rw [List.filter_eq_nil_iff]
    intro keyed member
    rw [Option.isNone_iff_eq_none, findKeyed_eq_none_iff, same]
    exact fun absent => absent (List.mem_map_of_mem member)
  have union := union_perm (keyedItems (.keyedBy key) key references)
    (keyedItems (.keyedBy key) key candidates)
  rw [none, List.append_nil] at union
  refine ⟨_, _, byKey_eq_ok_iff.2 ⟨⟨indexed, distinct⟩, ⟨indexedToo, same ▸ distinct⟩, rfl⟩,
    union.filterMap _, ?_⟩
  rw [filterMap_ofKeyed_eq_zipWith distinct same, items, itemsToo]
  exact forall₂_byPositionFrom [] aligned.references aligned.candidates
    (by simpa using congrArg List.length aligned.same) rfl

end Pairing

namespace Comparison

open Pairing

variable {key : String} {references candidates values valuesToo : List Value}

/-- A difference below a position comes up below the key value that is known for the
position, and is otherwise the same. -/
def MovedToKey (key : String) (values : List Value) (before after : Difference) : Prop :=
  ∃ position value, values[position]? = some value ∧
    Difference.Moved (positionStep position) (Text.trim (keyStep key value)) before after

/-- Where the step to the key value is a segment, the same comes up for two values under it as
under their position. -/
theorem visit_samePair {before after : Pairing} (same : SamePair key values before after)
    (complete : (visit (.keyedBy key) .root after).failure = none) :
    (visit .default .root before).failure = none ∧
      List.Forall₂ (MovedToKey key values) (visit .default .root before).differences
        (visit (.keyedBy key) .root after).differences := by
  obtain ⟨position, value, left, right, known, rfl, rfl⟩ := same
  obtain ⟨child, joinedToo⟩ := exists_child_of_complete complete
  obtain ⟨segment, given, rfl⟩ := Path.join_eq_ok_iff.1 joinedToo
  have joined : Path.root.join (Pairing.both (positionStep position) left right).step =
      .ok ⟨[.plain (positionStep position)]⟩ :=
    Path.join_eq_ok_iff.2 ⟨_, read_positionStep position, rfl⟩
  have written : segment.text = Text.trim (keyStep key value) := by
    rw [← String.toList_inj, Segment.toList_text_of_read given, Text.trim, String.toList_ofList]
    rfl
  have moved := walk_keyedBy_inside key (.plain (positionStep position))
    (Segment.legible_of_read given).text_ne_nil [] left right
  rw [visit_both joinedToo] at complete ⊢
  rw [visit_both joined]
  refine ⟨moved.failure.symm.trans complete, moved.differences.imp fun {first second} here => ?_⟩
  exact ⟨position, value, known, written ▸ here⟩

/-- Arrays that are aligned by a key differ by it as they differ by position: where they can be
compared by the key, they can be compared by position, and the differences are the same in
another order, with the key and its value in front in place of the position. -/
theorem perform_keyedBy_aligned (given : Segment.read (":" ++ key) = .ok (.keyExpression key))
    (oneSegment : '/' ∉ key.toList) :
    ({ Draft.empty with matchByKey := [.list [.text ("/:" ++ key)]] } : Draft).build =
        .ok (.keyedBy key) ∧
      ∀ {references candidates values valuesToo : List Value},
        Aligned key references candidates values valuesToo → ∀ found,
        perform (.keyedBy key) (.array references) (.array candidates) = .ok found →
        ∃ plain moved, diff (.array references) (.array candidates) = .ok plain ∧
          found.items.Perm moved ∧ List.Forall₂ (MovedToKey key values) plain.items moved := by
  refine ⟨Policy.build_keyedBy given oneSegment, ?_⟩
  intro references candidates values valuesToo aligned found done
  obtain ⟨pairings, others, paired, reordered, pairs⟩ := aligned.byKey
  obtain ⟨complete, items⟩ := complete_of_perform rfl done
  have planned : plan (.keyedBy key) .root (.array references) (.array candidates) =
      .descend pairings := by
    simp only [plan, ofItems, Policy.keyFor_keyedBy_root, paired]
  obtain ⟨visits, differences⟩ := complete_of_descend rfl planned complete
  have plannedToo : plan .default .root (.array references) (.array candidates) =
      .descend (byPosition references candidates) :=
    Policy.plan_array_of_noRules rfl rfl .root references candidates
  -- The visits under the key are complete, and so are those by position.
  obtain ⟨visitsToo, moved⟩ : (∀ before ∈ byPosition references candidates,
        (visit .default .root before).failure = none) ∧
      List.Forall₂ (fun before after =>
        List.Forall₂ (MovedToKey key values) (visit .default .root before).differences
          (visit (.keyedBy key) .root after).differences)
        (byPosition references candidates) others := by
    have known : ∀ after ∈ others, (visit (.keyedBy key) .root after).failure = none :=
      fun after member => visits after (reordered.mem_iff.2 member)
    rw [← List.forall₂_and_left]
    refine ((List.forall₂_and_left _ _).2 ⟨known, pairs.flip⟩).flip.imp ?_
    exact fun before after same => visit_samePair same.2 same.1
  have completeToo :
      (walk .default .root (.array references) (.array candidates)).failure = none := by
    rw [walk_of_descend rfl plannedToo, Trace.failure_sequence_eq_none_iff]
    exact List.forall_mem_map.2 visitsToo
  obtain ⟨plain, donePlain, itemsToo⟩ := exists_findings_of_complete rfl completeToo
  refine ⟨plain, others.flatMap fun pairing => (visit (.keyedBy key) .root pairing).differences,
    donePlain, ?_, ?_⟩
  · rw [items, differences]
    exact reordered.flatMap_right _
  · rw [itemsToo, (complete_of_descend rfl plannedToo completeToo).2]
    exact List.rel_flatMap moved fun _ _ same => same

/-- A size under one name, and nothing but another name. -/
def sizeAndName : List Value :=
  [.object [(.text "id", .text "b"), (.text "size", .number (.int 1))],
    .object [(.text "id", .text "a")]]

/-- Another size under the one name, and a note under the other. -/
def otherSizeAndNote : List Value :=
  [.object [(.text "id", .text "b"), (.text "size", .number (.int 2))],
    .object [(.text "id", .text "a"), (.text "note", .text "x")]]

/-- By name, the note comes before the size, and both come up under the names. -/
theorem perform_keyedBy_aligned_byName :
    ∃ found plain moved,
      perform (.keyedBy "id") (.array sizeAndName) (.array otherSizeAndNote) = .ok found ∧
      found.items.map Difference.path = ["/id=a/note", "/id=b/size"] ∧
      diff (.array sizeAndName) (.array otherSizeAndNote) = .ok plain ∧
      found.items.Perm moved ∧
      List.Forall₂ (MovedToKey "id" [.text "b", .text "a"]) plain.items moved := by
  have done : perform (.keyedBy "id") (.array sizeAndName) (.array otherSizeAndNote) = .ok {
      items := [
        ⟨.extra, "/id=a/note", none, some (.text "x")⟩,
        ⟨.mismatch, "/id=b/size", some (.number (.int 1)), some (.number (.int 2))⟩]
      positions := [("/id=a/note", 0), ("/id=b/size", 1)]
      limit := none } := by
    cbv
  have aligned : Aligned "id" sizeAndName otherSizeAndNote [.text "b", .text "a"]
      [.text "b", .text "a"] :=
    { references := .cons ⟨_, rfl, rfl⟩ (.cons ⟨_, rfl, rfl⟩ .nil)
      candidates := .cons ⟨_, rfl, rfl⟩ (.cons ⟨_, rfl, rfl⟩ .nil)
      distinct := by decide +kernel
      same := rfl }
  have given : Segment.read (":" ++ "id") = .ok (.keyExpression "id") := by cbv
  obtain ⟨-, agrees⟩ := perform_keyedBy_aligned given (by decide)
  obtain ⟨plain, moved, donePlain, reordered, pairs⟩ := agrees aligned _ done
  exact ⟨_, plain, moved, done, rfl, donePlain, reordered, pairs⟩

end Comparison

end StructuralDiff
