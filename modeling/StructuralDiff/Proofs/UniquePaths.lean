import Mathlib
import StructuralDiff.Proofs.Disagreement
import StructuralDiff.Proofs.Indexing
import StructuralDiff.Proofs.Meeting

/-!
# One difference to a path

The steps from two containers to what is inside them are distinct when they are keys or
positions. The steps to items that are paired by a key name the values of the key by
their texts, while items are told apart by the identities of these values; so the steps
are distinct when values of different identities have different texts
(`ApartByText`). Then no two differences of a comparison are at one path, and the
look-up by path reaches each of them.
-/

namespace StructuralDiff

namespace Text

/-- What is in front of a character that is not blank stays when the end is trimmed. -/
theorem dropTrailingBlanks_append_cons {front rest : List Char} {char : Char}
    (solid : isBlank char = false) :
    dropTrailingBlanks (front ++ char :: rest) = front ++ char :: dropTrailingBlanks rest := by
  have backwards : (front ++ char :: rest).reverse = rest.reverse ++ char :: front.reverse := by
    simp
  unfold dropTrailingBlanks
  rw [backwards, List.dropWhile_append]
  cases left : rest.reverse.dropWhile isBlank with
  | nil => simp [solid]
  | cons last others => simp

/-- Characters that are not blank stay when what follows them is trimmed. -/
theorem trimChars_append_cons {front rest : List Char} {char : Char}
    (clear : ∀ other ∈ front, isBlank other = false) (solid : isBlank char = false) :
    trimChars (front ++ char :: rest) = front ++ char :: dropTrailingBlanks rest := by
  have started : dropLeadingBlanks (front ++ char :: rest) = front ++ char :: rest := by
    unfold dropLeadingBlanks
    cases front with
    | nil => simp [solid]
    | cons first others => simp [clear first List.mem_cons_self]
  rw [trimChars, started, dropTrailingBlanks_append_cons solid]

end Text

namespace Pairing

/-- The steps of pairings are distinct, also after their ends are trimmed. -/
def StepsDistinct (pairings : List Pairing) : Prop :=
  pairings.Pairwise fun first second => Text.trim first.step ≠ Text.trim second.step

/-- Pairings that enumerate two containers have distinct steps, if the steps are plain and
their names tell them. -/
theorem Enumerated.stepsDistinct {reference candidate : Value} {steps : List Position.Step}
    {pairings : List Pairing} (enumerated : Enumerated reference candidate steps pairings)
    (plain : ∀ step ∈ steps, step.IsPlain)
    (told : ∀ first ∈ steps, ∀ second ∈ steps, first.name = second.name → first = second) :
    StepsDistinct pairings := by
  have trimmed : pairings.map (fun pairing => Text.trim pairing.step) =
      steps.map Position.Step.name := by
    calc
      pairings.map (fun pairing => Text.trim pairing.step)
          = (pairings.map Pairing.step).map Text.trim := by rw [List.map_map]; rfl
      _ = steps.map (Text.trim ∘ Position.Step.name) := by rw [enumerated.map_step, List.map_map]
      _ = steps.map Position.Step.name :=
        List.map_congr_left fun step member => (plain step member).2
  have distinct : (steps.map Position.Step.name).Nodup := by
    refine List.Nodup.map_on ?_ enumerated.distinct
    exact fun first member second memberToo same => told first member second memberToo same
  rw [← trimmed] at distinct
  exact List.pairwise_map.1 distinct

/-- The entries of objects with plain keys have distinct steps. -/
theorem stepsDistinct_ofEntries {references candidates : Entries Key Value}
    (distinct : references.keys.Nodup) (distinctToo : candidates.keys.Nodup)
    (plain : ∀ key ∈ references.keys, key.IsPlain) (plainToo : ∀ key ∈ candidates.keys, key.IsPlain) :
    StepsDistinct (ofEntries references candidates) := by
  have enumerated := enumerated_ofEntries distinct distinctToo
  have keys : ∀ step ∈ entrySteps references candidates, ∃ key : Key, step = .entry key ∧ key.IsPlain := by
    intro step member
    have there := (enumerated.mem_iff step).1 member
    cases step with
    | item number => simp [Value.child?] at there
    | entry key =>
      refine ⟨key, rfl, ?_⟩
      rcases there with inReferences | inCandidates
      · exact plain key (Entries.mem_keys_iff_has.2 inReferences)
      · exact plainToo key (Entries.mem_keys_iff_has.2 inCandidates)
  refine enumerated.stepsDistinct (fun step member => ?_) ?_
  · obtain ⟨key, rfl, isPlain⟩ := keys step member
    exact Position.Step.entry_isPlain isPlain
  · intro first member second memberToo same
    obtain ⟨_, rfl, name, rfl, -⟩ := keys first member
    obtain ⟨_, rfl, other, rfl, -⟩ := keys second memberToo
    have same : name = other := same
    rw [same]

/-- The items of arrays have distinct positions. -/
theorem stepsDistinct_byPosition (references candidates : List Value) :
    StepsDistinct (byPosition references candidates) := by
  have enumerated := enumerated_byPosition references candidates
  have items : ∀ step ∈ itemSteps references candidates, ∃ number, step = .item number := by
    intro step member
    have there := (enumerated.mem_iff step).1 member
    cases step with
    | item number => exact ⟨number, rfl⟩
    | entry key => simp [Value.child?] at there
  refine enumerated.stepsDistinct (fun step member => ?_) ?_
  · obtain ⟨number, rfl⟩ := items step member
    exact Position.Step.item_isPlain number
  · intro first member second memberToo same
    obtain ⟨number, rfl⟩ := items first member
    obtain ⟨other, rfl⟩ := items second memberToo
    rw [Decimal.naturalText_inj same]

/-- The step to items with a value of a key, trimmed: the end of the value's text. -/
theorem trim_keyStep {key : String} (clear : ∀ char ∈ key.toList, Text.isBlank char = false)
    (value : Value) :
    Text.trim (keyStep key value) = key ++ "=" ++ Text.trimEnd value.segmentText := by
  have written : (keyStep key value).toList = key.toList ++ '=' :: value.segmentText.toList := by
    simp [keyStep]
  rw [Text.trim, written, Text.trimChars_append_cons clear (by decide), Text.trimEnd,
    ← String.toList_inj]
  simp

/-- Items with distinct identities are paired under distinct steps, when the texts of their
key values tell the identities. -/
theorem stepsDistinct_byKey {policy : Policy} {path : Path} {key : String}
    {reference candidate : List Value} {pairings : List Pairing}
    (paired : byKey policy path key reference candidate = .ok pairings)
    (clear : ∀ char ∈ key.toList, Text.isBlank char = false)
    (told : ∀ first ∈ keyedItems policy key (reference ++ candidate),
      ∀ second ∈ keyedItems policy key (reference ++ candidate),
        Text.trimEnd first.keyValue.segmentText = Text.trimEnd second.keyValue.segmentText →
        first.identity = second.identity) : StepsDistinct pairings := by
  obtain ⟨indexable, indexableToo, rfl⟩ := byKey_eq_ok_iff.1 paired
  have known : ∀ keyed ∈ union (keyedItems policy key reference) (keyedItems policy key candidate),
      keyed ∈ keyedItems policy key (reference ++ candidate) :=
    fun keyed member => mem_keyedItems_append.2 (mem_or_mem_of_mem_union member)
  have distinct := List.pairwise_map.1 (nodup_identity_union indexable.distinct indexableToo.distinct)
  refine List.pairwise_filterMap.2 (distinct.imp_of_mem ?_)
  intro first second member memberToo apart pairing shown other shownToo same
  rw [step_of_ofKeyed shown, step_of_ofKeyed shownToo, trim_keyStep clear, trim_keyStep clear,
    String.append_right_inj] at same
  exact apart (told first (known _ member) second (known _ memberToo) same)

end Pairing

namespace Policy

variable {policy : Policy}

/-- The key by which items are paired has nothing blank in it when the patterns were
read. -/
theorem clear_of_keyFor {path : Path} {key : String}
    (legible : ∀ pattern ∈ policy.matchByKey, pattern.Legible)
    (keyed : policy.keyFor path = .ok (some key)) :
    ∀ char ∈ key.toList, Text.isBlank char = false := by
  obtain ⟨pattern, known, segment, member, named⟩ := exists_segment_of_keyFor keyed
  intro char inside
  exact (legible pattern known segment member).1.clear char (Segment.mem_text_of_mem_key named inside)

/-- The compared entries of an object with plain keys have plain keys. -/
theorem isPlain_of_mem_keys_entries {entries : Entries Key Value}
    (plain : ∀ entry ∈ entries, entry.1.IsPlain) {key : Key}
    (member : key ∈ (policy.entries entries).keys) : key.IsPlain := by
  obtain ⟨entry, compared, rfl⟩ := List.mem_map.1 member
  unfold Policy.entries at compared
  split at compared
  · obtain ⟨other, known, rfl⟩ := List.mem_map.1 (Entries.mem_of_mem_ofPairs compared)
    obtain ⟨name, same, isPlain⟩ := plain other known
    exact ⟨name, by simp [same, Key.canonical, Key.name], isPlain⟩
  · exact plain entry compared

end Policy

namespace Comparison

variable {policy : Policy} {reference candidate : Value}

/-- Wherever items of two arrays are paired by a key, the texts of the key values tell
their identities and hold no separator. Blanks at the end of a text do not count. -/
structure ApartByText (policy : Policy) (reference candidate : Value) : Prop where
  clear : ∀ value, PairsItemsBy policy reference candidate value →
    '/' ∉ value.segmentText.toList
  told : ∀ ⦃path lefts rights key⦄,
    Meets policy reference candidate path (.array lefts) (.array rights) →
    policy.keyFor path = .ok (some key) →
    ∀ first ∈ Pairing.keyedItems policy key (lefts ++ rights),
    ∀ second ∈ Pairing.keyedItems policy key (lefts ++ rights),
      Text.trimEnd first.keyValue.segmentText = Text.trimEnd second.keyValue.segmentText →
      first.identity = second.identity

/-- Indexed items of arrays that meet are paired by their key values. -/
theorem Meets.pairsItemsBy_of_mem_keyedItems {path : Path} {lefts rights : List Value}
    {key : String} (meets : Meets policy reference candidate path (.array lefts) (.array rights))
    (keyed : policy.keyFor path = .ok (some key)) {entry : Pairing.Keyed}
    (member : entry ∈ Pairing.keyedItems policy key (lefts ++ rights)) :
    PairsItemsBy policy reference candidate entry.keyValue := by
  obtain ⟨item, held, shown⟩ := List.mem_filterMap.1 member
  obtain ⟨entries, rfl, looked, -, -⟩ := Pairing.keyed?_eq_some_iff.1 shown
  exact ⟨path, lefts, rights, key, entries, meets, keyed, held, looked⟩

/-- Texts without separators and without blanks at their ends tell themselves. -/
theorem ApartByText.of_texts (texts : ∀ value, PairsItemsBy policy reference candidate value →
    ∃ text, value = .text text ∧ '/' ∉ text.toList ∧ Text.trimEnd text = text) :
    ApartByText policy reference candidate where
  clear value pairs := by
    obtain ⟨text, rfl, clear, -⟩ := texts value pairs
    exact clear
  told path lefts rights key meets keyed first member second memberToo same := by
    obtain ⟨text, isText, -, trimmed⟩ :=
      texts _ (meets.pairsItemsBy_of_mem_keyedItems keyed member)
    obtain ⟨other, isTextToo, -, trimmedToo⟩ :=
      texts _ (meets.pairsItemsBy_of_mem_keyedItems keyed memberToo)
    rw [isText, isTextToo, Value.segmentText, Value.segmentText, trimmed, trimmedToo] at same
    rw [Pairing.identity_of_mem_keyedItems member, Pairing.identity_of_mem_keyedItems memberToo,
      isText, isTextToo, same]

/-- The pairings of two values that meet have distinct steps. -/
theorem stepsDistinct_of_plan (legible : ∀ pattern ∈ policy.matchByKey, pattern.Legible)
    (notByValue : policy.matchByValue = []) (wellFormed : reference.WellFormed)
    (wellFormedToo : candidate.WellFormed) (plain : reference.EveryKey Key.IsPlain)
    (plainToo : candidate.EveryKey Key.IsPlain) (apart : ApartByText policy reference candidate)
    {path : Path} {left right : Value} (meets : Meets policy reference candidate path left right)
    {pairings : List Pairing} (planned : plan policy path left right = .descend pairings) :
    Pairing.StepsDistinct pairings := by
  obtain ⟨leftFormed, rightFormed⟩ := meets.of_parts
    (fun value formed part inside => formed.of_mem_parts inside) wellFormed wellFormedToo
  obtain ⟨leftPlain, rightPlain⟩ := meets.of_parts
    (fun value everyKey part inside => Value.EveryKey.of_mem_parts everyKey inside) plain plainToo
  unfold plan at planned
  split at planned
  · rename_i lefts rights
    cases planned
    refine Pairing.stepsDistinct_ofEntries (policy.nodup_keys_entries leftFormed.1)
      (policy.nodup_keys_entries rightFormed.1) (fun key member => ?_) (fun key member => ?_)
    · exact Policy.isPlain_of_mem_keys_entries (fun entry known => leftPlain.of_mem known) member
    · exact Policy.isPlain_of_mem_keys_entries (fun entry known => rightPlain.of_mem known) member
  · rename_i lefts rights
    cases paired : Pairing.ofItems policy path lefts rights with
    | error error => simp [paired] at planned
    | ok found =>
      simp only [paired, Plan.descend.injEq] at planned
      subst planned
      unfold Pairing.ofItems at paired
      split at paired
      · cases paired
      · rename_i key keyed
        exact Pairing.stepsDistinct_byKey paired (Policy.clear_of_keyFor legible keyed)
          (apart.told meets keyed)
      · simp only [Policy.matchesByValue, notByValue, List.any_nil, Bool.false_eq_true, if_false]
          at paired
        cases paired
        exact Pairing.stepsDistinct_byPosition lefts rights
  · split at planned <;> cases planned

/-- What comes up in a visit is under the path that the step leads to. -/
theorem exists_path_of_mem_visit (clear : StepsClear policy reference candidate)
    {path : Path} {left right : Value} (meets : Meets policy reference candidate path left right)
    (shown : policy.excludes path = false) {pairings : List Pairing}
    (planned : plan policy path left right = .descend pairings) {pairing : Pairing}
    (inPlan : pairing ∈ pairings) {difference : Difference}
    (member : difference ∈ (visit policy path pairing).differences) :
    ∃ child place : Path, path.join pairing.step = .ok child ∧ place.Legible ∧
      child.segments <+: place.segments ∧ difference.path = place.text := by
  obtain ⟨child, joined, came⟩ := exists_child_of_mem_visit member
  refine ⟨child, ?_⟩
  rcases came with written | ⟨step, first, second, rfl, found⟩
  · have legible := (meets.legible clear).join joined (clear meets planned pairing inPlan)
    exact ⟨child, joined, legible, List.prefix_refl _, written⟩
  · have onward := meets.onward shown planned inPlan joined
    obtain ⟨place, legible, under, written⟩ := exists_path_of_mem_walk clear onward found
    exact ⟨place, joined, legible, under, written⟩

/-- Visits under distinct steps come upon differences at distinct paths: the written form
of a path leads back to the path, and it has only one segment where the steps differ. -/
theorem trim_step_eq_of_mem_visits (clear : StepsClear policy reference candidate)
    {path : Path} {left right : Value} (meets : Meets policy reference candidate path left right)
    (shown : policy.excludes path = false) {pairings : List Pairing}
    (planned : plan policy path left right = .descend pairings) {first second : Pairing}
    (inPlan : first ∈ pairings) (inPlanToo : second ∈ pairings) {difference other : Difference}
    (member : difference ∈ (visit policy path first).differences)
    (memberToo : other ∈ (visit policy path second).differences)
    (same : difference.path = other.path) : Text.trim first.step = Text.trim second.step := by
  obtain ⟨child, place, joined, legible, under, written⟩ :=
    exists_path_of_mem_visit clear meets shown planned inPlan member
  obtain ⟨childToo, placeToo, joinedToo, legibleToo, underToo, writtenToo⟩ :=
    exists_path_of_mem_visit clear meets shown planned inPlanToo memberToo
  have places : place = placeToo :=
    legible.eq_of_text_eq legibleToo (written.symm.trans (same.trans writtenToo))
  subst places
  exact Path.trim_eq_of_join joined joinedToo under underToo

/-- When the pairings of values that meet have distinct steps, no two differences of a walk
are at one path. By induction along the walk: a path that two visits came upon would lead
to one step of both. -/
theorem nodup_paths_walk (clear : StepsClear policy reference candidate)
    (distinct : ∀ ⦃path left right pairings⦄, Meets policy reference candidate path left right →
      plan policy path left right = .descend pairings → Pairing.StepsDistinct pairings)
    {path : Path} {left right : Value}
    (meets : Meets policy reference candidate path left right) :
    ((walk policy path left right).differences.map Difference.path).Nodup := by
  induction path, left, right using walk_induction policy with
  | visited path left right ih =>
    refine walk_cases ?leftOut ?fails ?differs ?compares ?descends
    case leftOut => exact fun _ => List.nodup_nil
    case fails => exact fun _ _ _ => List.nodup_nil
    case differs => exact fun _ _ => List.nodup_singleton _
    case compares =>
      intro shown planned
      obtain ⟨once, same⟩ := exists_of_compareScalars policy path left right
      rw [same]
      cases once <;> simp
    case descends =>
      intro pairings shown planned
      have kept := Trace.differences_sequence_sublist (pairings.map (visit policy path))
      refine (kept.map Difference.path).nodup ?_
      rw [List.flatMap_map, List.map_flatMap, List.nodup_flatMap]
      constructor
      · intro pairing inPlan
        rcases exists_of_visit policy path pairing with
          ⟨once, same⟩ | ⟨_, _, _, _, rfl, joined, same⟩
        · rw [same]
          cases once <;> simp
        · rw [same]
          exact ih planned inPlan joined (meets.onward shown planned inPlan joined)
      · refine (distinct meets planned).imp_of_mem ?_
        intro first second inPlan inPlanToo apart
        refine List.disjoint_left.2 fun written inFirst inSecond => apart ?_
        obtain ⟨difference, member, rfl⟩ := List.mem_map.1 inFirst
        obtain ⟨other, memberToo, same⟩ := List.mem_map.1 inSecond
        exact trim_step_eq_of_mem_visits clear meets shown planned inPlan inPlanToo member
          memberToo same.symm

end Comparison

namespace Findings

/-- The positions are those of differences at their paths, and every path of a difference
has one. -/
structure Indexed (findings : Findings) : Prop where
  known : ∀ difference ∈ findings.items, (findings.positions.find? difference.path).isSome
  there : ∀ path position, findings.positions.find? path = some position →
    ∃ difference, findings.items[position]? = some difference ∧ difference.path = path

theorem Indexed.empty (limit : Option Nat) : (Findings.empty limit).Indexed where
  known difference member := by cases member
  there path position found := by cases found

/-- A difference that is recorded is indexed. -/
theorem Indexed.record? {findings reached : Findings} (indexed : findings.Indexed)
    {difference : Difference} (recorded : findings.record? difference = some reached) :
    reached.Indexed := by
  unfold Findings.record? at recorded
  split at recorded
  · cases recorded
  · cases recorded
    constructor
    · intro other member
      rw [Entries.find?_set]
      split
      · rfl
      · rename_i different
        rcases List.mem_append.1 member with old | new
        · exact indexed.known other old
        · exact absurd (congrArg Difference.path (List.mem_singleton.1 new)).symm different
    · intro path position found
      rw [Entries.find?_set] at found
      split at found
      · rename_i same
        cases found
        exact ⟨difference, by simp, same⟩
      · obtain ⟨other, held, same⟩ := indexed.there path position found
        have short := (List.getElem?_eq_some_iff.1 held).1
        exact ⟨other, by rw [List.getElem?_append_left short, held], same⟩

/-- Differences that are recorded one after another are indexed. -/
theorem Indexed.recordAll {findings : Findings} (indexed : findings.Indexed)
    (differences : List Difference) : (findings.recordAll differences).1.Indexed := by
  induction differences generalizing findings with
  | nil => exact indexed
  | cons difference differences ih =>
    rw [Findings.recordAll]
    cases recorded : findings.record? difference with
    | none => exact indexed
    | some reached => exact ih (indexed.record? recorded)

/-- The look-up by path reaches every difference when no two are at one path. -/
theorem Indexed.atPath?_eq_some {findings : Findings} (indexed : findings.Indexed)
    (distinct : (findings.items.map Difference.path).Nodup) {difference : Difference}
    (member : difference ∈ findings.items) :
    findings.atPath? difference.path = some difference := by
  obtain ⟨position, found⟩ := Option.isSome_iff_exists.1 (indexed.known difference member)
  obtain ⟨other, held, same⟩ := indexed.there _ _ found
  have known := List.mem_of_getElem? held
  rw [atPath?, found, Option.bind_some, get?, held,
    List.inj_on_of_nodup_map distinct known member same]

end Findings

namespace Comparison

/-- The findings of a comparison are indexed, however it ends. -/
theorem indexed_of_perform {policy : Policy} {reference candidate : Value} {findings : Findings}
    (done : perform policy reference candidate = .ok findings) : findings.Indexed := by
  have recorded := Findings.Indexed.recordAll (.empty policy.cutoff)
    (walk policy .root reference candidate).differences
  unfold perform at done
  rw [record_eq_recordInto] at done
  unfold Trace.recordInto Findings.forPolicy at done
  rcases whole : (Findings.empty policy.cutoff).recordAll
    (walk policy .root reference candidate).differences with ⟨reached, stopped⟩
  rw [whole] at recorded
  cases stopped with
  | true =>
    simp only [whole, Except.ok.injEq] at done
    exact done ▸ recorded
  | false =>
    cases failure : (walk policy .root reference candidate).failure with
    | none =>
      simp only [whole, failure, Except.ok.injEq] at done
      exact done ▸ recorded
    | some error => simp [whole, failure] at done

/-- No two differences of a comparison are at one path, and the look-up by path reaches
each of them, when no items are paired by value and the texts of the values by which
items are paired tell the values apart. -/
theorem perform_nodup_paths {draft : Draft} {policy : Policy} (built : draft.build = .ok policy)
    (notByValue : policy.matchByValue = []) {reference candidate : Value}
    (wellFormed : reference.WellFormed) (wellFormedToo : candidate.WellFormed)
    (plain : reference.EveryKey Key.IsPlain) (plainToo : candidate.EveryKey Key.IsPlain)
    (apart : ApartByText policy reference candidate) {findings : Findings}
    (done : perform policy reference candidate = .ok findings) :
    (findings.items.map Difference.path).Nodup ∧
      ∀ difference ∈ findings.items, findings.atPath? difference.path = some difference := by
  have legible := Draft.legible_of_mem_matchByKey built
  have unseparated : ∀ value : Value, value.EveryKey Key.IsPlain →
      value.EveryKey fun key => '/' ∉ key.name.toList := by
    intro value everyKey
    refine everyKey.imp fun key isPlain => ?_
    obtain ⟨name, rfl, clear, -⟩ := isPlain
    exact clear
  have clear := stepsClear legible (unseparated _ plain) (unseparated _ plainToo) apart.clear
  have distinct := nodup_paths_walk clear
    (fun path left right pairings meets planned => stepsDistinct_of_plan legible notByValue
      wellFormed wellFormedToo plain plainToo apart meets planned) .start
  have kept := ((items_prefix_of_perform done).sublist.map Difference.path).nodup distinct
  exact ⟨kept, fun difference member => (indexed_of_perform done).atPath?_eq_some kept member⟩

/-- Items are paired by their identifiers. -/
def pairedByIdentifier : Policy :=
  { Policy.default with matchByKey := [⟨[.keyExpression "id"]⟩] }

/-- Two items that number and name themselves, one with a field. -/
def numberAndName : Value :=
  .array [.object [(.text "id", .number (.int 1)), (.text "n", .null)],
    .object [(.text "id", .text "x")]]

/-- The first of the two items without its field. -/
def numberOnly : Value :=
  .array [.object [(.text "id", .number (.int 1))]]

/-- The values in the two arrays. -/
def numberAndNameParts : List Value :=
  [numberAndName, numberOnly, .object [(.text "id", .number (.int 1)), (.text "n", .null)],
    .object [(.text "id", .text "x")], .object [(.text "id", .number (.int 1))],
    .number (.int 1), .text "x", .null]

/-- A number and a name that are spelled differently lead to differences at two paths. -/
theorem perform_nodup_paths_numberAndName :
    ∃ findings, perform pairedByIdentifier numberAndName numberOnly = .ok findings ∧
      findings.items.map Difference.path = ["/id=1/n", "/id=x"] ∧
      (findings.items.map Difference.path).Nodup := by
  have built :
      Draft.build { Draft.empty with matchByKey := [.text "/:id"] } = .ok pairedByIdentifier := by
    cbv
  have done : perform pairedByIdentifier numberAndName numberOnly = .ok {
      items := [⟨.missing, "/id=1/n", some .null, none⟩,
        ⟨.missing, "/id=x", some (.object [(.text "id", .text "x")]), none⟩]
      positions := [("/id=1/n", 0), ("/id=x", 1)]
      limit := none } := by
    cbv
  have wellFormed : numberAndName.WellFormed ∧ numberOnly.WellFormed := by
    simp [numberAndName, numberOnly, Value.WellFormed, Value.WellFormedItems,
      Value.WellFormedEntries, Entries.keys]
  have plain : numberAndName.EveryKey Key.IsPlain ∧ numberOnly.EveryKey Key.IsPlain := by
    have names : ∀ name ∈ ["id", "n"], (Key.text name).IsPlain := by
      intro name known
      refine ⟨name, rfl, ?_⟩
      simp only [List.mem_cons, List.not_mem_nil, or_false] at known
      rcases known with rfl | rfl <;> exact ⟨by decide, by cbv⟩
    simp [numberAndName, numberOnly, Value.EveryKey, Value.EveryKeyOfItems,
      Value.EveryKeyOfEntries, names]
  have part : ∀ value, PairsItemsBy pairedByIdentifier numberAndName numberOnly value →
      value ∈ numberAndNameParts := by
    intro value pairs
    exact pairs.of_parts (by simp [numberAndNameParts, Value.parts, numberAndName, numberOnly])
      (by simp [numberAndNameParts]) (by simp [numberAndNameParts])
  have apart : ApartByText pairedByIdentifier numberAndName numberOnly := by
    constructor
    · intro value pairs
      have clear : (numberAndNameParts.all fun value =>
          !value.segmentText.toList.contains '/') = true := by
        cbv
      simpa using List.all_eq_true.1 clear value (part value pairs)
    · intro path lefts rights key meets keyed first member second memberToo same
      rw [Pairing.identity_of_mem_keyedItems member, Pairing.identity_of_mem_keyedItems memberToo]
      have told : (numberAndNameParts.all fun value => numberAndNameParts.all fun other =>
          Text.trimEnd value.segmentText != Text.trimEnd other.segmentText ||
            pairedByIdentifier.identity value == pairedByIdentifier.identity other) = true := by
        cbv
      have here := List.all_eq_true.1 (List.all_eq_true.1 told _
        (part _ (meets.pairsItemsBy_of_mem_keyedItems keyed member))) _
        (part _ (meets.pairsItemsBy_of_mem_keyedItems keyed memberToo))
      simpa [same] using here
  exact ⟨_, done, rfl, (perform_nodup_paths built rfl wellFormed.1 wellFormed.2 plain.1 plain.2
    apart done).1⟩

/-- A number and a name that are spelled alike. -/
def spelledAlike : Value :=
  .array [.object [(.text "id", .number (.int 1))], .object [(.text "id", .text "1")]]

/-- A number and a name that are spelled alike are told apart and lead to differences at one
path, of which the look-up by path reaches only one. -/
theorem perform_repeats_path :
    ∃ policy findings,
      Draft.build { Draft.empty with matchByKey := [.text "/:id"] } = .ok policy ∧
      policy.matchByValue = [] ∧ spelledAlike.WellFormed ∧ spelledAlike.EveryKey Key.IsPlain ∧
      perform policy spelledAlike (.array []) = .ok findings ∧
      findings.items.map Difference.path = ["/id=1", "/id=1"] ∧
      ∃ difference ∈ findings.items, findings.atPath? difference.path ≠ some difference := by
  have built :
      Draft.build { Draft.empty with matchByKey := [.text "/:id"] } = .ok pairedByIdentifier := by
    cbv
  have done : perform pairedByIdentifier spelledAlike (.array []) = .ok {
      items := [
        ⟨.missing, "/id=1", some (.object [(.text "id", .number (.int 1))]), none⟩,
        ⟨.missing, "/id=1", some (.object [(.text "id", .text "1")]), none⟩]
      positions := [("/id=1", 1)]
      limit := none } := by
    cbv
  have wellFormed : spelledAlike.WellFormed := by
    simp [spelledAlike, Value.WellFormed, Value.WellFormedItems, Value.WellFormedEntries,
      Entries.keys]
  have plain : spelledAlike.EveryKey Key.IsPlain := by
    have identifier : (Key.text "id").IsPlain := ⟨"id", rfl, by decide, by cbv⟩
    simp [spelledAlike, Value.EveryKey, Value.EveryKeyOfItems, Value.EveryKeyOfEntries, identifier]
  refine ⟨_, _, built, rfl, wellFormed, plain, done, rfl, _, List.mem_cons_self, ?_⟩
  simp [Findings.atPath?, Findings.get?, Entries.find?]

end Comparison

end StructuralDiff
