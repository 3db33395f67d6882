import Mathlib
import StructuralDiff.Proofs.PlainPolicies

/-!
# Comparisons that overlook spellings

A policy may take keys that are spelled alike for one key, and truth values and numbers
for their texts. A comparison does so wherever it comes upon keys and scalars. The
canonical form of a document has it done beforehand, at every depth, and the
comparison of canonical forms without these terms takes the same course: it ends with
the same failure, or finds the same differences between the canonical forms of the same
values.
-/

namespace StructuralDiff

namespace Entries

variable {κ α β : Type}

/-- The same keys with other values. -/
def mapValues (change : α → β) (entries : Entries κ α) : Entries κ β :=
  entries.map fun entry => (entry.1, change entry.2)

@[simp] theorem mapValues_nil (change : α → β) : mapValues (κ := κ) change [] = [] := rfl

@[simp] theorem mapValues_cons (change : α → β) (entry : κ × α) (entries : Entries κ α) :
    mapValues change (entry :: entries) = (entry.1, change entry.2) :: mapValues change entries :=
  rfl

theorem keys_mapValues (change : α → β) (entries : Entries κ α) :
    keys (mapValues change entries) = keys entries := by
  rw [keys, mapValues, List.map_map]
  rfl

variable [DecidableEq κ] (change : α → β)

theorem find?_mapValues (key : κ) (entries : Entries κ α) :
    find? key (mapValues change entries) = (find? key entries).map change := by
  induction entries with
  | nil => rfl
  | cons entry entries ih =>
    obtain ⟨other, value⟩ := entry
    simp only [mapValues_cons, find?]
    by_cases same : other = key <;> simp [same, ih]

theorem has_mapValues (key : κ) (entries : Entries κ α) :
    has key (mapValues change entries) = has key entries := by
  simp [has, find?_mapValues]

theorem set_mapValues (key : κ) (value : α) (entries : Entries κ α) :
    set key (change value) (mapValues change entries) = mapValues change (set key value entries) := by
  induction entries with
  | nil => rfl
  | cons entry entries ih =>
    obtain ⟨other, old⟩ := entry
    simp only [mapValues_cons, set]
    by_cases same : other = key <;> simp [same, ih]

/-- Values may be changed before or after the pairs are set one after another. -/
theorem ofPairs_mapValues (pairs : List (κ × α)) :
    ofPairs (mapValues change pairs) = mapValues change (ofPairs pairs) := by
  have onward : ∀ known : Entries κ α,
      (mapValues change pairs).foldl (fun entries pair => set pair.1 pair.2 entries)
          (mapValues change known) =
        mapValues change (pairs.foldl (fun entries pair => set pair.1 pair.2 entries) known) := by
    induction pairs with
    | nil => exact fun known => rfl
    | cons pair pairs ih =>
      intro known
      have step := ih (set pair.1 pair.2 known)
      rw [← set_mapValues] at step
      exact step
  exact onward []

end Entries

namespace Policy

/-- The policy that takes keys and scalars as they are written, and is otherwise the
same. -/
def literal (policy : Policy) : Policy :=
  { policy with indifferentKeys := false, indifferentValues := false }

mutual

/-- The form of a document in which all that the policy overlooks is gone: where it takes
keys that are spelled alike for one key, every object has text keys only, the first of
two keys that meet keeping its place and the last its value; where it takes scalars for
their texts, every truth value and every number is its text. -/
def canonical (policy : Policy) : Value → Value
  | .array items => .array (canonicalItems policy items)
  | .object entries =>
    .object (if policy.indifferentKeys then
        Entries.ofPairs ((canonicalEntries policy entries).map fun entry =>
          (entry.1.canonical, entry.2))
      else canonicalEntries policy entries)
  | scalar => if policy.indifferentValues then scalar.canonicalScalar else scalar

/-- The canonical forms of items. -/
def canonicalItems (policy : Policy) : List Value → List Value
  | [] => []
  | item :: items => policy.canonical item :: canonicalItems policy items

/-- Entries with the canonical forms of their values, under their own keys. -/
def canonicalEntries (policy : Policy) : List (Key × Value) → List (Key × Value)
  | [] => []
  | (key, value) :: entries => (key, policy.canonical value) :: canonicalEntries policy entries

end

variable (policy : Policy)

theorem canonicalItems_eq_map (items : List Value) :
    policy.canonicalItems items = items.map policy.canonical := by
  induction items with
  | nil => rfl
  | cons item items ih => simp [canonicalItems, ih]

theorem canonicalEntries_eq_mapValues (entries : Entries Key Value) :
    policy.canonicalEntries entries = Entries.mapValues policy.canonical entries := by
  induction entries with
  | nil => rfl
  | cons entry entries ih =>
    obtain ⟨key, value⟩ := entry
    simp [canonicalEntries, ih]

/-- The canonical form of an array has the canonical forms of its items. -/
theorem canonical_array (items : List Value) :
    policy.canonical (.array items) = .array (items.map policy.canonical) := by
  rw [canonical, canonicalItems_eq_map]

/-- The canonical form of an object has the canonical forms of the entries that are
compared. -/
theorem canonical_object (entries : Entries Key Value) :
    policy.canonical (.object entries) =
      .object (Entries.mapValues policy.canonical (policy.entries entries)) := by
  rw [canonical, canonicalEntries_eq_mapValues, Policy.entries]
  split
  · rw [← Entries.ofPairs_mapValues]
    simp [Entries.mapValues, List.map_map, Function.comp_def]
  · rfl

/-- A scalar is canonical as it is compared. -/
theorem canonical_of_isScalar {value : Value} (scalar : value.isScalar) :
    policy.canonical value =
      if policy.indifferentValues then value.canonicalScalar else value := by
  cases value with
  | array items => cases scalar
  | object entries => cases scalar
  | _ => rfl

/-- A canonical form is of the same shape. -/
theorem shape_canonical (value : Value) : (policy.canonical value).shape = value.shape := by
  cases value with
  | array items => rw [canonical_array]; rfl
  | object entries => rw [canonical_object]; rfl
  | _ => rw [canonical_of_isScalar policy rfl]; split <;> rfl

theorem isScalar_canonical (value : Value) :
    (policy.canonical value).isScalar = value.isScalar := by
  rw [Value.isScalar, shape_canonical, Value.isScalar]

/-- Scalars are one value when their canonical forms are equal as they are. -/
theorem scalarsEqual_canonical {left right : Value} (scalar : left.isScalar)
    (scalarToo : right.isScalar) :
    policy.literal.scalarsEqual (policy.canonical left) (policy.canonical right) =
      policy.scalarsEqual left right := by
  rw [canonical_of_isScalar policy scalar, canonical_of_isScalar policy scalarToo]
  unfold scalarsEqual
  cases policy.indifferentValues <;> rfl

/-- A canonical scalar enters the comparison as the scalar does. -/
theorem prepared_canonical (path : Path) {value : Value} (scalar : value.isScalar) :
    Comparison.prepared policy.literal path (policy.canonical value) =
      Comparison.prepared policy path value := by
  rw [canonical_of_isScalar policy scalar]
  rfl

end Policy

/-- The difference of other values. -/
def Difference.mapValues (change : Value → Value) (difference : Difference) : Difference where
  kind := difference.kind
  path := difference.path
  reference := difference.reference.map change
  candidate := difference.candidate.map change

namespace Pairing

/-- The pairing of other values. -/
def mapValues (change : Value → Value) : Pairing → Pairing
  | .missing step value => .missing step (change value)
  | .both step left right => .both step (change left) (change right)
  | .extra step value => .extra step (change value)

@[simp] theorem step_mapValues (change : Value → Value) (pairing : Pairing) :
    (pairing.mapValues change).step = pairing.step := by
  cases pairing <;> rfl

variable (policy : Policy)

/-- Entries with other values are paired under the same keys. -/
theorem ofEntries_mapValues (change : Value → Value) (references candidates : Entries Key Value) :
    ofEntries (Entries.mapValues change references) (Entries.mapValues change candidates) =
      (ofEntries references candidates).map (mapValues change) := by
  have mapped : ∀ (entries : Entries Key Value) (shown shownToo : Key × Value → Option Pairing),
      (∀ key value, shown (key, change value) = (shownToo (key, value)).map (mapValues change)) →
      (Entries.mapValues change entries).filterMap shown =
        (entries.filterMap shownToo).map (mapValues change) := by
    intro entries shown shownToo same
    rw [Entries.mapValues, List.filterMap_map, List.map_filterMap]
    congr 1
    funext entry
    exact same entry.1 entry.2
  simp only [ofEntries, List.map_append]
  refine congrArg₂ _ (congrArg₂ _ ?_ ?_) ?_ <;> refine mapped _ _ _ fun key value => ?_
  · rw [Entries.has_mapValues]
    cases Entries.has key candidates <;> rfl
  · rw [Entries.find?_mapValues]
    cases Entries.find? key candidates <;> rfl
  · rw [Entries.has_mapValues]
    cases Entries.has key references <;> rfl

/-- Other items are paired by position alike. -/
theorem byPositionFrom_map (change : Value → Value) (position : Nat)
    (references candidates : List Value) :
    byPositionFrom position (references.map change) (candidates.map change) =
      (byPositionFrom position references candidates).map (mapValues change) := by
  fun_induction byPositionFrom position references candidates with
  | case1 => simp [byPositionFrom]
  | case2 position reference references ih => simpa [byPositionFrom, mapValues] using ih
  | case3 position candidate candidates ih => simpa [byPositionFrom, mapValues] using ih
  | case4 position reference references candidate candidates ih =>
    simpa [byPositionFrom, mapValues] using ih

/-- Positions stay where they are when their values change. -/
theorem positioned_map (change : Value → Value) (values : List Value) :
    positioned (values.map change) = Entries.mapValues change (positioned values) := by
  simp [positioned, Entries.mapValues, List.zipIdx_map, List.map_map, Function.comp_def]

/-- The canonical form of a scalar claims what the scalar claims. -/
theorem claim?_canonical {value : Value} (scalar : value.isScalar) {candidates : Positioned}
    (scalars : ∀ entry ∈ candidates, entry.2.isScalar) :
    claim? policy.literal (policy.canonical value)
        (Entries.mapValues policy.canonical candidates) =
      (claim? policy value candidates).map (Entries.mapValues policy.canonical) := by
  induction candidates with
  | nil => rfl
  | cons candidate candidates ih =>
    obtain ⟨position, other⟩ := candidate
    have here : other.isScalar := scalars _ List.mem_cons_self
    have later := ih fun entry member => scalars entry (List.mem_cons_of_mem _ member)
    simp only [Entries.mapValues_cons, claim?]
    rw [policy.scalarsEqual_canonical scalar here, later]
    cases policy.scalarsEqual value other <;>
      cases claim? policy value candidates <;> rfl

/-- Canonical forms of scalars leave unclaimed what the scalars leave unclaimed. -/
theorem unclaimed_canonical {references candidates : Positioned}
    (scalars : ∀ entry ∈ references, entry.2.isScalar)
    (scalarsToo : ∀ entry ∈ candidates, entry.2.isScalar) :
    unclaimed policy.literal (Entries.mapValues policy.canonical references)
        (Entries.mapValues policy.canonical candidates) =
      (Entries.mapValues policy.canonical (unclaimed policy references candidates).1,
        Entries.mapValues policy.canonical (unclaimed policy references candidates).2) := by
  induction references generalizing candidates with
  | nil => rfl
  | cons reference references ih =>
    obtain ⟨position, value⟩ := reference
    have here : value.isScalar := scalars _ List.mem_cons_self
    have later : ∀ entry ∈ references, entry.2.isScalar := fun entry member =>
      scalars entry (List.mem_cons_of_mem _ member)
    have claims := claim?_canonical policy here scalarsToo
    simp only [Entries.mapValues_cons, unclaimed, claims]
    cases claimed : claim? policy value candidates with
    | none => simp [ih later scalarsToo]
    | some rest =>
      have left : ∀ entry ∈ rest, entry.2.isScalar := fun entry member =>
        scalarsToo entry ((claim?_sublist claimed).mem member)
      simp [ih later left]

/-- Canonical items are paired by value as the items are, and it is undefined for the
same ones. -/
theorem byValue_canonical (path : Path) (references candidates : List Value) :
    byValue policy.literal path (references.map policy.canonical)
        (candidates.map policy.canonical) =
      (byValue policy path references candidates).map
        (List.map (mapValues policy.canonical)) := by
  have scalar : ∀ values : List Value,
      (values.map policy.canonical).all Value.isScalar = values.all Value.isScalar := by
    intro values
    simp [List.all_map, Function.comp_def, policy.isScalar_canonical]
  unfold byValue
  rw [scalar, scalar, positioned_map, positioned_map]
  split
  · rename_i all
    rw [Bool.and_eq_true, List.all_eq_true, List.all_eq_true] at all
    rw [unclaimed_canonical policy (fun entry member => all.1 _ (mem_of_mem_positioned member))
      (fun entry member => all.2 _ (mem_of_mem_positioned member))]
    simp [Except.map, Entries.mapValues, mapValues, List.map_map, Function.comp_def]
  · rfl

/-- Canonical items are paired as the items are, unless items are paired by a key. -/
theorem ofItems_canonical (noKeys : policy.matchByKey = []) (path : Path)
    (references candidates : List Value) :
    ofItems policy.literal path (references.map policy.canonical)
        (candidates.map policy.canonical) =
      (ofItems policy path references candidates).map
        (List.map (mapValues policy.canonical)) := by
  have noKey : policy.keyFor path = .ok none := policy.keyFor_of_noKeys noKeys path
  have noKeyToo : policy.literal.keyFor path = .ok none := noKey
  have sameItems : policy.literal.matchesByValue path = policy.matchesByValue path := rfl
  simp only [ofItems, noKey, noKeyToo, sameItems]
  split
  · exact byValue_canonical policy path references candidates
  · exact congrArg Except.ok (byPositionFrom_map policy.canonical 0 references candidates)

end Pairing

/-- What is done with two other values. -/
def Plan.mapValues (change : Value → Value) : Plan → Plan
  | .descend pairings => .descend (pairings.map (Pairing.mapValues change))
  | other => other

namespace Trace

/-- The trace of other values. -/
def mapValues (change : Value → Value) (trace : Trace) : Trace :=
  ⟨trace.differences.map (Difference.mapValues change), trace.failure⟩

theorem mapValues_append (change : Value → Value) (first second : Trace) :
    (first ++ second).mapValues change = first.mapValues change ++ second.mapValues change := by
  cases failure : first.failure with
  | some error =>
    have same : (first.mapValues change).failure = some error := failure
    rw [append_of_failed failure, append_of_failed same]
  | none =>
    have same : (first.mapValues change).failure = none := failure
    rw [append_of_complete failure, append_of_complete same]
    simp [mapValues]

/-- A sequence changes as each of its traces does. -/
theorem mapValues_sequence (change : Value → Value) (traces : List Trace) :
    (sequence traces).mapValues change = sequence (traces.map (mapValues change)) := by
  induction traces with
  | nil => rfl
  | cons trace traces ih =>
    rw [sequence_cons, mapValues_append, ih, List.map_cons, sequence_cons]

end Trace

namespace Comparison

variable (policy : Policy)

/-- With canonical forms is done what is done with the values. -/
theorem plan_canonical (noKeys : policy.matchByKey = []) (path : Path)
    (reference candidate : Value) :
    plan policy.literal path (policy.canonical reference) (policy.canonical candidate) =
      (plan policy path reference candidate).mapValues policy.canonical := by
  cases reference, candidate using Value.casesPair with
  | objects references candidates =>
    have written : ∀ entries, policy.literal.entries entries = entries := fun entries => rfl
    rw [policy.canonical_object, policy.canonical_object]
    simp only [plan, written, Pairing.ofEntries_mapValues, Plan.mapValues]
  | arrays references candidates =>
    rw [policy.canonical_array, policy.canonical_array]
    simp only [plan, Pairing.ofItems_canonical policy noKeys]
    cases Pairing.ofItems policy path references candidates <;> rfl
  | scalars reference candidate left right =>
    rw [plan_of_scalars policy path left right,
      plan_of_scalars policy.literal path (policy.isScalar_canonical reference ▸ left)
        (policy.isScalar_canonical candidate ▸ right)]
    rfl
  | shapes reference candidate different =>
    have still : (policy.canonical reference).shape ≠ (policy.canonical candidate).shape := by
      rwa [policy.shape_canonical, policy.shape_canonical]
    rw [plan_of_shape_ne policy path different, plan_of_shape_ne policy.literal path still]
    rfl

/-- Two canonical scalars differ where the scalars do. -/
theorem compareScalars_canonical (path : Path) {reference candidate : Value}
    (left : reference.isScalar) (right : candidate.isScalar) :
    compareScalars policy.literal path (policy.canonical reference) (policy.canonical candidate) =
      (compareScalars policy path reference candidate).mapValues policy.canonical := by
  unfold compareScalars
  rw [policy.prepared_canonical path left, policy.prepared_canonical path right]
  split <;> rfl

/-- A canonical form that only one side has comes up where the value does. -/
theorem oneSided_canonical (kind : DifferenceKind) (path : Path)
    (reference candidate : Option Value) :
    oneSided policy.literal kind path (reference.map policy.canonical)
        (candidate.map policy.canonical) =
      (oneSided policy kind path reference candidate).mapValues policy.canonical := by
  have sameFilter : policy.literal.excludes path = policy.excludes path := rfl
  unfold oneSided
  rw [sameFilter]
  split <;> rfl

/-- A pairing of canonical forms is visited as the pairing is, if that holds one step
further on. -/
theorem visit_canonical {path : Path} {pairing : Pairing}
    (inside : ∀ {step left right child}, pairing = .both step left right →
      path.join step = .ok child →
      walk policy.literal child (policy.canonical left) (policy.canonical right) =
        (walk policy child left right).mapValues policy.canonical) :
    visit policy.literal path (pairing.mapValues policy.canonical) =
      (visit policy path pairing).mapValues policy.canonical := by
  cases joined : path.join pairing.step with
  | error cause =>
    have joinedToo : path.join (pairing.mapValues policy.canonical).step = .error cause := by
      rw [Pairing.step_mapValues, joined]
    rw [visit_of_error joined, visit_of_error joinedToo]
    rfl
  | ok child =>
    have joinedToo : path.join (pairing.mapValues policy.canonical).step = .ok child := by
      rw [Pairing.step_mapValues, joined]
    cases pairing with
    | missing step value =>
      rw [visit_missing joined, Pairing.mapValues, visit_missing joinedToo]
      exact oneSided_canonical policy .missing child (some value) none
    | extra step value =>
      rw [visit_extra joined, Pairing.mapValues, visit_extra joinedToo]
      exact oneSided_canonical policy .extra child none (some value)
    | both step left right =>
      rw [visit_both joined, Pairing.mapValues, visit_both joinedToo]
      exact inside rfl joined

/-- The walk of canonical forms comes upon the canonical forms of what the walk of the
values comes upon. By induction along the walk of the values; both walks leave out the
same paths, since filters do not look at values. -/
theorem walk_canonical (noKeys : policy.matchByKey = []) (path : Path)
    (reference candidate : Value) :
    walk policy.literal path (policy.canonical reference) (policy.canonical candidate) =
      (walk policy path reference candidate).mapValues policy.canonical := by
  induction path, reference, candidate using walk_induction policy with
  | visited path reference candidate ih =>
    have sameFilter : policy.literal.excludes path = policy.excludes path := rfl
    by_cases leftOut : policy.excludes path = true
    · rw [walk_of_excluded leftOut, walk_of_excluded (sameFilter.trans leftOut)]
      rfl
    · have shown : policy.excludes path = false := by simpa using leftOut
      have shownToo : policy.literal.excludes path = false := sameFilter.trans shown
      have same := plan_canonical policy noKeys path reference candidate
      cases planned : plan policy path reference candidate with
      | fail error =>
        rw [planned] at same
        rw [walk_of_fail shown planned, walk_of_fail shownToo same]
        rfl
      | differInShape =>
        rw [planned] at same
        rw [walk_of_differInShape shown planned, walk_of_differInShape shownToo same]
        rfl
      | compareScalars =>
        rw [planned] at same
        rw [walk_of_compareScalars shown planned, walk_of_compareScalars shownToo same]
        obtain ⟨left, right⟩ := isScalar_of_compareScalars planned
        exact compareScalars_canonical policy path left right
      | descend pairings =>
        rw [planned] at same
        rw [walk_of_descend shown planned, walk_of_descend shownToo same,
          Trace.mapValues_sequence, List.map_map, List.map_map]
        congr 1
        refine List.map_congr_left fun pairing member => visit_canonical policy ?_
        rintro step left right child rfl joined
        exact ih planned member joined

/-- A comparison of other values ends as the comparison of the values does. -/
theorem Ends.mapValues {change : Value → Value} {trace : Trace} {limit : Option Nat}
    {outcome changed : Except ComparisonError Findings} (ends : Ends trace limit outcome)
    (endsToo : Ends (trace.mapValues change) limit changed) :
    changed.map Findings.items =
      outcome.map fun findings => findings.items.map (Difference.mapValues change) := by
  have length : (trace.mapValues change).differences.length = trace.differences.length := by
    simp [Trace.mapValues]
  cases ends with
  | complete whole within items =>
    cases endsToo with
    | complete _ _ itemsToo => simp [Except.map, items, itemsToo, Trace.mapValues]
    | cut limited beyond =>
      have short := within _ limited
      omega
    | failed failure =>
      have same : trace.failure = some _ := failure
      simp [whole] at same
  | cut limited beyond items =>
    cases endsToo with
    | complete _ within =>
      have short := within _ limited
      omega
    | cut limitedToo _ itemsToo =>
      rw [limited] at limitedToo
      cases limitedToo
      simp [Except.map, items, itemsToo, Trace.mapValues]
    | failed _ within =>
      have short := within _ limited
      omega
  | failed failure within =>
    cases endsToo with
    | complete whole =>
      have same : trace.failure = none := whole
      simp [failure] at same
    | cut limited beyond =>
      have short := within _ limited
      omega
    | failed failureToo =>
      have same : trace.failure = some _ := failureToo
      rw [failure] at same
      cases same
      rfl

/-- A comparison that overlooks spellings ends as the literal comparison of the canonical
forms of the documents: with the same failure, or with differences of the same kinds at
the same paths in the same order, between the canonical forms of the values. -/
theorem perform_canonical {policy : Policy} (noKeys : policy.matchByKey = [])
    (reference candidate : Value) :
    (perform policy.literal (policy.canonical reference) (policy.canonical candidate)).map
        Findings.items =
      (perform policy reference candidate).map fun findings =>
        findings.items.map (Difference.mapValues policy.canonical) := by
  have ends := perform_ends policy reference candidate
  have endsToo := perform_ends policy.literal (policy.canonical reference)
    (policy.canonical candidate)
  rw [walk_canonical policy noKeys] at endsToo
  exact ends.mapValues endsToo

/-- Keys and scalars are compared by their spelling, and the items of one list by value. -/
def bySpelling : Policy :=
  { Policy.default with
    matchByValue := [⟨[.plain "list"]⟩]
    indifferentKeys := true
    indifferentValues := true }

/-- An object in which a bare key and a text key meet. -/
def meetingKeys : Value :=
  .object [(.scalar "1", .null), (.text "list", .array [.bool true, .number (.int 2)]),
    (.text "1", .number (.int 5))]

/-- An object with texts only. -/
def textsOnly : Value :=
  .object [(.text "list", .array [.text "2", .text "x"]), (.text "1", .text "6")]

/-- The bare key keeps its place and has the value of the text key, as its text. -/
theorem perform_canonical_meetingKeys :
    bySpelling.matchByKey = [] ∧
      (perform bySpelling.literal (bySpelling.canonical meetingKeys)
          (bySpelling.canonical textsOnly)).map Findings.items =
        .ok [⟨.mismatch, "/1", some (.text "5"), some (.text "6")⟩,
          ⟨.missing, "/list/1", some (.text "true"), none⟩,
          ⟨.extra, "/list/2", none, some (.text "x")⟩] := by
  have done : perform bySpelling meetingKeys textsOnly = .ok {
      items := [⟨.mismatch, "/1", some (.number (.int 5)), some (.text "6")⟩,
        ⟨.missing, "/list/1", some (.bool true), none⟩,
        ⟨.extra, "/list/2", none, some (.text "x")⟩]
      positions := [("/1", 0), ("/list/1", 1), ("/list/2", 2)]
      limit := none } := by
    cbv
  refine ⟨rfl, ?_⟩
  rw [perform_canonical rfl, done]
  cbv

end Comparison

end StructuralDiff
