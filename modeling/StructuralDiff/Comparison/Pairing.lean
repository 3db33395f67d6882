import StructuralDiff.Comparison.Failure
import StructuralDiff.Document.KeyOrder
import StructuralDiff.Document.Rendering
import StructuralDiff.Outcome

/-!
# Pairings

Before two containers are compared, their contents are paired: the entries of two
objects by their keys, the items of two arrays by position, by the value of a key,
or by value. A pairing names the step that leads to its values and says on which
sides there is one.
-/

namespace StructuralDiff

/-- Values of two containers that belong together, under the step that leads to
them. -/
inductive Pairing where
  | missing (step : String) (reference : Value)
  | both (step : String) (reference candidate : Value)
  | extra (step : String) (candidate : Value)

namespace Policy

/-- The entries of an object as they are compared: when keys that are spelled alike
are one key, the first of them has the place and the last of them the value. -/
def entries (policy : Policy) (entries : Entries Key Value) : Entries Key Value :=
  if policy.indifferentKeys then
    Entries.ofPairs (entries.map fun entry => (entry.1.canonical, entry.2))
  else entries

/-- The value of an object under a key by which items are paired. -/
def lookUp (policy : Policy) (entries : Entries Key Value) (key : String) : Option Value :=
  match entries.find? (.text key) with
  | some value => some value
  | none => if policy.indifferentKeys then entries.find? (.scalar key) else none

/-- The text by which two key values are told apart. -/
def identity (policy : Policy) (value : Value) : String :=
  if policy.indifferentValues then value.canonicalScalar.inspect else value.inspect

/-- Two scalars are one value when items are paired by value. -/
def scalarsEqual (policy : Policy) (left right : Value) : Bool :=
  if policy.indifferentValues then left.canonicalScalar.equal right.canonicalScalar
  else left.equal right

end Policy

namespace Pairing

/-- The entries of two objects: first those that only the reference has, then those
that both have, then those that only the candidate has. -/
def ofEntries (reference candidate : Entries Key Value) : List Pairing :=
  (reference.filterMap fun (key, value) =>
      if candidate.has key then none else some (.missing key.name value)) ++
    (reference.filterMap fun (key, value) =>
      (candidate.find? key).map fun other => .both key.name value other) ++
    (candidate.filterMap fun (key, value) =>
      if reference.has key then none else some (.extra key.name value))

/-- The step to the item at a position, counted from zero; steps count from one. -/
def positionStep (position : Nat) : String :=
  Decimal.naturalText (position + 1)

/-- The items of two arrays by position, from a given position on. -/
def byPositionFrom (position : Nat) : List Value → List Value → List Pairing
  | [], [] => []
  | reference :: references, [] =>
    .missing (positionStep position) reference :: byPositionFrom (position + 1) references []
  | [], candidate :: candidates =>
    .extra (positionStep position) candidate :: byPositionFrom (position + 1) [] candidates
  | reference :: references, candidate :: candidates =>
    .both (positionStep position) reference candidate ::
      byPositionFrom (position + 1) references candidates

/-- The items of two arrays by position. -/
def byPosition (reference candidate : List Value) : List Pairing :=
  byPositionFrom 0 reference candidate

/-- An item of an array under the identity of its key value. -/
structure Keyed where
  identity : String
  keyValue : Value
  item : Value

/-- The step to the items that have a value under a key. -/
def keyStep (key : String) (value : Value) : String :=
  key ++ "=" ++ value.segmentText

/-- The items of one array under the identities of their key values, from a given
position on and after the items that are known already. -/
def indexFrom (policy : Policy) (side : Side) (path : Path) (key : String) (known : List Keyed)
    (position : Nat) : List Value → Except ComparisonError (List Keyed)
  | [] => .ok known
  | item :: items =>
    match item with
    | .object entries =>
      match policy.lookUp entries key with
      | none => .error (.noSuchKey side position key (entries.map fun entry => entry.1.name))
      | some value =>
        let identity := policy.identity value
        if known.any fun other => other.identity == identity then
          match path.join (keyStep key value) with
          | .ok path => .error (.duplicateKey side path)
          | .error cause => .error (.invalidStep cause)
        else
          indexFrom policy side path key (known ++ [⟨identity, value, item⟩]) (position + 1) items
    | other => .error (.notAnObject side position other.typeName)

/-- The items of one array under the identities of their key values. -/
def index (policy : Policy) (side : Side) (path : Path) (key : String) (items : List Value) :
    Except ComparisonError (List Keyed) :=
  indexFrom policy side path key [] 0 items

/-- The item of an identity. -/
def findKeyed (identity : String) (items : List Keyed) : Option Keyed :=
  items.find? fun keyed => keyed.identity == identity

/-- The indexed items of both arrays, each identity once, in the order of their key
values. -/
def union (reference candidate : List Keyed) : List Keyed :=
  let others := candidate.filter fun keyed => (findKeyed keyed.identity reference).isNone
  (reference ++ others).mergeSort fun left right => left.keyValue.keyOrder right.keyValue != .gt

/-- The items of two arrays by the value of a key. -/
def byKey (policy : Policy) (path : Path) (key : String) (reference candidate : List Value) :
    Except ComparisonError (List Pairing) := do
  let references ← index policy .reference path key reference
  let candidates ← index policy .candidate path key candidate
  return (union references candidates).filterMap fun keyed =>
    let step := keyStep key keyed.keyValue
    match findKeyed keyed.identity references, findKeyed keyed.identity candidates with
    | some left, some right => some (.both step left.item right.item)
    | some left, none => some (.missing step left.item)
    | none, some right => some (.extra step right.item)
    | none, none => none

/-- Values with their positions. -/
abbrev Positioned := List (Nat × Value)

/-- Take the first candidate that equals a value out of the candidates. -/
def claim? (policy : Policy) (value : Value) : Positioned → Option Positioned
  | [] => none
  | (position, candidate) :: rest =>
    if policy.scalarsEqual value candidate then some rest
    else (claim? policy value rest).map ((position, candidate) :: ·)

/-- Each reference item in turn claims an equal candidate; the result is the items
that found none and the candidates that nobody claimed. -/
def unclaimed (policy : Policy) : Positioned → Positioned → Positioned × Positioned
  | [], candidates => ([], candidates)
  | (position, value) :: references, candidates =>
    match claim? policy value candidates with
    | some rest => unclaimed policy references rest
    | none =>
      let (unmatched, left) := unclaimed policy references candidates
      ((position, value) :: unmatched, left)

/-- Values with their positions, counted from zero. -/
def positioned (values : List Value) : Positioned :=
  values.zipIdx.map fun entry => (entry.2, entry.1)

/-- The items of two arrays by value. Items that equal each other need no further
comparison; the others keep their own positions. -/
def byValue (policy : Policy) (path : Path) (reference candidate : List Value) :
    Except ComparisonError (List Pairing) :=
  if reference.all Value.isScalar && candidate.all Value.isScalar then
    let (unmatched, left) := unclaimed policy (positioned reference) (positioned candidate)
    .ok (unmatched.map (fun entry => .missing (positionStep entry.1) entry.2) ++
      left.map (fun entry => .extra (positionStep entry.1) entry.2))
  else .error (.undefinedByValue path)

/-- The items of two arrays, paired as a policy asks. -/
def ofItems (policy : Policy) (path : Path) (reference candidate : List Value) :
    Except ComparisonError (List Pairing) :=
  match policy.keyFor path with
  | .error cause => .error (.ambiguousKey cause)
  | .ok (some key) => byKey policy path key reference candidate
  | .ok none =>
    if policy.matchesByValue path then byValue policy path reference candidate
    else .ok (byPosition reference candidate)

/-- The step that leads to the values of a pairing. -/
def step : Pairing → String
  | .missing step _ => step
  | .both step _ _ => step
  | .extra step _ => step

/-- The values of a pairing are among the values of the two sides. -/
def Within (references candidates : List Value) : Pairing → Prop
  | .missing _ value => value ∈ references
  | .both _ left right => left ∈ references ∧ right ∈ candidates
  | .extra _ value => value ∈ candidates

/-- The pairings of entries: those that only one side has, and those of both. -/
theorem mem_ofEntries_iff {references candidates : Entries Key Value} {pairing : Pairing} :
    pairing ∈ ofEntries references candidates ↔
      (∃ key value, (key, value) ∈ references ∧ candidates.find? key = none ∧
        pairing = .missing key.name value) ∨
      (∃ key value other, (key, value) ∈ references ∧ candidates.find? key = some other ∧
        pairing = .both key.name value other) ∨
      (∃ key value, (key, value) ∈ candidates ∧ references.find? key = none ∧
        pairing = .extra key.name value) := by
  have onlyWhereAbsent : ∀ (others : Entries Key Value) (key : Key) (shown : Pairing),
      (if others.has key then none else some shown) = some pairing ↔
        others.find? key = none ∧ pairing = shown := by
    intro others key shown
    cases found : others.find? key <;> simp [Entries.has, found, eq_comm]
  simp only [ofEntries, List.mem_append, List.mem_filterMap, Prod.exists, onlyWhereAbsent,
    Option.map_eq_some_iff, or_assoc, exists_and_left, eq_comm (b := pairing)]

/-- Pairings of entries hold values of the entries. -/
theorem within_of_mem_ofEntries {references candidates : Entries Key Value} {pairing : Pairing}
    (member : pairing ∈ ofEntries references candidates) :
    pairing.Within (references.map Prod.snd) (candidates.map Prod.snd) := by
  rcases mem_ofEntries_iff.1 member with
    ⟨key, value, known, -, rfl⟩ | ⟨key, value, other, known, found, rfl⟩ | ⟨key, value, known, -, rfl⟩
  · exact List.mem_map_of_mem known
  · exact ⟨List.mem_map_of_mem known, List.mem_map_of_mem (Entries.mem_of_find? found)⟩
  · exact List.mem_map_of_mem known

/-- Pairings by position hold items of the arrays. -/
theorem within_of_mem_byPositionFrom {position : Nat} {references candidates : List Value}
    {pairing : Pairing} (member : pairing ∈ byPositionFrom position references candidates) :
    pairing.Within references candidates := by
  fun_induction byPositionFrom position references candidates with
  | case1 => cases member
  | case2 position reference references ih =>
    rcases List.mem_cons.1 member with rfl | later
    · exact List.mem_cons_self
    · have inner := ih later
      cases pairing <;> simp_all [Within]
  | case3 position candidate candidates ih =>
    rcases List.mem_cons.1 member with rfl | later
    · exact List.mem_cons_self
    · have inner := ih later
      cases pairing <;> simp_all [Within]
  | case4 position reference references candidate candidates ih =>
    rcases List.mem_cons.1 member with rfl | later
    · exact ⟨List.mem_cons_self, List.mem_cons_self⟩
    · have inner := ih later
      cases pairing <;> simp_all [Within]

/-- What is indexed was known before, or is an object among the items, under the value
of its key. -/
theorem of_mem_indexFrom {policy : Policy} {side : Side} {path : Path} {key : String}
    {known found : List Keyed} {position : Nat} {items : List Value}
    (indexed : indexFrom policy side path key known position items = .ok found) {keyed : Keyed}
    (member : keyed ∈ found) :
    keyed ∈ known ∨ keyed.item ∈ items ∧ ∃ entries, keyed.item = .object entries ∧
      policy.lookUp entries key = some keyed.keyValue := by
  induction items generalizing known position with
  | nil =>
    cases indexed
    exact .inl member
  | cons item items ih =>
    cases item with
    | object entries =>
      simp only [indexFrom] at indexed
      split at indexed
      · cases indexed
      · rename_i value looked
        split at indexed
        · split at indexed <;> cases indexed
        · rcases ih indexed with before | ⟨held, inner, object, lookedToo⟩
          · rcases List.mem_append.1 before with old | new
            · exact .inl old
            · cases List.mem_singleton.1 new
              exact .inr ⟨List.mem_cons_self, entries, rfl, looked⟩
          · exact .inr ⟨List.mem_cons_of_mem _ held, inner, object, lookedToo⟩
    | _ => cases indexed

/-- Every indexed item is an object of the array, under the value of its key. -/
theorem of_mem_index {policy : Policy} {side : Side} {path : Path} {key : String}
    {found : List Keyed} {items : List Value} (indexed : index policy side path key items = .ok found)
    {keyed : Keyed} (member : keyed ∈ found) :
    keyed.item ∈ items ∧ ∃ entries, keyed.item = .object entries ∧
      policy.lookUp entries key = some keyed.keyValue := by
  rcases of_mem_indexFrom indexed member with impossible | known
  · cases impossible
  · exact known

/-- Pairings by key are read off the two indexes. -/
theorem byKey_eq_ok {policy : Policy} {path : Path} {key : String}
    {reference candidate : List Value} {pairings : List Pairing}
    (paired : byKey policy path key reference candidate = .ok pairings) :
    ∃ references candidates, index policy .reference path key reference = .ok references ∧
      index policy .candidate path key candidate = .ok candidates ∧
      ∀ pairing ∈ pairings, ∃ keyed ∈ references ++ candidates,
        pairing.step = keyStep key keyed.keyValue ∧
        pairing.Within (references.map Keyed.item) (candidates.map Keyed.item) := by
  unfold byKey at paired
  obtain ⟨references, indexed, rest⟩ := Outcome.bind_eq_ok_iff.1 paired
  obtain ⟨candidates, indexedToo, whole⟩ := Outcome.bind_eq_ok_iff.1 rest
  cases Outcome.pure_eq_ok_iff.1 whole
  refine ⟨references, candidates, indexed, indexedToo, fun pairing member => ?_⟩
  obtain ⟨keyed, inUnion, shown⟩ := List.mem_filterMap.1 member
  have known : keyed ∈ references ++ candidates := by
    unfold union at inUnion
    rw [List.mem_mergeSort, List.mem_append] at inUnion
    rcases inUnion with first | second
    · exact List.mem_append_left _ first
    · exact List.mem_append_right _ (List.mem_filter.1 second).1
  refine ⟨keyed, known, ?_⟩
  unfold findKeyed at shown
  split at shown
  · rename_i left right leftFound rightFound
    cases shown
    exact ⟨rfl, List.mem_map_of_mem (List.mem_of_find?_eq_some leftFound),
      List.mem_map_of_mem (List.mem_of_find?_eq_some rightFound)⟩
  · rename_i left leftFound _
    cases shown
    exact ⟨rfl, List.mem_map_of_mem (List.mem_of_find?_eq_some leftFound)⟩
  · rename_i right _ rightFound
    cases shown
    exact ⟨rfl, List.mem_map_of_mem (List.mem_of_find?_eq_some rightFound)⟩
  · cases shown

/-- A claim takes one candidate and leaves the others. -/
theorem claim?_sublist {policy : Policy} {value : Value} {candidates rest : Positioned}
    (claimed : claim? policy value candidates = some rest) : rest.Sublist candidates := by
  induction candidates generalizing rest with
  | nil => cases claimed
  | cons candidate candidates ih =>
    obtain ⟨position, other⟩ := candidate
    unfold claim? at claimed
    split at claimed
    · cases claimed
      exact List.sublist_cons_self _ _
    · obtain ⟨left, inner, rfl⟩ := Option.map_eq_some_iff.1 claimed
      exact (ih inner).cons_cons _

/-- What stays unclaimed is among the items, on either side and in their order. -/
theorem unclaimed_sublist (policy : Policy) (references candidates : Positioned) :
    (unclaimed policy references candidates).1.Sublist references ∧
      (unclaimed policy references candidates).2.Sublist candidates := by
  induction references generalizing candidates with
  | nil => exact ⟨List.Sublist.refl _, List.Sublist.refl _⟩
  | cons reference references ih =>
    obtain ⟨position, value⟩ := reference
    unfold unclaimed
    split
    · rename_i rest claimed
      exact ⟨(ih rest).1.cons _, (ih rest).2.trans (claim?_sublist claimed)⟩
    · exact ⟨(ih candidates).1.cons_cons _, (ih candidates).2⟩

/-- A positioned value is one of the values. -/
theorem mem_of_mem_positioned {values : List Value} {entry : Nat × Value}
    (member : entry ∈ positioned values) : entry.2 ∈ values := by
  obtain ⟨⟨value, position⟩, known, rfl⟩ := List.mem_map.1 member
  exact List.fst_mem_of_mem_zipIdx known

/-- Pairings by value are items of one side at their positions. -/
theorem byValue_eq_ok {policy : Policy} {path : Path} {reference candidate : List Value}
    {pairings : List Pairing} (paired : byValue policy path reference candidate = .ok pairings)
    {pairing : Pairing} (member : pairing ∈ pairings) :
    (∃ position, pairing.step = positionStep position) ∧ pairing.Within reference candidate := by
  unfold byValue at paired
  split at paired
  · cases paired
    have within := unclaimed_sublist policy (positioned reference) (positioned candidate)
    rcases List.mem_append.1 member with missing | extra
    · obtain ⟨entry, known, rfl⟩ := List.mem_map.1 missing
      exact ⟨⟨entry.1, rfl⟩, mem_of_mem_positioned (within.1.mem known)⟩
    · obtain ⟨entry, known, rfl⟩ := List.mem_map.1 extra
      exact ⟨⟨entry.1, rfl⟩, mem_of_mem_positioned (within.2.mem known)⟩
  · cases paired

/-- Pairings of items hold items of the arrays. -/
theorem within_of_mem_ofItems {policy : Policy} {path : Path} {reference candidate : List Value}
    {pairings : List Pairing} (paired : ofItems policy path reference candidate = .ok pairings)
    {pairing : Pairing} (member : pairing ∈ pairings) : pairing.Within reference candidate := by
  unfold ofItems at paired
  split at paired
  · cases paired
  · obtain ⟨references, candidates, indexed, indexedToo, paired⟩ := byKey_eq_ok paired
    obtain ⟨keyed, -, -, within⟩ := paired pairing member
    have referenceItem : ∀ value ∈ references.map Keyed.item, value ∈ reference := by
      intro value known
      obtain ⟨other, inIndex, rfl⟩ := List.mem_map.1 known
      exact (of_mem_index indexed inIndex).1
    have candidateItem : ∀ value ∈ candidates.map Keyed.item, value ∈ candidate := by
      intro value known
      obtain ⟨other, inIndex, rfl⟩ := List.mem_map.1 known
      exact (of_mem_index indexedToo inIndex).1
    cases pairing with
    | missing step value => exact referenceItem value within
    | both step left right => exact ⟨referenceItem left within.1, candidateItem right within.2⟩
    | extra step value => exact candidateItem value within
  · split at paired
    · exact (byValue_eq_ok paired member).2
    · cases paired
      exact within_of_mem_byPositionFrom member

end Pairing

namespace Policy

/-- A compared entry of an object has one of its values, under a key of the same
spelling. -/
theorem of_mem_entries {policy : Policy} {entries : Entries Key Value} {entry : Key × Value}
    (member : entry ∈ policy.entries entries) :
    ∃ other ∈ entries, other.1.name = entry.1.name ∧ other.2 = entry.2 := by
  unfold Policy.entries at member
  split at member
  · obtain ⟨other, known, rfl⟩ := List.mem_map.1 (Entries.mem_of_mem_ofPairs member)
    exact ⟨other, known, rfl, rfl⟩
  · exact ⟨entry, member, rfl, rfl⟩

/-- The compared entries of an object have distinct keys. -/
theorem nodup_keys_entries (policy : Policy) {entries : Entries Key Value}
    (distinct : entries.keys.Nodup) : (policy.entries entries).keys.Nodup := by
  unfold Policy.entries
  split
  · exact Entries.nodup_keys_ofPairs _
  · exact distinct

/-- What is looked up in an object is inside it. -/
theorem mem_of_lookUp {policy : Policy} {entries : Entries Key Value} {key : String} {value : Value}
    (found : policy.lookUp entries key = some value) : value ∈ (Value.object entries).parts := by
  unfold lookUp at found
  split at found
  · rename_i there
    cases found
    exact List.mem_map_of_mem (Entries.mem_of_find? there)
  · split at found
    · exact List.mem_map_of_mem (Entries.mem_of_find? found)
    · cases found

end Policy

end StructuralDiff
