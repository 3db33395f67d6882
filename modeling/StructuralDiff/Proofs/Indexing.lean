import Mathlib.Data.List.Nodup
import StructuralDiff.Comparison.Pairing

/-!
# Indexes of items by a key

Items can be indexed when each of them is an object with the key and no two of them
have key values of one identity; the index then holds every item once
(`index_eq_ok_iff`). Neither the side nor the path of the array plays a part in that, and
the items that two indexes hold under one identity are paired with each other.
-/

namespace StructuralDiff

namespace Pairing

variable {policy : Policy} {side : Side} {path : Path} {key : String}

/-- An item under the identity of its key value, if it is an object that has the key. -/
def keyed? (policy : Policy) (key : String) : Value → Option Keyed
  | .object entries =>
    (policy.lookUp entries key).map fun value => ⟨policy.identity value, value, .object entries⟩
  | _ => none

/-- The items that can be indexed, in their order. -/
def keyedItems (policy : Policy) (key : String) (items : List Value) : List Keyed :=
  items.filterMap (keyed? policy key)

/-- Every item can be indexed, and none of them has the identity of another. -/
structure Indexable (policy : Policy) (key : String) (items : List Value) : Prop where
  keyed : ∀ item ∈ items, (keyed? policy key item).isSome
  distinct : ((keyedItems policy key items).map Keyed.identity).Nodup

/-- What is keyed is an object, under the value of its key and the identity of that. -/
theorem keyed?_eq_some_iff {item : Value} {keyed : Keyed} :
    keyed? policy key item = some keyed ↔ ∃ entries, item = .object entries ∧
      policy.lookUp entries key = some keyed.keyValue ∧ keyed.item = item ∧
      keyed.identity = policy.identity keyed.keyValue := by
  obtain ⟨identity, keyValue, held⟩ := keyed
  cases item with
  | object entries =>
    simp only [keyed?, Option.map_eq_some_iff, Keyed.mk.injEq, Value.object.injEq]
    constructor
    · rintro ⟨value, found, rfl, rfl, rfl⟩
      exact ⟨entries, rfl, found, rfl, rfl⟩
    · rintro ⟨_, rfl, found, rfl, rfl⟩
      exact ⟨keyValue, found, rfl, rfl, rfl⟩
  | _ => simp [keyed?]

/-- Indexed items are told apart by their key values. -/
theorem identity_of_mem_keyedItems {items : List Value} {keyed : Keyed}
    (member : keyed ∈ keyedItems policy key items) :
    keyed.identity = policy.identity keyed.keyValue := by
  obtain ⟨item, -, found⟩ := List.mem_filterMap.1 member
  obtain ⟨-, -, -, -, identity⟩ := keyed?_eq_some_iff.1 found
  exact identity

/-- An index goes on by one item when the item is keyed and its identity is new. -/
theorem indexFrom_cons_eq_ok_iff {known found : List Keyed} {position : Nat} {item : Value}
    {items : List Value} :
    indexFrom policy side path key known position (item :: items) = .ok found ↔
      ∃ keyed, keyed? policy key item = some keyed ∧
        keyed.identity ∉ known.map Keyed.identity ∧
        indexFrom policy side path key (known ++ [keyed]) (position + 1) items = .ok found := by
  cases item with
  | object entries =>
    rw [indexFrom]
    cases looked : policy.lookUp entries key with
    | none => simp [keyed?, looked]
    | some value =>
      simp only [keyed?, looked, Option.map_some, Option.some.injEq, exists_eq_left']
      have inKnown : (known.any fun other => other.identity == policy.identity value) = true ↔
          policy.identity value ∈ known.map Keyed.identity := by
        simp
      by_cases repeated : policy.identity value ∈ known.map Keyed.identity
      · simp only [inKnown, repeated, if_true, not_true_eq_false, false_and, iff_false]
        cases path.join (keyStep key value) <;> simp
      · simp only [inKnown, repeated, if_false, not_false_eq_true, true_and]
  | _ => simp [indexFrom, keyed?]

/-- An index is complete when every item is keyed and no identity comes twice, also not
among those that are known already. -/
theorem indexFrom_eq_ok_iff {known found : List Keyed} {position : Nat} {items : List Value}
    (distinct : (known.map Keyed.identity).Nodup) :
    indexFrom policy side path key known position items = .ok found ↔
      (∀ item ∈ items, (keyed? policy key item).isSome) ∧
        ((known ++ keyedItems policy key items).map Keyed.identity).Nodup ∧
        found = known ++ keyedItems policy key items := by
  induction items generalizing known position with
  | nil =>
    have same : Except.ok (ε := ComparisonError) known = .ok found ↔ found = known := by
      rw [Except.ok.injEq, eq_comm]
    simpa [indexFrom, keyedItems, distinct] using same
  | cons item items ih =>
    rw [indexFrom_cons_eq_ok_iff]
    cases here : keyed? policy key item with
    | none => simp [here]
    | some keyed =>
      have items_eq : known ++ keyedItems policy key (item :: items) =
          known ++ [keyed] ++ keyedItems policy key items := by
        simp [keyedItems, here]
      rw [items_eq]
      simp only [Option.some.injEq, exists_eq_left', List.mem_cons, forall_eq_or_imp, here,
        Option.isSome_some, true_and]
      by_cases fresh : keyed.identity ∈ known.map Keyed.identity
      · simp only [fresh, not_true_eq_false, false_and, false_iff, not_and]
        intro _ nodup
        rw [List.append_assoc, List.map_append, List.nodup_append] at nodup
        exact absurd rfl (nodup.2.2 _ fresh keyed.identity (by simp))
      · have distinctToo : ((known ++ [keyed]).map Keyed.identity).Nodup := by
          rw [List.map_append, List.nodup_append]
          refine ⟨distinct, List.nodup_singleton _, ?_⟩
          rintro identity inKnown other isNew rfl
          cases List.mem_singleton.1 isNew
          exact fresh inKnown
        simp only [fresh, not_false_eq_true, true_and, ih distinctToo]

/-- Items are indexed when they can be, whatever the side and the path, and the index
holds all of them in their order. -/
theorem index_eq_ok_iff {items : List Value} {found : List Keyed} :
    index policy side path key items = .ok found ↔
      Indexable policy key items ∧ found = keyedItems policy key items := by
  rw [index, indexFrom_eq_ok_iff (by simp), List.nil_append, ← and_assoc]
  exact and_congr_left fun _ => ⟨fun facts => ⟨facts.1, facts.2⟩,
    fun indexable => ⟨indexable.keyed, indexable.distinct⟩⟩

/-- Items in another order are indexed in that order. -/
theorem keyedItems_perm {items others : List Value} (reordered : items.Perm others) :
    (keyedItems policy key items).Perm (keyedItems policy key others) :=
  reordered.filterMap _

/-- Whether items can be indexed does not depend on their order. -/
theorem Indexable.perm {items others : List Value} (reordered : items.Perm others)
    (indexable : Indexable policy key items) : Indexable policy key others where
  keyed item member := indexable.keyed item (reordered.mem_iff.2 member)
  distinct := ((keyedItems_perm reordered).map _).nodup_iff.1 indexable.distinct

/-- An item that is indexed for one of two arrays is indexed for both together. -/
theorem mem_keyedItems_append {items others : List Value} {keyed : Keyed} :
    keyed ∈ keyedItems policy key (items ++ others) ↔
      keyed ∈ keyedItems policy key items ∨ keyed ∈ keyedItems policy key others := by
  rw [keyedItems, List.filterMap_append, List.mem_append]
  rfl

section Find

variable {items : List Keyed}

/-- What is found under an identity is indexed and has the identity. -/
theorem of_findKeyed_eq_some {identity : String} {keyed : Keyed}
    (found : findKeyed identity items = some keyed) : keyed ∈ items ∧ keyed.identity = identity :=
  ⟨List.mem_of_find?_eq_some found, by simpa using List.find?_some found⟩

/-- Where identities are distinct, every indexed item is found under its own. -/
theorem findKeyed_eq_some_iff (distinct : (items.map Keyed.identity).Nodup) {identity : String}
    {keyed : Keyed} :
    findKeyed identity items = some keyed ↔ keyed ∈ items ∧ keyed.identity = identity := by
  refine ⟨of_findKeyed_eq_some, ?_⟩
  rintro ⟨member, rfl⟩
  cases found : findKeyed keyed.identity items with
  | none =>
    have absent := List.find?_eq_none.1 found keyed member
    simp at absent
  | some other =>
    obtain ⟨known, same⟩ := of_findKeyed_eq_some found
    rw [List.inj_on_of_nodup_map distinct known member same]

/-- Nothing is found under an identity that no item has. -/
theorem findKeyed_eq_none_iff {identity : String} :
    findKeyed identity items = none ↔ identity ∉ items.map Keyed.identity := by
  simp [findKeyed]

/-- What is found under an identity does not depend on the order of the items. -/
theorem findKeyed_perm {others : List Keyed} (reordered : items.Perm others)
    (distinct : (items.map Keyed.identity).Nodup) (identity : String) :
    findKeyed identity items = findKeyed identity others := by
  have distinctToo := (reordered.map Keyed.identity).nodup_iff.1 distinct
  refine Option.ext fun keyed => ?_
  rw [findKeyed_eq_some_iff distinct, findKeyed_eq_some_iff distinctToo, reordered.mem_iff]

end Find

/-- The pairing of an indexed item with what the two sides have under its identity. -/
def ofKeyed (key : String) (references candidates : List Keyed) (keyed : Keyed) : Option Pairing :=
  match findKeyed keyed.identity references, findKeyed keyed.identity candidates with
  | some left, some right => some (.both (keyStep key keyed.keyValue) left.item right.item)
  | some left, none => some (.missing (keyStep key keyed.keyValue) left.item)
  | none, some right => some (.extra (keyStep key keyed.keyValue) right.item)
  | none, none => none

/-- A pairing of indexed items is under the value of their key. -/
theorem step_of_ofKeyed {references candidates : List Keyed} {keyed : Keyed} {pairing : Pairing}
    (shown : ofKeyed key references candidates keyed = some pairing) :
    pairing.step = keyStep key keyed.keyValue := by
  unfold ofKeyed at shown
  split at shown <;> cases shown <;> rfl

/-- The items of two arrays are paired by a key when both arrays can be indexed, whatever
the path. -/
theorem byKey_eq_ok_iff {reference candidate : List Value} {pairings : List Pairing} :
    byKey policy path key reference candidate = .ok pairings ↔
      Indexable policy key reference ∧ Indexable policy key candidate ∧
        pairings = (union (keyedItems policy key reference) (keyedItems policy key candidate)).filterMap
          (ofKeyed key (keyedItems policy key reference) (keyedItems policy key candidate)) := by
  unfold byKey
  simp only [Outcome.bind_eq_ok_iff, index_eq_ok_iff, Outcome.pure_eq_ok_iff]
  constructor
  · rintro ⟨_, ⟨indexable, rfl⟩, _, ⟨indexableToo, rfl⟩, rfl⟩
    exact ⟨indexable, indexableToo, rfl⟩
  · rintro ⟨indexable, indexableToo, rfl⟩
    exact ⟨_, ⟨indexable, rfl⟩, _, ⟨indexableToo, rfl⟩, rfl⟩

/-- The union of two indexes has the items of the first, and those of the second under
other identities. -/
theorem union_perm (references candidates : List Keyed) :
    (union references candidates).Perm (references ++
      candidates.filter fun keyed => (findKeyed keyed.identity references).isNone) :=
  List.mergeSort_perm _ _

/-- What is in the union of two indexes is in one of them. -/
theorem mem_or_mem_of_mem_union {references candidates : List Keyed} {keyed : Keyed}
    (member : keyed ∈ union references candidates) : keyed ∈ references ∨ keyed ∈ candidates := by
  rcases List.mem_append.1 ((union_perm _ _).mem_iff.1 member) with first | second
  · exact .inl first
  · exact .inr (List.mem_filter.1 second).1

/-- The union of two indexes has every identity once. -/
theorem nodup_identity_union {references candidates : List Keyed}
    (distinct : (references.map Keyed.identity).Nodup)
    (distinctToo : (candidates.map Keyed.identity).Nodup) :
    ((union references candidates).map Keyed.identity).Nodup := by
  rw [((union_perm references candidates).map _).nodup_iff, List.map_append, List.nodup_append]
  refine ⟨distinct, distinctToo.sublist (List.filter_sublist.map _), ?_⟩
  rintro identity inReferences other inOthers rfl
  obtain ⟨keyed, others, rfl⟩ := List.mem_map.1 inOthers
  have absent := (List.mem_filter.1 others).2
  rw [Option.isNone_iff_eq_none, findKeyed_eq_none_iff] at absent
  exact absent inReferences

end Pairing

end StructuralDiff
