import Mathlib
import StructuralDiff.Yaml.Reader

/-!
# The mappings in a YAML value

A YAML value has mappings at any depth, also in the keys of mappings (`Yaml.mappings`).
`Yaml.DistinctKeys` says that none of them has two equal keys. Reading ensures that, since an
entry is taken only when its key is new (`Yaml.distinctKeys_of_read?`).
-/

namespace StructuralDiff

namespace Yaml

mutual

/-- The mappings in a value: itself, and those inside it at any depth, also in keys. -/
def mappings : Yaml → List (List (Yaml × Yaml))
  | .sequence items => mappingsOfItems items
  | .mapping entries => entries :: mappingsOfEntries entries
  | .tagged _ value => value.mappings
  | _ => []

/-- The mappings in items. -/
def mappingsOfItems : List Yaml → List (List (Yaml × Yaml))
  | [] => []
  | item :: items => item.mappings ++ mappingsOfItems items

/-- The mappings in entries. -/
def mappingsOfEntries : List (Yaml × Yaml) → List (List (Yaml × Yaml))
  | [] => []
  | (key, value) :: entries => key.mappings ++ value.mappings ++ mappingsOfEntries entries

end

/-- No mapping in the value has two equal keys. -/
def DistinctKeys (value : Yaml) : Prop :=
  ∀ entries ∈ value.mappings, entries.Pairwise fun first second => first.1.same second.1 = false

theorem mem_mappingsOfItems {items : List Yaml} {entries : List (Yaml × Yaml)} :
    entries ∈ mappingsOfItems items ↔ ∃ item ∈ items, entries ∈ item.mappings := by
  induction items with
  | nil => simp [mappingsOfItems]
  | cons item items ih => simp [mappingsOfItems, ih]

theorem mem_mappingsOfEntries {others entries : List (Yaml × Yaml)} :
    entries ∈ mappingsOfEntries others ↔
      ∃ other ∈ others, entries ∈ other.1.mappings ∨ entries ∈ other.2.mappings := by
  induction others with
  | nil => simp [mappingsOfEntries]
  | cons other others ih => simp [mappingsOfEntries, ih, or_assoc]

/-- A sequence has distinct keys when its items have. -/
theorem distinctKeys_sequence_iff {items : List Yaml} :
    (Yaml.sequence items).DistinctKeys ↔ ∀ item ∈ items, item.DistinctKeys := by
  constructor
  · exact fun distinct item member entries held =>
      distinct entries (mem_mappingsOfItems.2 ⟨item, member, held⟩)
  · intro inside entries held
    obtain ⟨item, member, there⟩ := mem_mappingsOfItems.1 held
    exact inside item member entries there

/-- A mapping has distinct keys when its own are distinct and its keys and values have distinct
keys. -/
theorem distinctKeys_mapping_iff {entries : List (Yaml × Yaml)} :
    (Yaml.mapping entries).DistinctKeys ↔
      (entries.Pairwise fun first second => first.1.same second.1 = false) ∧
        ∀ entry ∈ entries, entry.1.DistinctKeys ∧ entry.2.DistinctKeys := by
  constructor
  · intro distinct
    refine ⟨distinct entries List.mem_cons_self, fun entry member => ⟨?_, ?_⟩⟩
    · exact fun others held => distinct others
        (List.mem_cons_of_mem _ (mem_mappingsOfEntries.2 ⟨entry, member, .inl held⟩))
    · exact fun others held => distinct others
        (List.mem_cons_of_mem _ (mem_mappingsOfEntries.2 ⟨entry, member, .inr held⟩))
  · rintro ⟨apart, inside⟩ others held
    rcases List.mem_cons.1 held with rfl | deeper
    · exact apart
    · obtain ⟨entry, member, inKey | inValue⟩ := mem_mappingsOfEntries.1 deeper
      · exact (inside entry member).1 others inKey
      · exact (inside entry member).2 others inValue

theorem distinctKeys_mapping_nil : (Yaml.mapping []).DistinctKeys :=
  distinctKeys_mapping_iff.2 ⟨List.Pairwise.nil, by simp⟩

/-- An entry whose key is new leaves the keys of a mapping distinct. -/
theorem DistinctKeys.append {known : List (Yaml × Yaml)} {key value : Yaml}
    (distinct : (Yaml.mapping known).DistinctKeys) (keyDistinct : key.DistinctKeys)
    (valueDistinct : value.DistinctKeys)
    (fresh : (known.any fun entry => entry.1.same key) = false) :
    (Yaml.mapping (known ++ [(key, value)])).DistinctKeys := by
  obtain ⟨apart, inside⟩ := distinctKeys_mapping_iff.1 distinct
  refine distinctKeys_mapping_iff.2 ⟨List.pairwise_append.2 ⟨apart, by simp, ?_⟩, ?_⟩
  · intro entry held other new
    rw [List.mem_singleton.1 new]
    exact Bool.eq_false_iff.2 (List.any_eq_false.1 fresh entry held)
  · intro entry held
    rcases List.mem_append.1 held with old | new
    · exact inside entry old
    · rw [List.mem_singleton.1 new]
      exact ⟨keyDistinct, valueDistinct⟩

/-- What a plain scalar stands for is no mapping and has none inside. -/
theorem mappings_of_plain? {content : String} {value : Yaml}
    (read : Scalar.plain? content = some value) : value.mappings = [] := by
  unfold Scalar.plain? at read
  split at read
  · cases read
    rfl
  split at read
  · cases read
    rfl
  split at read
  · obtain ⟨number, -, rfl⟩ := Option.map_eq_some_iff.1 read
    rfl
  split at read
  · cases read
    rfl
  split at read <;> cases read <;> rfl

/-- What a scalar with a tag stands for is no mapping and has none inside. -/
theorem mappings_of_tagged? {tag content : String} {plain : Bool} {value : Yaml}
    (read : Scalar.tagged? tag content plain = some value) : value.mappings = [] := by
  unfold Scalar.tagged? at read
  split at read
  · obtain ⟨_, -, rfl⟩ := Option.map_eq_some_iff.1 read
    rfl
  split at read
  · obtain ⟨_, -, rfl⟩ := Option.map_eq_some_iff.1 read
    rfl
  split at read
  · obtain ⟨_, -, rfl⟩ := Option.map_eq_some_iff.1 read
    rfl
  split at read
  · split at read <;> cases read
    rfl
  split at read
  · obtain ⟨inner, known, rfl⟩ := Option.map_eq_some_iff.1 read
    have none : inner.mappings = [] := by
      split at known
      · exact mappings_of_plain? known
      · cases known
        rfl
    rw [mappings, none]
  · cases read
    rfl

/-- What a scalar node stands for has no keys. -/
theorem distinctKeys_of_scalarValue? {tag : Option String} {plain : Bool} {content : String}
    {value : Yaml} (read : Node.scalarValue? tag plain content = some value) :
    value.DistinctKeys := by
  have none : value.mappings = [] := by
    unfold Node.scalarValue? at read
    split at read
    · exact mappings_of_tagged? read
    · split at read
      · exact mappings_of_plain? read
      · cases read
        rfl
  intro entries held
  rw [none] at held
  cases held

theorem distinctKeys_withTag {value : Yaml} (distinct : value.DistinctKeys)
    (tag : Option String) : (Node.withTag tag value).DistinctKeys := by
  unfold Node.withTag
  split
  · split
    · exact fun entries held => distinct entries held
    · exact distinct
  · exact distinct

/-- What is read under a tag has distinct keys if it has them without the tag. -/
theorem distinctKeys_of_map_withTag {α : Type} (build : α → Yaml) {tag : Option String}
    {found : Option (α × Nat)}
    (distinct : ∀ parts later, found = some (parts, later) → (build parts).DistinctKeys)
    {value : Yaml} {later : Nat}
    (read : (found.map fun (parts, later) => (Node.withTag tag (build parts), later)) =
      some (value, later)) : value.DistinctKeys := by
  obtain ⟨⟨parts, _⟩, known, same⟩ := Option.map_eq_some_iff.1 read
  cases same
  exact distinctKeys_withTag (distinct parts _ known) tag

/-- What a node stands for has distinct keys. By induction along the recursion of reading: the
entries that are known at each step have distinct keys. -/
theorem distinctKeys_of_value? (context : Node.Context) (depth : Nat) (node : Node Nat)
    (followed : Nat) : ∀ value later, node.value? context depth followed = some (value, later) →
      value.DistinctKeys := by
  refine Node.value?.induct context
    (fun depth node followed => ∀ value later,
      node.value? context depth followed = some (value, later) → value.DistinctKeys)
    (fun depth entries known followed => (Yaml.mapping known).DistinctKeys → ∀ values later,
      Node.entryValues? context depth entries known followed = some (values, later) →
      (Yaml.mapping values).DistinctKeys)
    (fun depth items followed => ∀ values later,
      Node.itemValues? context depth items followed = some (values, later) →
      (Yaml.sequence values).DistinctKeys)
    ?scalar ?sequenceTooDeep ?sequence ?mappingTooDeep ?mapping ?tooMany ?aliasOfScalar
    ?aliasOfSequence ?aliasOfMapping ?aliasOfNone ?noEntries ?entry ?noItems ?item
    depth node followed
  case scalar =>
    intro depth followed properties plain content value later read
    rw [Node.value?] at read
    obtain ⟨_, known, same⟩ := Option.map_eq_some_iff.1 read
    cases same
    exact distinctKeys_of_scalarValue? known
  case sequenceTooDeep =>
    intro followed properties items value later read
    simp [Node.value?] at read
  case sequence =>
    intro followed properties items depth ih value later read
    rw [Node.value?] at read
    exact distinctKeys_of_map_withTag sequence ih read
  case mappingTooDeep =>
    intro followed properties entries value later read
    simp [Node.value?] at read
  case mapping =>
    intro followed properties entries depth ih value later read
    rw [Node.value?] at read
    exact distinctKeys_of_map_withTag mapping (ih distinctKeys_mapping_nil) read
  case tooMany =>
    intro depth followed anchor many value later read
    simp [Node.value?.eq_def, many] at read
  case aliasOfScalar =>
    intro depth followed anchor few properties plain content target value later read
    simp only [Node.value?.eq_def, few, target, if_false] at read
    obtain ⟨_, known, same⟩ := Option.map_eq_some_iff.1 read
    cases same
    exact distinctKeys_of_scalarValue? known
  case aliasOfSequence =>
    intro followed anchor few properties items depth target ih value later read
    simp only [Node.value?.eq_def, few, target, if_false] at read
    exact distinctKeys_of_map_withTag sequence ih read
  case aliasOfMapping =>
    intro followed anchor few properties entries depth target ih value later read
    simp only [Node.value?.eq_def, few, target, if_false] at read
    exact distinctKeys_of_map_withTag mapping (ih distinctKeys_mapping_nil) read
  case aliasOfNone =>
    intro depth followed anchor few noScalar noSequence noMapping value later read
    simp [Node.value?.eq_def, few] at read
  case noEntries =>
    intro depth known followed distinct values later read
    rw [Node.entryValues?] at read
    cases read
    exact distinct
  case entry =>
    intro depth known followed key value entries ihKey ihValue ihEntries distinct values later read
    simp only [Node.entryValues?, Option.bind_eq_bind, Option.bind_eq_some_iff, Prod.exists] at read
    obtain ⟨readKey, afterKey, keyRead, read⟩ := read
    split at read
    · cases read
    · rename_i fresh
      simp only [Option.bind_eq_some_iff, Prod.exists] at read
      obtain ⟨readValue, afterValue, valueRead, read⟩ := read
      have keyDistinct := ihKey _ _ keyRead
      have valueDistinct := ihValue _ _ _ valueRead
      have onward := distinct.append keyDistinct valueDistinct (Bool.eq_false_iff.2 fresh)
      exact ihEntries _ _ _ onward _ _ read
  case noItems =>
    intro depth followed values later read
    rw [Node.itemValues?] at read
    cases read
    exact distinctKeys_sequence_iff.2 (by simp)
  case item =>
    intro depth followed item items ihItem ihItems values later read
    simp only [Node.itemValues?, Option.bind_eq_bind, Option.bind_eq_some_iff, Prod.exists] at read
    obtain ⟨readItem, afterItem, itemRead, rest, afterRest, restRead, same⟩ := read
    cases same
    have others := distinctKeys_sequence_iff.1 (ihItems _ _ _ restRead)
    exact distinctKeys_sequence_iff.2 (List.forall_mem_cons.2 ⟨ihItem _ _ itemRead, others⟩)

/-- What is read from a text has distinct keys. -/
theorem distinctKeys_of_read? {source : String} {value : Yaml}
    (read : read? source = some value) : value.DistinctKeys := by
  simp only [read?, Option.bind_eq_bind, Option.bind_eq_some_iff] at read
  obtain ⟨tokens, -, root, -, read⟩ := read
  cases root with
  | none =>
    cases read
    exact fun entries held => absurd held List.not_mem_nil
  | some root =>
    simp only [Option.bind_eq_some_iff, Prod.exists] at read
    obtain ⟨linked, _, -, found, later, known, same⟩ := read
    cases same
    exact distinctKeys_of_value? _ _ _ _ _ _ known

end Yaml

end StructuralDiff
