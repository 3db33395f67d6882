import Mathlib
import StructuralDiff.Proofs.Canonical
import StructuralDiff.Proofs.Equality
import StructuralDiff.Proofs.JsonReading
import StructuralDiff.Proofs.Position
import StructuralDiff.Reading

/-!
# Values read back from their compact texts

A value whose keys are texts and whose numbers are integers is in JSON what it is, but for the
forms of integers: one that is unsigned and fits comes back signed (`Value.narrowed`). Nothing
else changes, so the value that is read back equals the one that was written and has the same
keys in the same order everywhere (`Value.read_inspect`).
-/

namespace StructuralDiff

namespace Number

/-- An unsigned integer has its value in whichever form it is kept. -/
theorem wholeValue_ofNat64 (value : UInt64) : (ofNat64 value).wholeValue = some (value.toNat : Int) := by
  rw [ofNat64]
  split
  · rename_i signed
    rw [wholeValue, Int64.toInt_ofNat_of_lt]
    have bound := (isSigned_iff.1 signed).2
    omega
  · rfl

/-- An integer equals itself in the form in which it is read. -/
theorem narrowed_equal {number : Number} (integer : number.IsInteger) :
    number.narrowed.equal number = true := by
  cases number with
  | float value => cases integer
  | int value => simp [narrowed, equal, wholeValue]
  | uint value =>
    have same : (Number.uint value).narrowed.wholeValue = some (value.toNat : Int) :=
      wholeValue_ofNat64 value
    rw [equal, same]
    simp [wholeValue]

/-- An integer in the form in which it is read is the same in JSON. -/
theorem toJson_narrowed {number : Number} (integer : number.IsInteger) :
    number.toJson = .number number ∧ number.narrowed.toJson = .number number.narrowed := by
  cases number with
  | float value => cases integer
  | int value => exact ⟨rfl, rfl⟩
  | uint value =>
    refine ⟨rfl, ?_⟩
    rw [narrowed, ofNat64]
    split <;> rfl

end Number

namespace Value

mutual

/-- How many arrays and objects are around the innermost value, those at both ends counted. -/
def nesting : Value → Nat
  | .array items => nestingOfItems items + 1
  | .object entries => nestingOfEntries entries + 1
  | _ => 0

/-- The deepest nesting of items. -/
def nestingOfItems : List Value → Nat
  | [] => 0
  | item :: items => max item.nesting (nestingOfItems items)

/-- The deepest nesting of the values of entries. -/
def nestingOfEntries : List (Key × Value) → Nat
  | [] => 0
  | (_, value) :: entries => max value.nesting (nestingOfEntries entries)

end

/-- What is inside a value is nested less deep. -/
theorem nesting_lt_of_mem_parts {value part : Value} (member : part ∈ value.parts) :
    part.nesting < value.nesting := by
  cases value with
  | array items =>
    have inside : ∀ items : List Value, part ∈ items → part.nesting ≤ nestingOfItems items := by
      intro items member
      induction items with
      | nil => cases member
      | cons item items ih =>
        rw [nestingOfItems]
        rcases List.mem_cons.1 member with rfl | later
        · exact Nat.le_max_left _ _
        · exact (ih later).trans (Nat.le_max_right _ _)
    exact Nat.lt_succ_of_le (inside items member)
  | object entries =>
    have inside : ∀ entries : List (Key × Value), part ∈ entries.map Prod.snd →
        part.nesting ≤ nestingOfEntries entries := by
      intro entries member
      induction entries with
      | nil => cases member
      | cons entry entries ih =>
        rw [nestingOfEntries]
        rcases List.mem_cons.1 member with rfl | later
        · exact Nat.le_max_left _ _
        · exact (ih later).trans (Nat.le_max_right _ _)
    exact Nat.lt_succ_of_le (inside entries member)
  | _ => cases member

mutual

/-- The value with its integers in the form in which they are read. -/
def narrowed : Value → Value
  | .number value => .number value.narrowed
  | .array items => .array (narrowedItems items)
  | .object entries => .object (narrowedEntries entries)
  | other => other

/-- Items with their integers in the form in which they are read. -/
def narrowedItems : List Value → List Value
  | [] => []
  | item :: items => item.narrowed :: narrowedItems items

/-- Entries with the integers in their values in the form in which they are read. -/
def narrowedEntries : List (Key × Value) → List (Key × Value)
  | [] => []
  | (key, value) :: entries => (key, value.narrowed) :: narrowedEntries entries

end

theorem narrowedItems_eq_map (items : List Value) : narrowedItems items = items.map narrowed := by
  induction items with
  | nil => rfl
  | cons item items ih => rw [narrowedItems, ih, List.map_cons]

theorem narrowedEntries_eq_mapValues (entries : Entries Key Value) :
    narrowedEntries entries = Entries.mapValues narrowed entries := by
  induction entries with
  | nil => rfl
  | cons entry entries ih => rw [narrowedEntries, ih, Entries.mapValues_cons]

/-- JSON has room for the value as it is, but for the forms of integers: no two entries share a
key, keys are texts, and numbers are integers. -/
structure IsExact (value : Value) : Prop where
  wellFormed : value.WellFormed
  textKeys : value.EveryKey fun key => ∃ name, key = .text name
  integers : value.EveryNumber Number.IsInteger

namespace IsExact

theorem of_mem_parts {value part : Value} (exact : value.IsExact) (member : part ∈ value.parts) :
    part.IsExact where
  wellFormed := exact.wellFormed.of_mem_parts member
  textKeys := exact.textKeys.of_mem_parts member
  integers := exact.integers.of_mem_parts member

/-- The keys of an object are spelled differently: they are texts. -/
theorem nodup_names {entries : Entries Key Value} (exact : (object entries).IsExact) :
    (entries.keys.map Key.name).Nodup := by
  refine exact.wellFormed.1.map_on ?_
  intro key member other memberToo same
  obtain ⟨entry, known, rfl⟩ := List.mem_map.1 member
  obtain ⟨entryToo, knownToo, rfl⟩ := List.mem_map.1 memberToo
  obtain ⟨name, isText⟩ := exact.textKeys.of_mem known
  obtain ⟨nameToo, isTextToo⟩ := exact.textKeys.of_mem knownToo
  rw [isText, isTextToo] at same ⊢
  exact congrArg Key.text same

/-- An object and its narrowed form have the same entries in JSON, with the values in JSON. -/
theorem toJson_object {entries : Entries Key Value} (exact : (object entries).IsExact) :
    (object entries).toJson = .object (entries.map fun entry => (entry.1.name, entry.2.toJson)) ∧
      (object entries).narrowed.toJson =
        .object (entries.map fun entry => (entry.1.name, entry.2.narrowed.toJson)) := by
  have names := exact.nodup_names
  refine ⟨toJson_object_of_nodup names, ?_⟩
  have namesToo : ((Entries.mapValues narrowed entries).keys.map Key.name).Nodup :=
    (Entries.keys_mapValues narrowed entries).symm ▸ names
  rw [narrowed, narrowedEntries_eq_mapValues, toJson_object_of_nodup namesToo]
  simp [Entries.mapValues, Function.comp_def]

end IsExact

/-- What is written for a value is read as its narrowed form. By induction on what is inside. -/
theorem IsExact.readsAs {value : Value} (exact : value.IsExact) {depth : Nat}
    (shallow : value.nesting ≤ depth) : Json.ReadsAs depth value.toJson value.narrowed.toJson := by
  induction value using parts_induction generalizing depth with
  | whole value ih =>
    have inside : ∀ {less}, depth = less + 1 → ∀ part ∈ value.parts,
        Json.ReadsAs less part.toJson part.narrowed.toJson := by
      intro less same part member
      have deeper := nesting_lt_of_mem_parts member
      exact ih part member (exact.of_mem_parts member) (by omega)
    cases value with
    | null => exact .null depth
    | bool value => exact .bool depth value
    | text value => exact .text depth value
    | number number =>
      have integer : number.IsInteger := exact.integers
      rw [narrowed, toJson, toJson, (Number.toJson_narrowed integer).1,
        (Number.toJson_narrowed integer).2]
      exact .number depth integer
    | array items =>
      obtain ⟨less, rfl⟩ : ∃ less, depth = less + 1 :=
        ⟨depth - 1, by rw [nesting] at shallow; omega⟩
      rw [narrowed, narrowedItems_eq_map, toJson, toJson, itemsToJson_eq_map, itemsToJson_eq_map,
        List.map_map]
      apply Json.ReadsAs.array
      rw [List.forall₂_map_left_iff, List.forall₂_map_right_iff, List.forall₂_same]
      exact inside rfl
    | object entries =>
      obtain ⟨less, rfl⟩ : ∃ less, depth = less + 1 :=
        ⟨depth - 1, by rw [nesting] at shallow; omega⟩
      rw [exact.toJson_object.1, exact.toJson_object.2]
      apply Json.ReadsAs.object
      · rw [Json.EntriesReadAs, List.forall₂_map_left_iff, List.forall₂_map_right_iff,
          List.forall₂_same]
        exact fun entry member => ⟨rfl, inside rfl entry.2 (List.mem_map_of_mem member)⟩
      · simpa [Entries.keys, Function.comp_def] using exact.nodup_names

theorem itemsOfJson_eq_map (items : List Json) : itemsOfJson items = items.map ofJson := by
  induction items with
  | nil => rfl
  | cons item items ih => rw [itemsOfJson, ih, List.map_cons]

theorem entriesOfJson_eq_map (entries : List (String × Json)) :
    entriesOfJson entries = entries.map fun entry => (.text entry.1, ofJson entry.2) := by
  induction entries with
  | nil => rfl
  | cons entry entries ih => rw [entriesOfJson, ih, List.map_cons]

/-- The narrowed form of a value comes back from JSON. By induction on what is inside. -/
theorem IsExact.ofJson_toJson {value : Value} (exact : value.IsExact) :
    ofJson value.narrowed.toJson = value.narrowed := by
  induction value using parts_induction with
  | whole value ih =>
    have inside : ∀ part ∈ value.parts, ofJson part.narrowed.toJson = part.narrowed :=
      fun part member => ih part member (exact.of_mem_parts member)
    cases value with
    | number number =>
      rw [narrowed, toJson, (Number.toJson_narrowed exact.integers).2, ofJson]
    | array items =>
      rw [narrowed, narrowedItems_eq_map, toJson, itemsToJson_eq_map, ofJson, itemsOfJson_eq_map,
        List.map_map, List.map_map]
      exact congrArg array (List.map_congr_left inside)
    | object entries =>
      rw [exact.toJson_object.2, ofJson, entriesOfJson_eq_map, List.map_map, narrowed,
        narrowedEntries_eq_mapValues]
      refine congrArg object (List.map_congr_left fun entry member => ?_)
      obtain ⟨name, isText⟩ := exact.textKeys.of_mem member
      exact Prod.ext (by simp [isText, Key.name]) (inside entry.2 (List.mem_map_of_mem member))
    | _ => rfl

/-- Items that are changed to equal ones are equal to the items. -/
theorem equalItems_map {change : Value → Value} {items : List Value}
    (each : ∀ item ∈ items, (change item).equal item = true) :
    equalItems (items.map change) items = true := by
  induction items with
  | nil => rfl
  | cons item items ih =>
    have here := each item List.mem_cons_self
    have others := ih fun other member => each other (List.mem_cons_of_mem _ member)
    rw [List.map_cons, equalItems, here, others]
    rfl

/-- The narrowed form of a value equals the value. By induction on what is inside. -/
theorem IsExact.narrowed_equal {value : Value} (exact : value.IsExact) :
    value.narrowed.equal value = true := by
  induction value using parts_induction with
  | whole value ih =>
    have inside : ∀ part ∈ value.parts, part.narrowed.equal part = true :=
      fun part member => ih part member (exact.of_mem_parts member)
    cases value with
    | null => rfl
    | bool value => simp [narrowed, equal]
    | text value => simp [narrowed, equal]
    | number number => exact Number.narrowed_equal exact.integers
    | array items =>
      rw [narrowed, narrowedItems_eq_map, equal]
      exact equalItems_map inside
    | object entries =>
      rw [narrowed, narrowedEntries_eq_mapValues, equal, Bool.and_eq_true]
      refine ⟨by simp [Entries.mapValues], Pairing.equalEntries_iff.2 ?_⟩
      refine List.forall_mem_map.2 fun entry member => ⟨entry.2, ?_, ?_⟩
      · exact Entries.find?_of_mem exact.wellFormed.1 member
      · exact inside entry.2 (List.mem_map_of_mem member)

/-- Narrowing changes no step. -/
theorem child?_narrowed (value : Value) (step : Position.Step) :
    value.narrowed.child? step = (value.child? step).map narrowed := by
  cases value with
  | array items =>
    rw [narrowed, narrowedItems_eq_map]
    cases step with
    | entry key => rfl
    | item number => cases number <;> simp [child?]
  | object entries =>
    rw [narrowed, narrowedEntries_eq_mapValues]
    cases step with
    | entry key => exact Entries.find?_mapValues narrowed key entries
    | item number => rfl
  | _ => rfl

/-- Narrowing changes no position: what is at one is narrowed. -/
theorem at?_narrowed (value : Value) (place : Position) :
    value.narrowed.at? place = (value.at? place).map narrowed := by
  induction place generalizing value with
  | nil => rfl
  | cons step place ih =>
    rw [at?_cons, at?_cons, child?_narrowed]
    cases value.child? step with
    | none => rfl
    | some child => exact ih child

/-- A value whose keys are distinct texts, whose numbers are integers and that is nested less deep
than the limit is read back from its compact text, as JSON and when the format is found out: what
comes back equals the value, and has an object wherever the value has one, with the same keys in
the same order. -/
theorem read_inspect {value : Value} (wellFormed : value.WellFormed)
    (textKeys : value.EveryKey fun key => ∃ name, key = .text name)
    (integers : value.EveryNumber Number.IsInteger) (shallow : value.nesting < 128) (name : String) :
    ∃ again, read .json name value.inspect = .ok again ∧
      read .auto name value.inspect = .ok again ∧
      again.equal value = true ∧
      ∀ place entries, value.at? place = some (.object entries) →
        ∃ others, again.at? place = some (.object others) ∧
          Entries.keys others = Entries.keys entries := by
  have exact : value.IsExact := ⟨wellFormed, textKeys, integers⟩
  have found : Json.read? value.inspect = some value.narrowed.toJson :=
    Json.ReadsAs.read?_compact (exact.readsAs (Nat.le_of_lt_succ shallow))
  refine ⟨value.narrowed, ?_, ?_, exact.narrowed_equal, fun place entries here => ?_⟩
  · simp only [read, found, exact.ofJson_toJson]
  · simp only [read, found, exact.ofJson_toJson]
  · refine ⟨Entries.mapValues narrowed entries, ?_, by simp [Entries.mapValues, Entries.keys]⟩
    rw [at?_narrowed, here, Option.map_some, narrowed, narrowedEntries_eq_mapValues]

/-- Integers at the ends of both forms, one of them unsigned though it fits, and a text and a key
that need escapes. -/
def integersAndEscapes : Value :=
  .object
    [(.text "b", .array [.number (.int Int64.minValue), .number (.int Int64.maxValue),
        .number (.uint 9223372036854775808), .number (.uint 18446744073709551615),
        .number (.uint 0)]),
      (.text "\"\\\n", .text "\t\x01 \u2028\x7f"), (.text "a", .object [])]

/-- Integers at the ends of both forms come back from the compact text of an object, and its keys
come back in their order. -/
theorem read_inspect_integersAndEscapes :
    ∃ again entries, read .json "<input>" integersAndEscapes.inspect = .ok again ∧
      read .auto "<input>" integersAndEscapes.inspect = .ok again ∧
      again.equal integersAndEscapes = true ∧ again = .object entries ∧
      Entries.keys entries = [.text "b", .text "\"\\\n", .text "a"] := by
  have wellFormed : integersAndEscapes.WellFormed := by
    simp [integersAndEscapes, WellFormed, WellFormedItems, WellFormedEntries, Entries.keys]
  have textKeys : integersAndEscapes.EveryKey fun key => ∃ name, key = .text name := by
    simp [integersAndEscapes, EveryKey, EveryKeyOfItems, EveryKeyOfEntries]
  have integers : integersAndEscapes.EveryNumber Number.IsInteger := by
    simp [integersAndEscapes, EveryNumber, EveryNumberOfItems, EveryNumberOfEntries,
      Number.IsInteger]
  have shallow : integersAndEscapes.nesting < 128 := by
    simp [integersAndEscapes, nesting, nestingOfItems, nestingOfEntries]
  obtain ⟨again, asJson, asFound, same, ordered⟩ :=
    read_inspect wellFormed textKeys integers shallow "<input>"
  obtain ⟨entries, here, keys⟩ := ordered [] _ rfl
  exact ⟨again, entries, asJson, asFound, same, Option.some.inj here, keys⟩

end Value

end StructuralDiff
