import Mathlib
import StructuralDiff.Proofs.Canonical
import StructuralDiff.Proofs.KeyIdentity
import StructuralDiff.Proofs.PlainNumbers
import StructuralDiff.Yaml.Value

/-!
# The JSON form of a YAML value

What the compact text of a YAML value leaves of it. `Yaml.Alike` says of two values that they
have one JSON form: tags are dropped, all that is not finite is null, an integer and a floating
number of its value are written alike, and of the entries of a mapping one is left for each
name (`Yaml.visible`); all else is kept. The compact text tells the JSON form and nothing more
(`Yaml.inspect_eq_iff`).
-/

namespace StructuralDiff

namespace Entries

variable {κ α β : Type}

/-- Entries are alike after a change of their values when they have the same keys and the values
are alike after it. -/
theorem mapValues_eq_iff {change : α → β} {entries others : Entries κ α} :
    mapValues change entries = mapValues change others ↔
      keys entries = keys others ∧
        (entries.map Prod.snd).map change = (others.map Prod.snd).map change := by
  have zipped : ∀ entries : Entries κ α, mapValues change entries =
      (keys entries).zip ((entries.map Prod.snd).map change) := by
    intro entries
    rw [keys, List.map_map, List.zip_map']
    rfl
  constructor
  · intro same
    refine ⟨?_, ?_⟩
    · rw [← keys_mapValues change, same, keys_mapValues]
    · simpa [mapValues, Function.comp_def] using congrArg (List.map Prod.snd) same
  · rintro ⟨names, values⟩
    rw [zipped, zipped, names, values]

end Entries

namespace Binary64

/-- Numbers are numerically equal when they are one number other than NaN or both zero. -/
theorem equal_iff {x y : Binary64} :
    x.equal y = true ↔ x.isNaN = false ∧ y.isNaN = false ∧ (x = y ∨ x.isZero ∧ y.isZero) := by
  have bits : x.bits = y.bits ↔ x = y :=
    ⟨fun same => by cases x; cases y; exact congrArg _ same, congrArg Binary64.bits⟩
  simp [equal, bits, and_assoc]

end Binary64

namespace Number

open Binary64

/-- A finite number stands for a value. -/
theorem IsFinite.hasValue {number : Number} (finite : number.IsFinite) : number.HasValue := by
  cases number with
  | int value => trivial
  | uint value => trivial
  | float value =>
    have isFinite : value.isFinite = true := finite
    by_contra isNaN
    have notFinite := isFinite_eq_false_iff.2 (.inl (eq_true_of_ne_false isNaN))
    rw [isFinite] at notFinite
    cases notFinite

/-- Floating numbers are one key of YAML exactly when they have one text. -/
theorem sameNumber_float_iff {left right : Binary64} :
    Yaml.sameNumber (.float left) (.float right) = true ↔
      (Number.float left).text = (Number.float right).text := by
  rw [Yaml.sameNumber, Bool.or_eq_true, Bool.and_eq_true, Binary64.equal_iff]
  constructor
  · rintro (⟨leftNaN, rightNaN⟩ | ⟨-, -, rfl | ⟨leftZero, rightZero⟩⟩)
    · rw [text_of_not_isFinite (isFinite_eq_false_iff.2 (.inl leftNaN)), if_pos leftNaN,
        text_of_not_isFinite (isFinite_eq_false_iff.2 (.inl rightNaN)), if_pos rightNaN]
    · rfl
    · rw [text_of_isZero leftZero, text_of_isZero rightZero]
  · intro same
    by_cases finite : (Number.float left).IsFinite
    · have finiteToo := (isFinite_iff_of_text_eq same).1 finite
      exact .inr ⟨finite.hasValue, finiteToo.hasValue,
        eq_or_isZero_of_signedUnits_eq (signedUnits_eq_of_text_eq finite finiteToo same)⟩
    · have infinite : left.isFinite = false := Bool.eq_false_iff.2 finite
      have infiniteToo : right.isFinite = false :=
        Bool.eq_false_iff.2 fun finiteToo => finite ((isFinite_iff_of_text_eq same).2 finiteToo)
      exact (eq_of_text_eq_of_not_isFinite infinite infiniteToo same).imp_right
        fun ⟨leftValue, rightValue, equal⟩ => ⟨leftValue, rightValue, .inl equal⟩

/-- An integer is written in decimal. -/
theorem exists_integerText {number : Number} (integral : number.isFloat = false) :
    ∃ integer, number.wholeValue = some integer ∧ number.text = Decimal.integerText integer := by
  cases number with
  | int value => exact ⟨value.toInt, rfl, rfl⟩
  | uint value => exact ⟨value.toNat, rfl, Decimal.naturalText_eq _⟩
  | float value => cases integral

/-- Numbers are one key of YAML exactly when they have one form and one text. -/
theorem sameNumber_iff {left right : Number} :
    Yaml.sameNumber left right = true ↔
      left.isFloat = right.isFloat ∧ left.text = right.text := by
  cases form : left.isFloat <;> cases formToo : right.isFloat
  · obtain ⟨integer, whole, written⟩ := exists_integerText form
    obtain ⟨other, wholeToo, writtenToo⟩ := exists_integerText formToo
    have integers : Yaml.sameNumber left right = true ↔ integer = other := by
      cases left <;> cases right <;> cases form <;> cases formToo <;>
        simp [Yaml.sameNumber, whole, wholeToo]
    rw [integers, written, writtenToo]
    exact ⟨fun same => ⟨rfl, same ▸ rfl⟩, fun same => Decimal.integerText_inj same.2⟩
  · cases left <;> cases right <;> cases form <;> cases formToo <;> simp [Yaml.sameNumber]
  · cases left <;> cases right <;> cases form <;> cases formToo <;> simp [Yaml.sameNumber]
  · cases left <;> cases right <;> cases form <;> cases formToo
    simpa using sameNumber_float_iff

/-- Numbers that are one key of YAML are alike in JSON. -/
theorem inspect_eq_of_sameNumber {left right : Number}
    (same : Yaml.sameNumber left right = true) :
    (Value.number left).inspect = (Value.number right).inspect := by
  obtain ⟨forms, texts⟩ := sameNumber_iff.1 same
  by_cases finite : left.IsFinite
  · have finiteToo := (isFinite_iff_of_text_eq texts).1 finite
    rcases written_alike_or_mixed (exact_eq_of_text_eq finite finiteToo forms texts) with
      ⟨-, alike⟩ | ⟨integer, value, mixed⟩
    · exact alike
    · rcases mixed.sides with ⟨rfl, rfl⟩ | ⟨rfl, rfl⟩ <;> cases forms
  · have finiteToo := fun finiteToo => finite ((isFinite_iff_of_text_eq texts).2 finiteToo)
    have leftNull : (Value.number left).IsNullInJson := finite
    have rightNull : (Value.number right).IsNullInJson := finiteToo
    rw [leftNull.inspect_eq, rightNull.inspect_eq]

end Number

namespace Value

theorem itemsOfYaml_eq_map (items : List Yaml) : itemsOfYaml items = items.map ofYaml := by
  induction items with
  | nil => rw [itemsOfYaml, List.map_nil]
  | cons item items ih => rw [itemsOfYaml, ih, List.map_cons]

theorem entriesOfYaml_eq_map (entries : List (Yaml × Yaml)) :
    entriesOfYaml entries = entries.map fun entry => (keyOfYaml entry.1, ofYaml entry.2) := by
  induction entries with
  | nil => rw [entriesOfYaml, List.map_nil]
  | cons entry entries ih => rw [entriesOfYaml, ih, List.map_cons]

end Value

namespace Yaml

open Value (ofYaml keyOfYaml)

/-- The entries of a mapping that are left in its JSON form, where keys that are spelled alike
are one: first the keys meet that become one, and then those of one name. -/
def visible (entries : List (Yaml × Yaml)) : Entries String Yaml :=
  Entries.ofPairs ((Entries.ofPairs (entries.map fun entry => (keyOfYaml entry.1, entry.2))).map
    fun entry => (entry.1.name, entry.2))

/-- Two values have one JSON form. -/
inductive Alike : Yaml → Yaml → Prop
  /-- Tags are dropped. -/
  | tagged {tag left right} (inner : Alike left right) : Alike (.tagged tag left) right
  | taggedToo {tag left right} (inner : Alike left right) : Alike left (.tagged tag right)
  /-- Null itself is null in JSON, and so are the numbers that are not finite. -/
  | nulls {left right} (leftNull : (ofYaml left).IsNullInJson)
      (rightNull : (ofYaml right).IsNullInJson) : Alike left right
  | bool {value} : Alike (.bool value) (.bool value)
  | text {value} : Alike (.text value) (.text value)
  | numbers {number other} (same : sameNumber number other = true) :
      Alike (.number number) (.number other)
  /-- An integer and a floating number of its value, unless the integer is above the signed
  range. -/
  | forms {number other : Number} (forms : number.isFloat ≠ other.isFloat)
      (equal : number.equal other = true)
      (signed : ∀ integer value, ¬ number.Mixed other integer value) :
      Alike (.number number) (.number other)
  | sequences {items others : List Yaml} (lengths : items.length = others.length)
      (inner : ∀ (position : Nat) (first second : Yaml), items[position]? = some first →
        others[position]? = some second → Alike first second) :
      Alike (.sequence items) (.sequence others)
  /-- Of the entries that are left, the names and the values are alike, in their order. -/
  | mappings {entries others : List (Yaml × Yaml)}
      (names : (visible entries).keys = (visible others).keys)
      (inner : ∀ (position : Nat) (first second : Yaml),
        ((visible entries).map Prod.snd)[position]? = some first →
        ((visible others).map Prod.snd)[position]? = some second → Alike first second) :
      Alike (.mapping entries) (.mapping others)

/-- The JSON form of a mapping has the entries that are left. -/
theorem toJson_mapping (entries : List (Yaml × Yaml)) :
    (ofYaml (.mapping entries)).toJson =
      .object (Entries.mapValues (fun value => (ofYaml value).toJson) (visible entries)) := by
  have keyed : Value.entriesOfYaml entries =
      Entries.mapValues ofYaml (entries.map fun entry => (keyOfYaml entry.1, entry.2)) := by
    rw [Value.entriesOfYaml_eq_map, Entries.mapValues, List.map_map]
    rfl
  have named : ∀ others : Entries Key Yaml,
      Value.entriesToJson (Entries.mapValues ofYaml others) =
        Entries.mapValues (fun value => (ofYaml value).toJson)
          (others.map fun entry => (entry.1.name, entry.2)) := by
    intro others
    rw [Value.entriesToJson_eq_map, Entries.mapValues, Entries.mapValues, List.map_map,
      List.map_map]
    rfl
  rw [Value.ofYaml, keyed, Entries.ofPairs_mapValues, Value.toJson, named,
    Entries.ofPairs_mapValues, visible]

/-- The JSON texts of two mappings are alike when the entries that are left have the same names
and values that are alike. -/
theorem inspect_mapping_eq_iff {entries others : List (Yaml × Yaml)} :
    (ofYaml (.mapping entries)).inspect = (ofYaml (.mapping others)).inspect ↔
      (visible entries).keys = (visible others).keys ∧
        ((visible entries).map Prod.snd).map (fun value => (ofYaml value).inspect) =
          ((visible others).map Prod.snd).map fun value => (ofYaml value).inspect := by
  -- The entries that are left are those of an object whose keys are texts.
  let object (entries : List (Yaml × Yaml)) : Entries Key Value :=
    (visible entries).map fun entry => (.text entry.1, ofYaml entry.2)
  have distinct : ∀ entries, ((object entries).keys.map Key.name).Nodup := by
    intro entries
    rw [Entries.keys, List.map_map, List.map_map]
    exact Entries.nodup_keys_ofPairs _
  have written : ∀ entries,
      (ofYaml (.mapping entries)).inspect = (Value.object (object entries)).inspect := by
    intro entries
    rw [Value.inspect, Value.inspect, toJson_mapping, Value.toJson_object_of_nodup (distinct _),
      List.map_map]
    rfl
  rw [← Entries.mapValues_eq_iff, written, written,
    Value.inspect_object_eq_iff (distinct _) (distinct _), List.map_map, List.map_map]
  rfl

/-- The JSON texts of two sequences are alike when their items are alike. -/
theorem inspect_sequence_eq_iff {items others : List Yaml} :
    (ofYaml (.sequence items)).inspect = (ofYaml (.sequence others)).inspect ↔
      items.map (fun item => (ofYaml item).inspect) =
        others.map fun item => (ofYaml item).inspect := by
  rw [Value.ofYaml, Value.ofYaml, Value.inspect_array_eq_iff, Value.itemsOfYaml_eq_map,
    Value.itemsOfYaml_eq_map, List.map_map, List.map_map]
  rfl

/-- Lists are alike after a change when they are as long and alike position by position. -/
theorem map_eq_iff_getElem? {α β : Type} {change : α → β} {items others : List α} :
    items.map change = others.map change ↔ items.length = others.length ∧
      ∀ (position : Nat) (first second : α), items[position]? = some first →
        others[position]? = some second → change first = change second := by
  constructor
  · intro same
    refine ⟨by simpa using congrArg List.length same, fun position first second held heldToo => ?_⟩
    have there := congrArg (fun changed => changed[position]?) same
    simpa [held, heldToo] using there
  · rintro ⟨lengths, alike⟩
    refine List.ext_getElem (by simpa using lengths) fun position inRange inRangeToo => ?_
    rw [List.getElem_map, List.getElem_map]
    rw [List.length_map] at inRange inRangeToo
    exact alike position _ _ (List.getElem?_eq_getElem inRange) (List.getElem?_eq_getElem inRangeToo)

/-- Values that have one JSON form are alike in JSON. -/
theorem Alike.inspect_eq {left right : Yaml} (alike : Alike left right) :
    (ofYaml left).inspect = (ofYaml right).inspect := by
  induction alike with
  | tagged inner ih => rwa [Value.ofYaml]
  | taggedToo inner ih => rwa [Value.ofYaml.eq_def (.tagged _ _)]
  | nulls leftNull rightNull => rw [leftNull.inspect_eq, rightNull.inspect_eq]
  | bool => rfl
  | text => rfl
  | numbers same =>
    rw [Value.ofYaml, Value.ofYaml]
    exact Number.inspect_eq_of_sameNumber same
  | forms forms equal signed =>
    rw [Value.ofYaml, Value.ofYaml]
    rcases Number.written_alike_or_mixed (Number.exact_eq_of_equal equal) with
      ⟨-, alike⟩ | ⟨integer, value, mixed⟩
    · exact alike
    · exact absurd mixed (signed integer value)
  | sequences lengths inner ih =>
    exact inspect_sequence_eq_iff.2 (map_eq_iff_getElem?.2 ⟨lengths, ih⟩)
  | mappings names inner ih =>
    have lengths := congrArg List.length names
    refine inspect_mapping_eq_iff.2 ⟨names, map_eq_iff_getElem?.2 ⟨?_, ih⟩⟩
    simpa [Entries.keys] using lengths

/-- What is left of a mapping is smaller than the mapping. -/
theorem sizeOf_lt_of_mem_visible {entries : List (Yaml × Yaml)} {value : Yaml}
    (member : value ∈ (visible entries).map Prod.snd) :
    sizeOf value < sizeOf (Yaml.mapping entries) := by
  obtain ⟨entry, left, rfl⟩ := List.mem_map.1 member
  obtain ⟨keyed, held, rfl⟩ := List.mem_map.1 (Entries.mem_of_mem_ofPairs left)
  obtain ⟨⟨key, part⟩, known, rfl⟩ := List.mem_map.1 (Entries.mem_of_mem_ofPairs held)
  have smaller := List.sizeOf_lt_of_mem known
  simp only [Prod.mk.sizeOf_spec, mapping.sizeOf_spec] at smaller ⊢
  omega

/-- Finite numbers that are alike in JSON have one JSON form. -/
theorem alike_of_inspect_number_eq {number other : Number} (finite : number.IsFinite)
    (finiteToo : other.IsFinite)
    (same : (Value.number number).inspect = (Value.number other).inspect) :
    Alike (.number number) (.number other) := by
  by_cases forms : number.isFloat = other.isFloat
  · have texts := Number.text_eq_of_inspect_eq finite finiteToo same
    exact .numbers (Number.sameNumber_iff.2 ⟨forms, texts⟩)
  · have exactly := Number.exact_eq_of_inspect_eq finite finiteToo same
    exact .forms forms (Number.equal_of_exact_eq finite.hasValue exactly)
      fun integer value mixed => mixed.inspect_ne same

/-- Values without tags that are alike in JSON and not null there have one JSON form, if that
holds of all smaller values. -/
theorem alike_of_inspect_eq_of_untagged {left right : Yaml}
    (untagged : ∀ tag inner, left ≠ .tagged tag inner)
    (untaggedToo : ∀ tag inner, right ≠ .tagged tag inner)
    (leftNotNull : ¬ (ofYaml left).IsNullInJson) (rightNotNull : ¬ (ofYaml right).IsNullInJson)
    (smaller : ∀ first second : Yaml, sizeOf first < sizeOf left → sizeOf second < sizeOf right →
      (ofYaml first).inspect = (ofYaml second).inspect → Alike first second)
    (same : (ofYaml left).inspect = (ofYaml right).inspect) : Alike left right := by
  have types := Value.typeRank_eq_of_inspect_eq leftNotNull rightNotNull same
  cases left <;> cases right <;> first
    | exact absurd rfl (untagged _ _)
    | exact absurd rfl (untaggedToo _ _)
    | simp [Value.ofYaml, Value.typeRank] at types; done
    | skip
  case null => exact .nulls (by rw [Value.ofYaml]; trivial) (by rw [Value.ofYaml]; trivial)
  case bool value other =>
    rw [Value.ofYaml, Value.ofYaml] at same
    have told : ∀ value other : Bool, (Value.bool value).inspect = (Value.bool other).inspect →
        value = other := by decide
    exact told value other same ▸ .bool
  case number number other =>
    rw [Value.ofYaml] at leftNotNull rightNotNull
    rw [Value.ofYaml, Value.ofYaml] at same
    exact alike_of_inspect_number_eq (not_not.1 leftNotNull) (not_not.1 rightNotNull) same
  case text value other =>
    rw [Value.ofYaml, Value.ofYaml, Value.inspect_eq_iff] at same
    exact Json.textChars_inj same ▸ .text
  case sequence items others =>
    obtain ⟨lengths, alike⟩ := map_eq_iff_getElem?.1 (inspect_sequence_eq_iff.1 same)
    refine .sequences lengths fun position first second held heldToo => ?_
    refine smaller first second ?_ ?_ (alike position first second held heldToo)
    · have known := List.sizeOf_lt_of_mem (List.mem_of_getElem? held)
      simp only [sequence.sizeOf_spec]
      omega
    · have known := List.sizeOf_lt_of_mem (List.mem_of_getElem? heldToo)
      simp only [sequence.sizeOf_spec]
      omega
  case mapping entries others =>
    obtain ⟨names, values⟩ := inspect_mapping_eq_iff.1 same
    obtain ⟨-, alike⟩ := map_eq_iff_getElem?.1 values
    refine .mappings names fun position first second held heldToo => ?_
    refine smaller first second ?_ ?_ (alike position first second held heldToo)
    · exact sizeOf_lt_of_mem_visible (List.mem_of_getElem? held)
    · exact sizeOf_lt_of_mem_visible (List.mem_of_getElem? heldToo)

/-- Values that are alike in JSON have one JSON form. By induction on the sizes of both, since
tags are taken off one at a time. -/
theorem alike_of_inspect_eq {left right : Yaml}
    (same : (ofYaml left).inspect = (ofYaml right).inspect) : Alike left right := by
  induction size : sizeOf left + sizeOf right using Nat.strongRecOn generalizing left right with
  | ind _ ih =>
    subst size
    by_cases isTagged : ∃ tag inner, left = .tagged tag inner
    · obtain ⟨tag, inner, rfl⟩ := isTagged
      rw [Value.ofYaml.eq_def (.tagged tag inner)] at same
      refine .tagged (ih _ ?_ same rfl)
      simp only [tagged.sizeOf_spec]
      omega
    by_cases isTaggedToo : ∃ tag inner, right = .tagged tag inner
    · obtain ⟨tag, inner, rfl⟩ := isTaggedToo
      rw [Value.ofYaml.eq_def (.tagged tag inner)] at same
      refine .taggedToo (ih _ ?_ same rfl)
      simp only [tagged.sizeOf_spec]
      omega
    by_cases leftNull : (ofYaml left).IsNullInJson
    · exact .nulls leftNull
        (Value.isNullInJson_of_inspect_eq (same.symm.trans leftNull.inspect_eq))
    by_cases rightNull : (ofYaml right).IsNullInJson
    · exact absurd (Value.isNullInJson_of_inspect_eq (same.trans rightNull.inspect_eq)) leftNull
    refine alike_of_inspect_eq_of_untagged ?_ ?_ leftNull rightNull ?_ same
    · exact fun tag inner same => isTagged ⟨tag, inner, same⟩
    · exact fun tag inner same => isTaggedToo ⟨tag, inner, same⟩
    · exact fun first second less lessToo alike => ih _ (Nat.add_lt_add less lessToo) alike rfl

/-- Values are alike in JSON exactly when they have one JSON form. -/
theorem inspect_eq_iff {left right : Yaml} :
    (ofYaml left).inspect = (ofYaml right).inspect ↔ Alike left right :=
  ⟨alike_of_inspect_eq, Alike.inspect_eq⟩

end Yaml

end StructuralDiff
