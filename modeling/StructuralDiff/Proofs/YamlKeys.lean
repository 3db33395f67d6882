import Mathlib
import StructuralDiff.Proofs.YamlJsonForm
import StructuralDiff.Proofs.YamlMappings

/-!
# What becomes of the keys of a YAML mapping

A YAML key that is a text stays one, and any other key becomes the text that its value has in
a path. Different keys may meet there: tags are left out, an integer and a floating number may
be written with the same digits, a tagged text has the text of what it spells, and of a
sequence or a mapping there is only the JSON form. `Yaml.Meet` says of two keys that one of
these is so, and it does so exactly of the different keys that become one
(`Yaml.keyOfYaml_eq_iff_meet`). So a mapping with distinct keys keeps all its entries, in their
order, exactly when no two of its keys meet (`Value.ofYaml_keeps_entries`).
-/

namespace StructuralDiff

namespace Entries

variable {κ α : Type} [DecidableEq κ]

/-- Setting pairs one after another leaves fewer entries than pairs when a key is repeated. -/
theorem length_ofPairs_lt {pairs : List (κ × α)} (repeated : ¬ (keys pairs).Nodup) :
    (ofPairs pairs).length < pairs.length := by
  have distinct := nodup_keys_ofPairs pairs
  have known : (ofPairs pairs).keys ⊆ keys pairs := by
    intro key held
    obtain ⟨entry, member, rfl⟩ := List.mem_map.1 held
    exact List.mem_map_of_mem (mem_of_mem_ofPairs member)
  have fewer := List.subperm_of_subset distinct known
  by_contra many
  have lengths : (keys pairs).length ≤ (ofPairs pairs).keys.length := by
    simpa [keys] using many
  exact repeated ((fewer.perm_of_length_le lengths).nodup_iff.1 distinct)

end Entries

namespace Number

/-- The text of a number starts as no other value but a text does. -/
theorem exists_first_of_text (number : Number) :
    ∃ first rest, number.text.toList = first :: rest ∧ Value.typeRankOfFirst first = 2 := by
  by_cases finite : number.IsFinite
  · have some := number.decimal.inPlace_ne_nil
    obtain ⟨first, rest, written⟩ := List.exists_cons_of_ne_nil some
    have known : first.isDigit = true ∨ first = '.' :=
      Decimal.isDigit_or_eq_of_mem_inPlace number.fine_decimal (written ▸ List.mem_cons_self)
    have rank : Value.typeRankOfFirst first = 2 := by
      rcases known with digit | rfl
      · exact Value.typeRankOfFirst_of_isDigit (.inl digit)
      · rfl
    rw [toList_text finite, written]
    split
    · exact ⟨'-', first :: rest, rfl, rfl⟩
    · exact ⟨first, rest, rfl, rank⟩
  · cases number with
    | int value => exact absurd trivial finite
    | uint value => exact absurd trivial finite
    | float value =>
      rw [text_of_not_isFinite (Bool.eq_false_iff.2 finite)]
      split
      · exact ⟨'N', _, rfl, rfl⟩
      · split
        · exact ⟨'-', _, rfl, rfl⟩
        · exact ⟨'i', _, rfl, rfl⟩

end Number

namespace Value

/-- The text of a value in a path starts as the type of the value says, unless it is a text. -/
theorem exists_first_of_segmentText {value : Value} (notText : value.typeRank ≠ 3) :
    ∃ first rest, value.segmentText.toList = first :: rest ∧
      typeRankOfFirst first = value.typeRank := by
  cases value with
  | null => exact ⟨'n', _, rfl, rfl⟩
  | bool value => cases value <;> exact ⟨_, _, rfl, rfl⟩
  | number number => exact number.exists_first_of_text
  | text value => exact absurd rfl notText
  | array items => exact exists_first_of_not_isNullInJson id
  | object entries => exact exists_first_of_not_isNullInJson id

/-- Values other than texts that have one text in a path have one type. -/
theorem typeRank_eq_of_segmentText_eq {left right : Value} (notText : left.typeRank ≠ 3)
    (notTextToo : right.typeRank ≠ 3) (same : left.segmentText = right.segmentText) :
    left.typeRank = right.typeRank := by
  obtain ⟨first, rest, chars, rank⟩ := exists_first_of_segmentText notText
  obtain ⟨firstToo, restToo, charsToo, rankToo⟩ := exists_first_of_segmentText notTextToo
  rw [same, charsToo] at chars
  rw [← rank, ← rankToo, (List.cons.inj chars).1]

theorem keys_entriesOfYaml (entries : List (Yaml × Yaml)) :
    Entries.keys (entriesOfYaml entries) = entries.map fun entry => keyOfYaml entry.1 := by
  rw [entriesOfYaml_eq_map, Entries.keys, List.map_map]
  rfl

end Value

namespace Yaml

open Value (ofYaml keyOfYaml)

/-- A value without the tags around it. -/
def content : Yaml → Yaml
  | .tagged _ value => value.content
  | value => value

/-- A value is a text without a tag, which a key can be as it is. -/
def isText : Yaml → Bool
  | .text _ => true
  | _ => false

/-- The text of a value in a path, which is the name of the key that it becomes. -/
def spelling (value : Yaml) : String := (ofYaml value).segmentText

/-- Nothing is under the tags of the content of a value. -/
theorem content_ne_tagged (value : Yaml) (tag : String) (inner : Yaml) :
    value.content ≠ .tagged tag inner := by
  fun_induction content value with
  | case1 _ value ih => exact ih
  | case2 value untagged => exact untagged tag inner

/-- Tags do not show in a path. -/
theorem spelling_content (value : Yaml) : value.content.spelling = value.spelling := by
  fun_induction content value with
  | case1 _ value ih => rw [ih, spelling, spelling, Value.ofYaml.eq_def (.tagged _ _)]
  | case2 value => rfl

@[simp] theorem spelling_text (value : String) : (Yaml.text value).spelling = value := by
  rw [spelling, Value.ofYaml, Value.segmentText]

@[simp] theorem spelling_number (number : Number) :
    (Yaml.number number).spelling = number.text := by
  rw [spelling, Value.ofYaml, Value.segmentText]

@[simp] theorem spelling_sequence (items : List Yaml) :
    (Yaml.sequence items).spelling = (ofYaml (.sequence items)).inspect := by
  simp [spelling, Value.ofYaml, Value.segmentText]

@[simp] theorem spelling_mapping (entries : List (Yaml × Yaml)) :
    (Yaml.mapping entries).spelling = (ofYaml (.mapping entries)).inspect := by
  simp [spelling, Value.ofYaml, Value.segmentText]

/-- A text stays a text key, and every other key becomes a scalar one. -/
theorem keyOfYaml_eq (key : Yaml) :
    keyOfYaml key = if key.isText then .text key.spelling else .scalar key.spelling := by
  cases key <;> simp [Value.keyOfYaml, Value.ofYaml, isText, spelling, Value.segmentText]

/-- Keys become one when they are spelled alike and both are texts or neither is. -/
theorem keyOfYaml_eq_iff {left right : Yaml} :
    keyOfYaml left = keyOfYaml right ↔
      left.isText = right.isText ∧ left.spelling = right.spelling := by
  rw [keyOfYaml_eq, keyOfYaml_eq]
  cases left.isText <;> cases right.isText <;> simp

/-- Two values without tags have one text in a path. -/
inductive SpelledAlike : Yaml → Yaml → Prop
  | null : SpelledAlike .null .null
  | bool {value} : SpelledAlike (.bool value) (.bool value)
  | numbers {number other} (same : sameNumber number other = true) :
      SpelledAlike (.number number) (.number other)
  /-- An integer and a floating number that are written with the same digits. -/
  | forms {number other} (forms : number.isFloat ≠ other.isFloat)
      (alike : number.text = other.text) : SpelledAlike (.number number) (.number other)
  /-- A text and what it spells. -/
  | text {other : Yaml} : SpelledAlike (.text other.spelling) other
  | textToo {other : Yaml} : SpelledAlike other (.text other.spelling)
  /-- Sequences and mappings are written as in JSON. -/
  | sequences {items others} (alike : Alike (.sequence items) (.sequence others)) :
      SpelledAlike (.sequence items) (.sequence others)
  | mappings {entries others} (alike : Alike (.mapping entries) (.mapping others)) :
      SpelledAlike (.mapping entries) (.mapping others)

/-- Two keys meet: neither is a text without a tag, and without their tags they have one text in
a path. -/
structure Meet (left right : Yaml) : Prop where
  notText : left.isText = false
  notTextToo : right.isText = false
  alike : SpelledAlike left.content right.content

/-- What is neither tagged nor a text becomes no text. -/
theorem typeRank_ne {value : Yaml} (untagged : ∀ tag inner, value ≠ .tagged tag inner)
    (notText : ¬ ∃ content, value = .text content) : (ofYaml value).typeRank ≠ 3 := by
  cases value with
  | text content => exact absurd ⟨content, rfl⟩ notText
  | tagged tag inner => exact absurd rfl (untagged tag inner)
  | _ => simp [Value.ofYaml, Value.typeRank]

/-- Values without tags that have one text in a path are spelled alike. -/
theorem spelledAlike_of_spelling_eq {left right : Yaml}
    (untagged : ∀ tag inner, left ≠ .tagged tag inner)
    (untaggedToo : ∀ tag inner, right ≠ .tagged tag inner)
    (same : left.spelling = right.spelling) : SpelledAlike left right := by
  by_cases isText : ∃ value, left = .text value
  · obtain ⟨value, rfl⟩ := isText
    rw [spelling_text] at same
    exact same ▸ .text
  by_cases isTextToo : ∃ value, right = .text value
  · obtain ⟨value, rfl⟩ := isTextToo
    rw [spelling_text] at same
    exact same ▸ .textToo
  have types := Value.typeRank_eq_of_segmentText_eq (typeRank_ne untagged isText)
    (typeRank_ne untaggedToo isTextToo) same
  cases left <;> cases right <;> first
    | exact absurd rfl (untagged _ _)
    | exact absurd rfl (untaggedToo _ _)
    | simp [Value.ofYaml, Value.typeRank] at types; done
    | skip
  case null => exact .null
  case bool value other =>
    rw [spelling, Value.ofYaml, spelling, Value.ofYaml] at same
    have told : ∀ value other : Bool,
        (Value.bool value).segmentText = (Value.bool other).segmentText → value = other := by
      decide
    exact told value other same ▸ .bool
  case number number other =>
    rw [spelling_number, spelling_number] at same
    by_cases forms : number.isFloat = other.isFloat
    · exact .numbers (Number.sameNumber_iff.2 ⟨forms, same⟩)
    · exact .forms forms same
  case text value other => exact absurd ⟨value, rfl⟩ isText
  case sequence items others =>
    rw [spelling_sequence, spelling_sequence] at same
    exact .sequences (inspect_eq_iff.1 same)
  case mapping entries others =>
    rw [spelling_mapping, spelling_mapping] at same
    exact .mappings (inspect_eq_iff.1 same)

/-- Values that are spelled alike have one text in a path. -/
theorem SpelledAlike.spelling_eq {left right : Yaml} (alike : SpelledAlike left right) :
    left.spelling = right.spelling := by
  cases alike with
  | null => rfl
  | bool => rfl
  | numbers same => simpa using (Number.sameNumber_iff.1 same).2
  | forms forms alike => simpa using alike
  | text => exact spelling_text _
  | textToo => exact (spelling_text _).symm
  | sequences alike => simpa using inspect_eq_iff.2 alike
  | mappings alike => simpa using inspect_eq_iff.2 alike

/-- Different keys become one exactly when they meet. -/
theorem keyOfYaml_eq_iff_meet {left right : Yaml} (different : left.same right = false) :
    keyOfYaml left = keyOfYaml right ↔ Meet left right := by
  have spelled : left.spelling = right.spelling ↔ SpelledAlike left.content right.content := by
    rw [← spelling_content left, ← spelling_content right]
    exact ⟨spelledAlike_of_spelling_eq left.content_ne_tagged right.content_ne_tagged,
      SpelledAlike.spelling_eq⟩
  rw [keyOfYaml_eq_iff, spelled]
  constructor
  · rintro ⟨texts, alike⟩
    have notText : left.isText = false := by
      by_contra isText
      rw [Bool.not_eq_false] at isText
      -- Texts that are spelled alike are the same.
      have equal : left.same right = true := by
        cases left <;> cases isText
        cases right <;> cases texts
        simpa [same, content] using alike.spelling_eq
      rw [different] at equal
      cases equal
    exact ⟨notText, texts ▸ notText, alike⟩
  · intro meet
    exact ⟨meet.notText.trans meet.notTextToo.symm, meet.alike⟩

end Yaml

namespace Value

open Yaml

/-- A mapping of a YAML value with distinct keys becomes an object with all the entries in their
order and as many keys, if no two of the keys meet. If two keys meet, some entry is lost. -/
theorem ofYaml_keeps_entries {yaml : Yaml} (distinct : yaml.DistinctKeys)
    {entries : List (Yaml × Yaml)} (held : entries ∈ yaml.mappings) :
    ((entries.Pairwise fun first second => ¬ Meet first.1 second.1) →
      ofYaml (.mapping entries) =
          .object (entries.map fun entry => (keyOfYaml entry.1, ofYaml entry.2)) ∧
        (entries.map fun entry => keyOfYaml entry.1).Nodup) ∧
    ((¬ entries.Pairwise fun first second => ¬ Meet first.1 second.1) →
      ∃ kept, ofYaml (.mapping entries) = .object kept ∧ kept.length < entries.length) := by
  have meetless : (Entries.keys (entriesOfYaml entries)).Nodup ↔
      entries.Pairwise fun first second => ¬ Meet first.1 second.1 := by
    rw [keys_entriesOfYaml, List.Nodup, List.pairwise_map]
    constructor
    · intro apart
      refine (apart.and (distinct entries held)).imp fun ⟨unequal, different⟩ meet => ?_
      exact unequal ((keyOfYaml_eq_iff_meet different).2 meet)
    · intro apart
      refine (apart.and (distinct entries held)).imp fun ⟨never, different⟩ equal => ?_
      exact never ((keyOfYaml_eq_iff_meet different).1 equal)
  rw [← meetless, ofYaml, ← entriesOfYaml_eq_map]
  constructor
  · intro keys
    rw [Entries.ofPairs_of_nodup keys]
    exact ⟨rfl, keys_entriesOfYaml entries ▸ keys⟩
  · intro repeated
    refine ⟨_, rfl, ?_⟩
    simpa [entriesOfYaml_eq_map] using Entries.length_ofPairs_lt repeated

/-- A number, its text and a sequence with it, as keys. -/
def keysOfThreeTypes : List (Yaml × Yaml) :=
  [(.number (.int 0), .text "a"), (.text "0", .text "b"),
    (.sequence [.number (.int 0)], .text "c")]

/-- An integer and a floating number of one value, as keys. -/
def keysOfTwoForms : List (Yaml × Yaml) :=
  [(.number (.int 0), .text "a"), (.number (.float ⟨0⟩), .text "b")]

theorem read_keysOfTwoForms :
    Yaml.read? "0: a\n0.0: b\n" = some (.mapping keysOfTwoForms) := by
  cbv

/-- A mapping with keys of three types keeps all its entries, and one with two numbers of one
text loses one. -/
theorem ofYaml_keeps_entries_ofThreeTypes :
    (Yaml.read? "0: a\n\"0\": b\n[0]: c\n" = some (.mapping keysOfThreeTypes) ∧
      ofYaml (.mapping keysOfThreeTypes) =
        .object [(.scalar "0", .text "a"), (.text "0", .text "b"), (.scalar "[0]", .text "c")]) ∧
    ∃ kept, ofYaml (.mapping keysOfTwoForms) = .object kept ∧ kept.length < 2 := by
  have read : Yaml.read? "0: a\n\"0\": b\n[0]: c\n" = some (.mapping keysOfThreeTypes) := by
    cbv
  have apart : keysOfThreeTypes.Pairwise fun first second => ¬ Meet first.1 second.1 := by
    simp only [keysOfThreeTypes, List.pairwise_cons, List.forall_mem_cons, List.not_mem_nil,
      false_imp_iff, implies_true, and_true, List.Pairwise.nil]
    refine ⟨⟨?_, ?_⟩, ?_⟩
    · exact fun meet => Bool.noConfusion meet.notTextToo
    · rintro ⟨-, -, alike⟩
      cases alike
    · exact fun meet => Bool.noConfusion meet.notText
  have meet : Meet (.number (.int 0)) (.number (.float ⟨0⟩)) :=
    ⟨rfl, rfl, .forms (by decide) (by cbv)⟩
  constructor
  · refine ⟨read, ?_⟩
    rw [((ofYaml_keeps_entries (distinctKeys_of_read? read) List.mem_cons_self).1 apart).1]
    cbv
  · have distinct := distinctKeys_of_read? read_keysOfTwoForms
    refine (ofYaml_keeps_entries distinct List.mem_cons_self).2 fun apart => ?_
    exact (List.pairwise_cons.1 apart).1 _ List.mem_cons_self meet

/-- An integer and a floating number of one value are two keys of YAML and one key of the
document, so the entry of the first is lost. -/
theorem ofYaml_loses_entry :
    Yaml.read? "0: a\n0.0: b\n" = some (.mapping keysOfTwoForms) ∧
      (Yaml.mapping keysOfTwoForms).DistinctKeys ∧ keysOfTwoForms.length = 2 ∧
      ofYaml (.mapping keysOfTwoForms) = .object [(.scalar "0", .text "b")] :=
  ⟨read_keysOfTwoForms, distinctKeys_of_read? read_keysOfTwoForms, rfl, by cbv⟩

end Value

end StructuralDiff
