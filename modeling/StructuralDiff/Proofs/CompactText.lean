import Mathlib
import StructuralDiff.Proofs.KeyText

/-!
# What the compact text of a container tells

The compact text of a JSON value ends where the value does: what follows it begins with a
comma or a closing bracket, and no number or word holds one of these. So two values whose
texts are followed by something are told apart from what follows them
(`Json.eq_of_append_eq`), and the text of an array or an object tells the texts of what is
inside it, one after another (`Value.inspect_array_eq_iff`, `Value.inspect_object_eq_iff`).
-/

namespace StructuralDiff

namespace Decimal

/-- What a decimal is written with in JSON, besides digits. -/
def writtenMarks : List Char := ['.', 'e', '+', '-']

/-- A decimal in JSON has digits, a point, and a power of ten with its sign. -/
theorem isDigit_or_mem_of_mem_write {decimal : Decimal} (fine : -1074 ≤ decimal.exponent)
    {char : Char} (member : char ∈ decimal.write Json.floatLayout) :
    char.isDigit = true ∨ char ∈ writtenMarks := by
  unfold write at member
  split at member
  · obtain ⟨front, back, pointed⟩ := exists_pointed fine
    have member : char ∈ decimal.inPlace true := member
    rw [pointed.text, List.mem_append, List.mem_cons] at member
    rcases member with before | rfl | behind
    · exact .inl (pointed.digits char (List.mem_append_left _ before))
    · exact .inr (by decide)
    · exact .inl (pointed.digits char (List.mem_append_right _ behind))
  · have member : char ∈ decimal.scientific true := member
    rw [scientific_eq, List.mem_append, List.mem_cons, signedPower, List.mem_append] at member
    rcases member with mantissa | rfl | sign | digit
    · rcases isDigit_or_eq_of_mem_mantissa mantissa with digit | rfl
      · exact .inl digit
      · exact .inr (by decide)
    · exact .inr (by decide)
    · split at sign <;> cases List.mem_singleton.1 sign <;> exact .inr (by decide)
    · exact .inl (Nat.isDigit_of_mem_toDigits (by decide) (by decide) digit)

end Decimal

namespace Json

/-! ## Where a text ends -/

/-- The characters around which texts, arrays and objects are written. -/
def marks : List Char := ['"', ',', '[', ']', '\x7b', '\x7d']

/-- Nothing follows, or something that cannot go on with a number or a word. -/
def Stops (rest : List Char) : Prop :=
  ∀ first ∈ rest.head?, first = ',' ∨ first = ']' ∨ first = '\x7d'

/-- A value is null, a truth value or a number. -/
def IsBare : Json → Prop
  | .null | .bool _ | .number _ => True
  | _ => False

/-- What holds of bare values and of texts, and of a container as soon as it holds of all that
is inside it, holds of every value. -/
@[elab_as_elim]
theorem parts_induction {motive : Json → Prop} (bare : ∀ json, json.IsBare → motive json)
    (text : ∀ value, motive (.text value))
    (array : ∀ items, (∀ item ∈ items, motive item) → motive (.array items))
    (object : ∀ entries : List (String × Json), (∀ entry ∈ entries, motive entry.2) →
      motive (.object entries)) (json : Json) : motive json := by
  induction size : sizeOf json using Nat.strongRecOn generalizing json with
  | ind _ ih =>
    subst size
    cases json with
    | text value => exact text value
    | array items =>
      refine array items fun item member => ih _ ?_ item rfl
      have smaller := List.sizeOf_lt_of_mem member
      simp only [Json.array.sizeOf_spec]
      omega
    | object entries =>
      refine object entries fun ⟨name, value⟩ member => ih _ ?_ value rfl
      have smaller := List.sizeOf_lt_of_mem member
      simp only [Prod.mk.sizeOf_spec, Json.object.sizeOf_spec] at smaller ⊢
      omega
    | _ => exact bare _ trivial

/-- A character of a number or of the word for null or a truth value. -/
def isWordChar (char : Char) : Bool :=
  char.isAlphanum || Decimal.writtenMarks.contains char

theorem isWordChar_of_isDigit {char : Char} (digit : char.isDigit = true) :
    isWordChar char = true := by
  simp [isWordChar, Char.isAlphanum, digit]

/-- The characters of a word are printed characters of ASCII. -/
theorem printed_of_isWordChar {char : Char} (inWord : isWordChar char = true) :
    0x20 < char.toNat ∧ char.toNat < 0x7F := by
  have marks : ∀ mark ∈ Decimal.writtenMarks, 0x20 < mark.toNat ∧ mark.toNat < 0x7F := by
    simp [Decimal.writtenMarks]
  simp only [isWordChar, Char.isAlphanum, Char.isAlpha, Char.isUpper, Char.isLower, Char.isDigit,
    Bool.or_eq_true, Bool.and_eq_true, decide_eq_true_eq, List.contains_eq_mem,
    UInt32.le_iff_toNat_le, ge_iff_le] at inWord
  rcases inWord with alphanumeric | mark
  · simp only [Char.reduceVal, UInt32.reduceToNat, Char.toNat_val] at alphanumeric
    omega
  · exact marks char mark

/-- No mark is part of a word. -/
theorem notMem_marks_of_isWordChar {char : Char} (inWord : isWordChar char = true) :
    char ∉ marks := by
  have none : ∀ mark ∈ marks, isWordChar mark = false := by simp [marks]; decide
  intro member
  rw [none char member] at inWord
  cases inWord

/-- An integer is a word. -/
theorem isWordChar_of_mem_integerChars {integer : Int} {char : Char}
    (member : char ∈ Decimal.integerChars integer) : isWordChar char = true := by
  have written : char ∈ (Decimal.integerText integer).toList := by
    rwa [Decimal.integerText, String.toList_ofList]
  rcases Number.isDigit_or_eq_of_mem_integerText written with digit | rfl
  · exact isWordChar_of_isDigit digit
  · decide

/-- The text of a bare value is a word. -/
theorem IsBare.isWord {json : Json} (bare : json.IsBare) :
    json.compactChars ≠ [] ∧ ∀ char ∈ json.compactChars, isWordChar char = true := by
  have letters : ∀ word : List Char, word ≠ [] → word.all isWordChar = true →
      word ≠ [] ∧ ∀ char ∈ word, isWordChar char = true := by
    intro word some each
    exact ⟨some, List.all_eq_true.1 each⟩
  cases json with
  | null => exact letters _ (by decide) (by simp [compactChars]; decide)
  | bool value =>
    cases value <;> exact letters _ (by decide) (by simp [compactChars, boolChars]; decide)
  | text value => cases bare
  | array items => cases bare
  | object entries => cases bare
  | number number =>
    simp only [compactChars]
    cases number with
    | int value =>
      exact ⟨by simp [numberChars, Decimal.integerChars, Nat.toDigits_ne_nil],
        fun _ => isWordChar_of_mem_integerChars⟩
    | uint value =>
      refine ⟨by simp [numberChars, Nat.toDigits_ne_nil], fun char member => ?_⟩
      exact isWordChar_of_isDigit (Nat.isDigit_of_mem_toDigits (by decide) (by decide) member)
    | float value =>
      simp only [numberChars]
      split
      · rw [Binary64.toList_write]
        have fine := Decimal.fine_shortest value
        obtain ⟨digit, rest, written, -⟩ := Decimal.exists_digit_of_write fine
        refine ⟨by simp [written], fun char member => ?_⟩
        rcases List.mem_append.1 member with sign | member
        · split at sign
          · cases List.mem_singleton.1 sign
            decide
          · cases sign
        · rcases Decimal.isDigit_or_mem_of_mem_write fine member with digit | mark
          · exact isWordChar_of_isDigit digit
          · simp [isWordChar, mark]
      · exact letters _ (by decide) (by simp; decide)

/-- The text of a bare value has a first character, and no marks. -/
theorem IsBare.clear {json : Json} (bare : json.IsBare) :
    json.compactChars ≠ [] ∧ ∀ char ∈ json.compactChars, char ∉ marks := by
  obtain ⟨some, word⟩ := bare.isWord
  exact ⟨some, fun char member => notMem_marks_of_isWordChar (word char member)⟩

/-- A bare value does not begin with a mark. -/
theorem IsBare.first_notMem {json : Json} (bare : json.IsBare) {rest others : List Char}
    {first : Char} (same : json.compactChars ++ rest = first :: others) : first ∉ marks := by
  obtain ⟨some, clear⟩ := bare.clear
  obtain ⟨char, chars, written⟩ := List.exists_cons_of_ne_nil some
  rw [written, List.cons_append] at same
  obtain ⟨rfl, -⟩ := List.cons.inj same
  exact clear char (by rw [written]; exact List.mem_cons_self)

/-- Bare values end at the first mark. -/
theorem IsBare.eq_of_append_eq {first second : Json} (bare : first.IsBare)
    (bareToo : second.IsBare) {rest restToo : List Char} (stops : Stops rest)
    (stopsToo : Stops restToo)
    (same : first.compactChars ++ rest = second.compactChars ++ restToo) : rest = restToo := by
  have ends : ∀ {json : Json} {rest : List Char}, json.IsBare → Stops rest →
      (json.compactChars ++ rest).dropWhile (· ∉ marks) = rest := by
    intro json rest bare stops
    rw [List.dropWhile_append_of_pos (by simpa using bare.clear.2)]
    cases rest with
    | nil => rfl
    | cons first rest =>
      have mark : first ∈ marks := by
        rcases stops first rfl with rfl | rfl | rfl <;> decide
      rw [List.dropWhile_cons_of_neg (by simpa using mark)]
  rw [← ends bare stops, same, ends bareToo stopsToo]

/-- What is written for a text tells the text and what follows. -/
theorem textChars_append_inj {left right : String} {rest restToo : List Char}
    (same : textChars left ++ rest = textChars right ++ restToo) :
    left = right ∧ rest = restToo := by
  have written : left.toList.flatMap escapedChar ++ '"' :: rest =
      right.toList.flatMap escapedChar ++ '"' :: restToo := by
    simpa [textChars] using same
  have read := readText_written left rest
  rw [written, readText_written right restToo] at read
  simpa [eq_comm] using read

/-! ## Words between commas -/

/-- What is written behind a word in front of others. -/
def afterWord : List (List Char) → List Char
  | [] => []
  | words => ',' :: [','].intercalate words

theorem intercalate_cons (word : List Char) (words : List (List Char)) :
    [','].intercalate (word :: words) = word ++ afterWord words := by
  cases words with
  | nil => simp [afterWord]
  | cons next words =>
    rw [List.intercalate_cons_cons, List.append_assoc]
    rfl

/-- Words between commas, up to a closing mark, tell each word and what follows, if none
begins with the mark and each is told from what follows it. -/
theorem eq_of_intercalate_eq {words others : List (List Char)} {close : Char}
    {rest restToo : List Char} (closes : close = ']' ∨ close = '\x7d')
    (told : ∀ word ∈ words, ∀ other ∈ others, ∀ rest restToo, Stops rest → Stops restToo →
      word ++ rest = other ++ restToo → rest = restToo)
    (begins : ∀ word ∈ words ++ others, ∃ first chars, word = first :: chars ∧ first ≠ close)
    (same : [','].intercalate words ++ close :: rest =
      [','].intercalate others ++ close :: restToo) : words = others ∧ rest = restToo := by
  have noComma : close ≠ ',' := by rcases closes with rfl | rfl <;> decide
  have stops : ∀ words rest, Stops (afterWord words ++ close :: rest) := by
    intro words rest
    cases words with
    | nil =>
      rintro first ⟨⟩
      exact .inr closes
    | cons word words =>
      rintro first ⟨⟩
      exact .inl rfl
  induction words generalizing others with
  | nil =>
    cases others with
    | nil => exact ⟨rfl, (List.cons.inj same).2⟩
    | cons other others =>
      obtain ⟨first, chars, rfl, different⟩ := begins other (by simp)
      rw [intercalate_cons] at same
      exact absurd (List.cons.inj same).1.symm different
  | cons word words ih =>
    cases others with
    | nil =>
      obtain ⟨first, chars, rfl, different⟩ := begins word (by simp)
      rw [intercalate_cons] at same
      exact absurd (List.cons.inj same).1 different
    | cons other others =>
      rw [intercalate_cons, intercalate_cons, List.append_assoc, List.append_assoc] at same
      have behind := told word List.mem_cons_self other List.mem_cons_self _ _ (stops words rest)
        (stops others restToo) same
      rw [behind, List.append_left_inj] at same
      subst same
      have onward : [','].intercalate words ++ close :: rest =
          [','].intercalate others ++ close :: restToo := by
        cases words with
        | nil =>
          cases others with
          | nil => exact behind
          | cons next others => exact absurd (List.cons.inj behind).1 noComma
        | cons next words =>
          cases others with
          | nil => exact absurd (List.cons.inj behind).1.symm noComma
          | cons nextToo others => exact (List.cons.inj behind).2
      obtain ⟨rfl, same⟩ := ih
        (fun word member other known =>
          told word (List.mem_cons_of_mem _ member) other (List.mem_cons_of_mem _ known))
        (fun word member => begins word (by grind)) onward
      exact ⟨rfl, same⟩

/-- An entry as it is written. -/
def entryChars (entry : String × Json) : List Char :=
  textChars entry.1 ++ ':' :: entry.2.compactChars

/-- What puts a separator between one item and the next joins the parts of the items. -/
theorem eq_intercalate {α β : Type} {whole : List α → List β} {part : α → List β}
    {separator : List β} (nil : whole [] = []) (single : ∀ item, whole [item] = part item)
    (more : ∀ item next items,
      whole (item :: next :: items) = part item ++ (separator ++ whole (next :: items)))
    (items : List α) : whole items = separator.intercalate (items.map part) := by
  induction items with
  | nil => exact nil
  | cons item items ih =>
    cases items with
    | nil => simp [single]
    | cons next items =>
      rw [more, ih]
      simp only [List.map_cons, List.intercalate_cons_cons, List.append_assoc]

/-- Items are written with commas between them. -/
theorem compactItems_eq (items : List Json) :
    compactItems items = [','].intercalate (items.map compactChars) :=
  eq_intercalate rfl (fun _ => rfl) (fun _ _ _ => rfl) items

/-- Entries are written with commas between them. -/
theorem compactEntries_eq (entries : List (String × Json)) :
    compactEntries entries = [','].intercalate (entries.map entryChars) :=
  eq_intercalate rfl (fun _ => rfl) (fun _ _ _ => by simp [compactEntries]) entries

/-- A JSON text has a first character, which closes nothing. -/
theorem exists_first_compactChars (json : Json) :
    ∃ first chars, json.compactChars = first :: chars ∧ first ≠ ']' ∧ first ≠ '\x7d' := by
  have shown : json.IsBare →
      ∃ first chars, json.compactChars = first :: chars ∧ first ≠ ']' ∧ first ≠ '\x7d' := by
    intro bare
    obtain ⟨some, clear⟩ := bare.clear
    obtain ⟨first, chars, written⟩ := List.exists_cons_of_ne_nil some
    have noMark := clear first (by rw [written]; exact List.mem_cons_self)
    refine ⟨first, chars, written, ?_, ?_⟩ <;> rintro rfl <;> exact noMark (by simp [marks])
  cases json with
  | text value => exact ⟨'"', _, rfl, by decide, by decide⟩
  | array items => exact ⟨'[', _, rfl, by decide, by decide⟩
  | object entries => exact ⟨'\x7b', _, rfl, by decide, by decide⟩
  | _ => exact shown trivial

/-- What is not bare begins with a mark. -/
theorem exists_mark_of_not_isBare {json : Json} (notBare : ¬ json.IsBare) :
    ∃ mark chars, json.compactChars = mark :: chars ∧ mark ∈ marks := by
  cases json with
  | text value => exact ⟨'"', _, rfl, by simp [marks]⟩
  | array items => exact ⟨'[', _, rfl, by simp [marks]⟩
  | object entries => exact ⟨'\x7b', _, rfl, by simp [marks]⟩
  | _ => exact absurd trivial notBare

/-- A value is told from what follows it, whatever the value is. -/
def EndsAlike (json : Json) : Prop :=
  ∀ (other : Json) (rest restToo : List Char), Stops rest → Stops restToo →
    json.compactChars ++ rest = other.compactChars ++ restToo → rest = restToo

/-- Items up to a closing bracket tell their texts and what follows. -/
theorem compactItems_append_inj {items others : List Json} {rest restToo : List Char}
    (told : ∀ item ∈ items, item.EndsAlike)
    (same : compactItems items ++ ']' :: rest = compactItems others ++ ']' :: restToo) :
    items.map compactChars = others.map compactChars ∧ rest = restToo := by
  rw [compactItems_eq, compactItems_eq] at same
  refine eq_of_intercalate_eq (.inl rfl) ?_ ?_ same
  · intro word member other known
    obtain ⟨item, inItems, rfl⟩ := List.mem_map.1 member
    obtain ⟨otherItem, -, rfl⟩ := List.mem_map.1 known
    exact told item inItems otherItem
  · intro word member
    rw [← List.map_append] at member
    obtain ⟨item, -, rfl⟩ := List.mem_map.1 member
    obtain ⟨first, chars, written, open_, -⟩ := exists_first_compactChars item
    exact ⟨first, chars, written, open_⟩

/-- Entries up to a closing brace tell their names, their texts and what follows. -/
theorem compactEntries_append_inj {entries others : List (String × Json)}
    {rest restToo : List Char} (told : ∀ entry ∈ entries, entry.2.EndsAlike)
    (same : compactEntries entries ++ '\x7d' :: rest =
      compactEntries others ++ '\x7d' :: restToo) :
    entries.map entryChars = others.map entryChars ∧ rest = restToo := by
  rw [compactEntries_eq, compactEntries_eq] at same
  refine eq_of_intercalate_eq (.inr rfl) ?_ ?_ same
  · intro word member other known rest restToo stops stopsToo same
    obtain ⟨entry, inEntries, rfl⟩ := List.mem_map.1 member
    obtain ⟨otherEntry, -, rfl⟩ := List.mem_map.1 known
    rw [entryChars, entryChars, List.append_assoc, List.append_assoc] at same
    have values := (List.cons.inj (textChars_append_inj same).2).2
    exact told entry inEntries otherEntry.2 rest restToo stops stopsToo values
  · intro word member
    rw [← List.map_append] at member
    obtain ⟨entry, -, rfl⟩ := List.mem_map.1 member
    exact ⟨'"', _, rfl, by decide⟩

/-- What starts as a bare value does is bare. -/
theorem isBare_of_append_eq {json other : Json} {rest restToo : List Char}
    (same : json.compactChars ++ rest = other.compactChars ++ restToo) (bare : json.IsBare) :
    other.IsBare := by
  by_contra notBare
  obtain ⟨mark, chars, written, isMark⟩ := exists_mark_of_not_isBare notBare
  rw [written] at same
  exact bare.first_notMem same isMark

/-- Every value is told from what follows it. By induction on what is inside: a bare value ends
at the first mark, a text at its closing quote, and a container behind what is inside it. -/
theorem endsAlike (json : Json) : json.EndsAlike := by
  induction json using parts_induction with
  | bare json bare =>
    intro other rest restToo stops stopsToo same
    exact bare.eq_of_append_eq (isBare_of_append_eq same bare) stops stopsToo same
  | text value =>
    intro other rest restToo stops stopsToo same
    cases other with
    | text otherValue => exact (textChars_append_inj same).2
    | array others => cases (List.cons.inj same).1
    | object others => cases (List.cons.inj same).1
    | _ => cases isBare_of_append_eq same.symm trivial
  | array items ih =>
    intro other rest restToo stops stopsToo same
    cases other with
    | array others =>
      have inside : compactItems items ++ ']' :: rest = compactItems others ++ ']' :: restToo := by
        simpa [compactChars] using same
      exact (compactItems_append_inj ih inside).2
    | text otherValue => cases (List.cons.inj same).1
    | object others => cases (List.cons.inj same).1
    | _ => cases isBare_of_append_eq same.symm trivial
  | object entries ih =>
    intro other rest restToo stops stopsToo same
    cases other with
    | object others =>
      have inside : compactEntries entries ++ '\x7d' :: rest =
          compactEntries others ++ '\x7d' :: restToo := by
        simpa [compactChars] using same
      exact (compactEntries_append_inj ih inside).2
    | text otherValue => cases (List.cons.inj same).1
    | array others => cases (List.cons.inj same).1
    | _ => cases isBare_of_append_eq same.symm trivial

end Json

namespace Value

/-- Values are alike in JSON when their compact texts are. -/
theorem inspect_eq_iff {left right : Value} :
    left.inspect = right.inspect ↔ left.toJson.compactChars = right.toJson.compactChars := by
  rw [inspect, inspect, Json.compact, Json.compact, String.ofList_inj]

theorem itemsToJson_eq_map (items : List Value) : itemsToJson items = items.map toJson := by
  induction items with
  | nil => rfl
  | cons item items ih => rw [itemsToJson, ih, List.map_cons]

theorem entriesToJson_eq_map (entries : Entries Key Value) :
    entriesToJson entries = entries.map fun entry => (entry.1.name, entry.2.toJson) := by
  induction entries with
  | nil => rfl
  | cons entry entries ih => rw [entriesToJson, ih, List.map_cons]

/-- Texts of the same characters are the same. -/
theorem ofList_injective : Function.Injective String.ofList := fun _ _ same =>
  String.ofList_inj.1 same

/-- The compact text of an array tells those of its items. -/
theorem inspect_array_eq_iff {items others : List Value} :
    (array items).inspect = (array others).inspect ↔
      items.map inspect = others.map inspect := by
  have texts : ∀ items : List Value, items.map inspect =
      ((itemsToJson items).map Json.compactChars).map String.ofList := by
    intro items
    rw [itemsToJson_eq_map, List.map_map, List.map_map]
    rfl
  rw [inspect_eq_iff, texts, texts, (List.map_injective_iff.2 ofList_injective).eq_iff]
  simp only [toJson, Json.compactChars]
  constructor
  · intro same
    exact (Json.compactItems_append_inj (fun item _ => item.endsAlike) (List.cons.inj same).2).1
  · intro same
    rw [Json.compactItems_eq, Json.compactItems_eq, same]

/-- An object whose keys are spelled differently has the same entries in JSON. -/
theorem toJson_object_of_nodup {entries : Entries Key Value}
    (distinct : (entries.keys.map Key.name).Nodup) :
    (object entries).toJson =
      .object (entries.map fun entry => (entry.1.name, entry.2.toJson)) := by
  have names : Entries.keys (entriesToJson entries) = entries.keys.map Key.name := by
    rw [entriesToJson_eq_map, Entries.keys, Entries.keys, List.map_map, List.map_map]
    rfl
  rw [toJson, Entries.ofPairs_of_nodup (names ▸ distinct), entriesToJson_eq_map]

/-- The compact text of an object whose keys are spelled differently tells the keys' names and
the texts of the values, in their order. -/
theorem inspect_object_eq_iff {entries others : Entries Key Value}
    (distinct : (entries.keys.map Key.name).Nodup)
    (distinctToo : (others.keys.map Key.name).Nodup) :
    (object entries).inspect = (object others).inspect ↔
      entries.map (fun entry => (entry.1.name, entry.2.inspect)) =
        others.map fun entry => (entry.1.name, entry.2.inspect) := by
  have written : Function.Injective fun entry : String × String =>
      Json.textChars entry.1 ++ ':' :: entry.2.toList := by
    rintro ⟨name, text⟩ ⟨other, otherText⟩ same
    obtain ⟨rfl, texts⟩ := Json.textChars_append_inj same
    exact congrArg (name, ·) (String.toList_inj.1 (List.cons.inj texts).2)
  have texts : ∀ entries : Entries Key Value,
      (entries.map fun entry => (entry.1.name, entry.2.toJson)).map Json.entryChars =
      (entries.map fun entry => (entry.1.name, entry.2.inspect)).map fun entry =>
        Json.textChars entry.1 ++ ':' :: entry.2.toList := by
    intro entries
    rw [List.map_map, List.map_map]
    refine List.map_congr_left fun entry _ => ?_
    simp [Json.entryChars, inspect, Json.compact]
  rw [inspect_eq_iff, toJson_object_of_nodup distinct, toJson_object_of_nodup distinctToo,
    ← (List.map_injective_iff.2 written).eq_iff, ← texts, ← texts]
  simp only [Json.compactChars]
  constructor
  · intro same
    exact (Json.compactEntries_append_inj (fun entry _ => entry.2.endsAlike)
      (List.cons.inj same).2).1
  · intro same
    rw [Json.compactEntries_eq, Json.compactEntries_eq, same]

end Value

end StructuralDiff
