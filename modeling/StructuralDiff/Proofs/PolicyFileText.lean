import Mathlib
import StructuralDiff.Policy.File

/-!
# Policy files that are written out

A policy file can hold any texts, lists of texts and switches that are on: what is written
for them, a line for each flag and one for the report format, is read as what it was
written for (`PolicyFile.read?_written`).
-/

namespace StructuralDiff

namespace Toml

/-! ## Texts -/

/-- The last hexadecimal digits of a code point, so many of them. -/
def hexDigits : Nat → Nat → List Char
  | 0, _ => []
  | length + 1, code => hexDigits length (code / 16) ++ [Nat.digitChar (code % 16)]

theorem length_hexDigits (length code : Nat) : (hexDigits length code).length = length := by
  induction length generalizing code with
  | zero => rfl
  | succ length ih => simp [hexDigits, ih]

/-- The digit of a number below sixteen has the number as its value. -/
theorem digit?_digitChar {value : Nat} (small : value < 16) :
    Text.digit? 16 (Nat.digitChar value) = some value := by
  revert value
  decide

/-- Enough hexadecimal digits stand for the code point. -/
theorem number?_hexDigits {length code : Nat} (fits : code < 16 ^ length) :
    Text.number? 16 (hexDigits length code) = some code := by
  induction length generalizing code with
  | zero =>
    have zero : code = 0 := by simpa using fits
    subst zero
    rfl
  | succ length ih =>
    have shorter : code / 16 < 16 ^ length := by
      rw [Nat.div_lt_iff_lt_mul (by decide), ← Nat.pow_succ]
      exact fits
    have first := ih shorter
    have last := digit?_digitChar (Nat.mod_lt code (by decide : 0 < 16))
    simp only [Text.number?] at first
    simp only [hexDigits, Text.number?, List.foldlM_append, first, List.foldlM_cons, last,
      List.foldlM_nil]
    show some (16 * (code / 16) + code % 16) = some code
    rw [Nat.div_add_mod]

/-- A character as it stands in a basic text: quotes, backslashes and controls are written
as their code points. -/
def escapedChar (char : Char) : List Char :=
  if char == '"' || char == '\\' || !isPrintable char then '\\' :: 'U' :: hexDigits 8 char.toNat
  else [char]

/-- A text in quotes. -/
def textChars (value : String) : List Char :=
  '"' :: (value.toList.flatMap escapedChar ++ ['"'])

/-- The code point of a character is read as the character. -/
theorem readEscape_hexDigits (char : Char) (rest : List Char) :
    readEscape ('U' :: (hexDigits 8 char.toNat ++ rest)) = some (char, rest) := by
  have known : Text.ofCodePoint? char.toNat = some char := by
    have valid : char.toNat.isValidChar := char.valid
    rw [Text.ofCodePoint?, if_pos valid, Char.ofNat_toNat]
  have small : char.toNat < 16 ^ 8 := by
    have size := char.val.toNat_lt
    exact size
  have length := length_hexDigits 8 char.toNat
  rw [readEscape, readCodePoint, List.take_left' length, List.drop_left' length, length]
  simp [number?_hexDigits small, known]

/-- Where everything takes one place or more, there are as many places as things. -/
theorem length_le_length_flatMap {α : Type} (write : α → List Char)
    (places : ∀ value, 1 ≤ (write value).length) (values : List α) :
    values.length ≤ (values.flatMap write).length := by
  have total := List.length_le_sum_of_one_le (values.map fun value => (write value).length)
    (by simpa using fun value _ => places value)
  rwa [List.length_map, ← List.length_flatMap] at total

/-- Escaped characters up to a closing quote are read as the characters. -/
theorem readBasic_written {chars : List Char} {fuel : Nat} (enough : chars.length < fuel)
    (rest : List Char) :
    readBasic fuel (chars.flatMap escapedChar ++ '"' :: rest) = some (chars, rest) := by
  induction chars generalizing fuel with
  | nil =>
    obtain ⟨fuel, rfl⟩ := Nat.exists_eq_add_of_le' enough
    rfl
  | cons char chars ih =>
    obtain ⟨fuel, rfl⟩ := Nat.exists_eq_add_of_le' (Nat.one_le_of_lt enough)
    have others : readBasic fuel (chars.flatMap escapedChar ++ '"' :: rest) = some (chars, rest) :=
      ih (by simpa using enough)
    rw [List.flatMap_cons, List.append_assoc, escapedChar]
    split
    · rw [List.cons_append, List.cons_append, readBasic, readEscape_hexDigits]
      simp [others]
    · rename_i plain
      simp only [Bool.or_eq_true, Bool.not_eq_true', not_or, Bool.not_eq_true,
        Bool.not_eq_false] at plain
      obtain ⟨⟨notQuote, notBackslash⟩, printable⟩ := plain
      rw [List.singleton_append, readBasic]
      simp [notQuote, notBackslash, printable, others]

/-- An escaped character does not start with a quote. -/
theorem head?_escapedChar (char : Char) : ∃ first others, escapedChar char = first :: others ∧
    first ≠ '"' := by
  unfold escapedChar
  split
  · exact ⟨_, _, rfl, by decide⟩
  · rename_i plain
    refine ⟨char, [], rfl, ?_⟩
    rintro rfl
    exact plain rfl

/-- A character takes one place or more. -/
theorem length_escapedChar_pos (char : Char) : 1 ≤ (escapedChar char).length := by
  obtain ⟨first, others, written, -⟩ := head?_escapedChar char
  rw [written, List.length_cons]
  omega

/-- A text that is written in quotes is read, unless a quote follows. -/
theorem readText_written (value : String) {rest : List Char} (noQuote : rest.head? ≠ some '"') :
    readText (textChars value ++ rest) = some (value, rest) := by
  have written : textChars value ++ rest =
      '"' :: (value.toList.flatMap escapedChar ++ '"' :: rest) := by
    simp [textChars]
  have notThree : ∀ others, value.toList.flatMap escapedChar ++ '"' :: rest ≠
      '"' :: '"' :: others := by
    intro others same
    cases chars : value.toList with
    | nil =>
      rw [chars] at same
      exact noQuote (by simpa using congrArg List.head? (List.tail_eq_of_cons_eq same))
    | cons char more =>
      obtain ⟨first, later, starts, notQuote⟩ := head?_escapedChar char
      rw [chars, List.flatMap_cons, starts] at same
      exact notQuote (List.head_eq_of_cons_eq same)
  have enough : value.toList.length <
      ('"' :: (value.toList.flatMap escapedChar ++ '"' :: rest)).length + 1 := by
    have room := length_le_length_flatMap escapedChar length_escapedChar_pos value.toList
    simp only [List.length_cons, List.length_append]
    omega
  rw [written, readText, readBasic_written enough]
  · simp
  · exact notThree

/-! ## Values -/

/-- What can be written: a text, a list of texts, and that a switch is on. -/
inductive Writable where
  | text (value : String)
  | texts (values : List String)
  | on

namespace Writable

/-- The value that is written. -/
def toToml : Writable → Toml
  | .text value => .text value
  | .texts values => .array (values.map .text)
  | .on => .bool true

/-- The characters that are written. A comma follows every item of a list. -/
def chars : Writable → List Char
  | .text value => textChars value
  | .texts values => '[' :: (values.flatMap (fun value => textChars value ++ [',']) ++ [']'])
  | .on => ['t', 'r', 'u', 'e']

end Writable

/-- Nothing is skipped in front of a quote, a comma or a closing bracket. -/
theorem skipSpace_cons {char : Char} (visible : char ∈ ['"', ',', ']']) (fuel : Nat)
    (rest : List Char) : skipSpace fuel (char :: rest) = char :: rest := by
  cases fuel with
  | zero => rfl
  | succ fuel =>
    simp only [List.mem_cons, List.not_mem_nil, or_false] at visible
    rcases visible with rfl | rfl | rfl <;> simp [skipSpace, skipBlankLines]

/-- A written text is read as a value. -/
theorem readValue_text (value : String) {rest : List Char} (noQuote : rest.head? ≠ some '"')
    (fuel depth : Nat) :
    readValue (fuel + 1) depth (textChars value ++ rest) = some (.text value, rest) := by
  have read := readText_written value noQuote
  have asText : ∀ others, readValue (fuel + 1) depth ('"' :: others) =
      (readText ('"' :: others)).map fun read => (.text read.1, read.2) := by
    intro others
    simp [readValue, readSimple]
  rw [textChars, List.cons_append] at read ⊢
  rw [asText, read]
  rfl

/-- Written items are read up to the closing bracket. By induction on the items. -/
theorem readItems_written {values : List String} {fuel : Nat} (enough : values.length + 1 < fuel)
    (depth : Nat) (rest : List Char) :
    readItems fuel depth (values.flatMap (fun value => textChars value ++ [',']) ++ ']' :: rest) =
      some (values.map .text, rest) := by
  induction values generalizing fuel with
  | nil =>
    obtain ⟨fuel, rfl⟩ := Nat.exists_eq_add_of_le' (Nat.one_le_of_lt enough)
    rw [List.flatMap_nil, List.nil_append, readItems, skipSpace_cons (by decide)]
    rfl
  | cons value values ih =>
    obtain ⟨fuel, rfl⟩ : ∃ less, fuel = less + 2 := ⟨fuel - 2, by omega⟩
    rw [List.length_cons] at enough
    have others := @ih (fuel + 1) (by omega)
    set later := values.flatMap (fun value => textChars value ++ [',']) ++ ']' :: rest with onward
    have written : (value :: values).flatMap (fun value => textChars value ++ [',']) ++
        ']' :: rest = textChars value ++ ',' :: later := by
      simp [onward]
    have first : readValue (fuel + 1) depth (textChars value ++ ',' :: later) =
        some (.text value, ',' :: later) := readValue_text value (by simp) fuel depth
    have starts : textChars value ++ ',' :: later = '"' ::
        (value.toList.flatMap escapedChar ++ ['"'] ++ ',' :: later) := rfl
    rw [written, readItems]
    rw [starts] at first ⊢
    rw [skipSpace_cons (by decide)]
    show (readValue (fuel + 1) depth ('"' :: _)).bind _ = _
    rw [first, Option.bind_some]
    simp only [skipSpace_cons (by decide : ',' ∈ ['"', ',', ']']), others, List.map_cons]
    rfl

/-- What is written for a value is read as the value. -/
theorem readValue_written (value : Writable) {rest : List Char} (noQuote : rest.head? ≠ some '"')
    {fuel depth : Nat} (enough : value.chars.length < fuel) :
    readValue fuel (depth + 1) (value.chars ++ rest) = some (value.toToml, rest) := by
  obtain ⟨fuel, rfl⟩ := Nat.exists_eq_add_of_le' (Nat.one_le_of_lt enough)
  cases value with
  | text value => exact readValue_text value noQuote fuel (depth + 1)
  | texts values =>
    have room : values.length + 1 < fuel := by
      have items := length_le_length_flatMap
        (fun value => textChars value ++ [',']) (by simp [textChars]) values
      rw [Writable.chars, List.length_cons, List.length_append, List.length_singleton] at enough
      omega
    have items := readItems_written room depth rest
    rw [Writable.chars, List.cons_append, List.append_assoc, List.singleton_append, readValue,
      items]
    rfl
  | on =>
    show readValue (fuel + 1) (depth + 1) ('t' :: 'r' :: 'u' :: 'e' :: rest) = _
    simp [readValue, readSimple, Writable.toToml]

/-! ## Lines -/

/-- A line that gives a key a value. -/
def lineChars (line : String × Writable) : List Char :=
  line.1.toList ++ '=' :: (line.2.chars ++ ['\n'])

/-- A name that is written as a key without quotes. -/
structure IsKey (name : String) : Prop where
  some : name.toList ≠ []
  bare : ∀ char ∈ name.toList, isBare char = true

/-- A character of a key is none that means something else. -/
theorem ne_of_isBare {char other : Char} (bare : isBare char = true) (notBare : isBare other = false) :
    char ≠ other := by
  rintro rfl
  rw [bare] at notBare
  cases notBare

/-- Nothing is skipped in front of a character of a key. -/
theorem skipBlanks_of_isBare {char : Char} (bare : isBare char = true) (rest : List Char) :
    skipBlanks (char :: rest) = char :: rest := by
  have notSpace := ne_of_isBare bare (by decide : isBare ' ' = false)
  have notTab := ne_of_isBare bare (by decide : isBare '\t' = false)
  simp [skipBlanks, isBlank, notSpace, notTab]

/-- A part of a key before an equals sign is read. -/
theorem readKeyPart_written {name : String} (key : IsKey name) (rest : List Char) :
    readKeyPart (name.toList ++ '=' :: rest) = some (name, '=' :: rest) := by
  have whole : (name.toList ++ '=' :: rest).takeWhile isBare = name.toList := by
    rw [List.takeWhile_append_of_pos key.bare]
    simp [isBare]
  have after : (name.toList ++ '=' :: rest).dropWhile isBare = '=' :: rest := by
    rw [List.dropWhile_append_of_pos key.bare]
    simp [isBare]
  unfold readKeyPart
  split
  · rename_i others quoted
    rw [quoted] at whole
    exact absurd whole.symm (by simpa [isBare] using key.some)
  · rename_i others quoted
    rw [quoted] at whole
    exact absurd whole.symm (by simpa [isBare] using key.some)
  · simp [whole, after, key.some]

/-- A key before an equals sign is read. -/
theorem readKey_written {name : String} (key : IsKey name) (rest : List Char) :
    readKey (name.toList ++ '=' :: rest) = some ([name], '=' :: rest) := by
  have part := readKeyPart_written key rest
  obtain ⟨first, others, written⟩ := List.exists_cons_of_ne_nil key.some
  have bare := key.bare first (by simp [written])
  rw [written, List.cons_append] at part ⊢
  have sign : skipBlanks ('=' :: rest) = '=' :: rest := rfl
  simp [readKey, readKeyParts, skipBlanks_of_isBare bare, part, sign, depthLimit]

/-- A written value starts with a visible character. -/
theorem Writable.skipBlanks_chars (value : Writable) (rest : List Char) :
    skipBlanks (value.chars ++ rest) = value.chars ++ rest := by
  cases value <;> rfl

/-- What is written on a line is read as the key and the value. -/
theorem readAssignment_written {name : String} (key : IsKey name) (value : Writable)
    (rest : List Char) :
    readAssignment (lineChars (name, value) ++ rest) = some (([name], value.toToml), rest) := by
  have written : lineChars (name, value) ++ rest =
      name.toList ++ '=' :: (value.chars ++ '\n' :: rest) := by
    simp [lineChars]
  have enough : value.chars.length < 2 * (value.chars ++ '\n' :: rest).length + 2 := by
    rw [List.length_append]
    omega
  have read : readValue (2 * (value.chars ++ '\n' :: rest).length + 2) (depthLimit - 1)
      (value.chars ++ '\n' :: rest) = some (value.toToml, '\n' :: rest) :=
    readValue_written value (by simp) enough
  have ends : afterLine? ('\n' :: rest) = some rest := rfl
  rw [written, readAssignment, readKey_written key]
  simp only [Option.bind_eq_bind, Option.bind_some, value.skipBlanks_chars, read, ends,
    Option.pure_def]

/-- A line that is written adds its value to the table under the last header. -/
theorem readLines_cons {name : String} (key : IsKey name) (value : Writable) (fuel : Nat)
    (outline : Outline) (rest : List Char) :
    readLines (fuel + 1) outline (lineChars (name, value) ++ rest) =
      (outline.assign [name] value.toToml).bind fun outline => readLines fuel outline rest := by
  have read := readAssignment_written key value rest
  obtain ⟨first, others, written⟩ := List.exists_cons_of_ne_nil key.some
  have bare := key.bare first (by simp [written])
  have starts : lineChars (name, value) ++ rest =
      first :: (others ++ '=' :: (value.chars ++ ['\n']) ++ rest) := by
    simp [lineChars, written]
  have notBracket := ne_of_isBare bare (by decide : isBare '[' = false)
  have notComment := ne_of_isBare bare (by decide : isBare '#' = false)
  have notFeed := ne_of_isBare bare (by decide : isBare '\n' = false)
  have notReturn := ne_of_isBare bare (by decide : isBare '\r' = false)
  have content : ∀ later, afterLine? (first :: later) = none := by
    intro later
    simp [afterLine?, skipBlanks_of_isBare bare, skipComment, afterNewline?, notComment, notFeed,
      notReturn]
  rw [starts] at read ⊢
  rw [readLines, skipBlanks_of_isBare bare]
  split
  · rename_i none
    cases none
  · rename_i _ same
    exact absurd (List.head_eq_of_cons_eq same) notBracket
  · rename_i _ same
    exact absurd (List.head_eq_of_cons_eq same) notBracket
  · rw [content]
    simp only [read, Option.bind_eq_bind, Option.bind_some]

/-- A key that is new under the last header is added with its value. -/
theorem Outline.assign_of_new {outline : Outline} {name : String}
    (new : name ∉ outline.current.keys) (value : Toml) :
    outline.assign [name] value =
      some { outline with current := outline.current ++ [(name, .value value)] } := by
  have absent : outline.current.has name = false := by
    simpa using mt Entries.mem_keys_iff_has.2 new
  have added : Items.assign [] name value .header outline.current =
      some (outline.current ++ [(name, .value value)]) := by
    rw [← Entries.set_of_notMem new]
    simp [Items.assign, Items.change, absent]
  simp [Outline.assign, added]

/-- The item that is read for a line. -/
def lineItem (line : String × Writable) : String × Item :=
  (line.1, .value line.2.toToml)

/-- The items of lines have the values of the lines. -/
theorem entriesToToml_map_lineItem (lines : List (String × Writable)) :
    Item.entriesToToml (lines.map lineItem) = lines.map fun line => (line.1, line.2.toToml) := by
  induction lines with
  | nil => rfl
  | cons line lines ih => rw [List.map_cons, lineItem, Item.entriesToToml, ih]; rfl

/-- Lines with new keys are added one after another. By induction on the lines. -/
theorem readLines_written {lines : List (String × Writable)} (keys : ∀ line ∈ lines, IsKey line.1)
    {outline : Outline} (new : (outline.current.keys ++ lines.map Prod.fst).Nodup) {fuel : Nat}
    (enough : lines.length < fuel) :
    readLines fuel outline (lines.flatMap lineChars) =
      some { outline with current := outline.current ++ lines.map lineItem } := by
  induction lines generalizing outline fuel with
  | nil =>
    obtain ⟨fuel, rfl⟩ := Nat.exists_eq_add_of_le' enough
    simp [readLines, skipBlanks]
  | cons line lines ih =>
    obtain ⟨fuel, rfl⟩ := Nat.exists_eq_add_of_le' (Nat.one_le_of_lt enough)
    rw [List.map_cons] at new
    have newFirst : line.1 ∉ outline.current.keys := fun known =>
      List.nodup_append.1 new |>.2.2 _ known _ List.mem_cons_self rfl
    have onward := @ih (fun other member => keys other (List.mem_cons_of_mem _ member))
      { outline with current := outline.current ++ [(line.1, .value line.2.toToml)] }
      (by simpa [Entries.keys] using new) fuel (by simpa using enough)
    rw [List.flatMap_cons, readLines_cons (keys line List.mem_cons_self),
      Outline.assign_of_new newFirst, Option.bind_some, onward]
    simp [lineItem]

/-- The table of lines with distinct keys. -/
theorem read?_written {lines : List (String × Writable)} (keys : ∀ line ∈ lines, IsKey line.1)
    (distinct : (lines.map Prod.fst).Nodup) :
    read? (String.ofList (lines.flatMap lineChars)) =
      some (.table (lines.map fun line => (line.1, line.2.toToml))) := by
  have noMark : ∀ others, lines.flatMap lineChars ≠ '\uFEFF' :: others := by
    intro others same
    cases lines with
    | nil => cases same
    | cons line lines =>
      have key := keys line List.mem_cons_self
      obtain ⟨first, later, written⟩ := List.exists_cons_of_ne_nil key.some
      rw [List.flatMap_cons, lineChars, written] at same
      exact ne_of_isBare (key.bare first (by simp [written])) (by decide) (List.head_eq_of_cons_eq same)
  have places : ∀ line, 1 ≤ (lineChars line).length := by
    intro line
    simp only [lineChars, List.length_append, List.length_cons]
    omega
  have enough : lines.length < (lines.flatMap lineChars).length + 1 :=
    Nat.lt_succ_of_le (length_le_length_flatMap lineChars places lines)
  have new : (Outline.empty.current.keys ++ lines.map Prod.fst).Nodup := distinct
  have outline : readLines ((lines.flatMap lineChars).length + 1) .empty
      (lines.flatMap lineChars) = some { Outline.empty with current := lines.map lineItem } :=
    readLines_written keys new enough
  rw [read?, String.toList_ofList]
  split
  · rename_i same
    exact absurd same (noMark _)
  · simp only [outline, Option.bind_eq_bind, Option.bind_some]
    simp [Outline.toToml, Outline.close, Outline.empty, entriesToToml_map_lineItem]

end Toml

/-- The setting that a value in a policy file is. -/
def Toml.Writable.setting : Toml.Writable → Setting
  | .text value => .text value
  | .texts values => .list (values.map .text)
  | .on => .bool true

namespace PolicyFile

open Toml (Writable)

/-- The lines for settings of flags and for the name of a report format. -/
def lines (entries : List (Flag × Writable)) (format : Option String) : List (String × Writable) :=
  (entries.map fun entry => (entry.1.name, entry.2)) ++
    format.toList.map fun name => (formatName, Writable.text name)

/-- A policy file with settings of flags and the name of a report format. -/
def written (entries : List (Flag × Writable)) (format : Option String) : String :=
  String.ofList ((lines entries format).flatMap Toml.lineChars)

/-- What is written is a setting. -/
theorem ofToml?_toToml (value : Writable) : Setting.ofToml? value.toToml = some value.setting := by
  have texts : ∀ values : List String,
      Setting.itemsOfToml? (values.map .text) = some (values.map .text) := by
    intro values
    induction values with
    | nil => rfl
    | cons value values ih => simp [Setting.itemsOfToml?, Setting.ofToml?, ih]
  cases value with
  | text value => rfl
  | texts values => simp [Writable.toToml, Writable.setting, Setting.ofToml?, texts]
  | on => rfl

/-- A flag is known by its name. -/
theorem find?_name (flag : Flag) : (Flag.all.find? fun other => other.name == flag.name) = some flag := by
  cases flag <;> decide

/-- The format is no flag. -/
theorem name_ne_formatName (flag : Flag) : flag.name ≠ formatName := by
  cases flag <;> decide

/-- The entry of a flag adds its setting. -/
theorem add?_flag (file : PolicyFile) (flag : Flag) (value : Writable) :
    file.add? flag.name value.toToml =
      some { file with settings := file.settings ++ [(flag, value.setting)] } := by
  simp [add?, name_ne_formatName, find?_name, ofToml?_toToml]

/-- Settings of flags are added one after another. -/
theorem foldlM_add?_flags (entries : List (Flag × Writable)) (file : PolicyFile) :
    (entries.map fun entry => (entry.1.name, entry.2.toToml)).foldlM
        (fun file entry => file.add? entry.1 entry.2) file =
      some { file with
        settings := file.settings ++ entries.map fun entry => (entry.1, entry.2.setting) } := by
  induction entries generalizing file with
  | nil => simp
  | cons entry entries ih =>
    rw [List.map_cons, List.foldlM_cons, add?_flag, Option.bind_eq_bind, Option.bind_some, ih]
    simp

/-- The names of flags and of the format are keys. -/
theorem isKey_of_mem_lines {entries : List (Flag × Writable)} {format : Option String}
    {line : String × Writable} (member : line ∈ lines entries format) : Toml.IsKey line.1 := by
  have flags : ∀ flag : Flag, Toml.IsKey flag.name := by
    intro flag
    exact ⟨by cases flag <;> decide, List.all_eq_true.1 (by cases flag <;> rfl)⟩
  have name : Toml.IsKey formatName := ⟨by decide, List.all_eq_true.1 rfl⟩
  rcases List.mem_append.1 member with inEntries | inFormat
  · obtain ⟨entry, -, rfl⟩ := List.mem_map.1 inEntries
    exact flags entry.1
  · obtain ⟨_, -, rfl⟩ := List.mem_map.1 inFormat
    exact name

/-- Distinct flags have distinct names, and none is that of the format. -/
theorem nodup_lines {entries : List (Flag × Writable)} (distinct : (entries.map Prod.fst).Nodup)
    (format : Option String) : ((lines entries format).map Prod.fst).Nodup := by
  have injective : Function.Injective Flag.name := by
    intro first second same
    have found := find?_name first
    rw [same, find?_name second] at found
    exact (Option.some.inj found).symm
  have names : ((entries.map fun entry => (entry.1.name, entry.2)).map Prod.fst).Nodup := by
    have mapped := distinct.map injective
    rwa [List.map_map] at mapped ⊢
  rw [lines, List.map_append]
  refine List.nodup_append.2 ⟨names, ?_, ?_⟩
  · cases format <;> simp
  · intro name inEntries other inFormat
    simp only [List.mem_map] at inEntries inFormat
    obtain ⟨_, ⟨entry, -, rfl⟩, rfl⟩ := inEntries
    obtain ⟨_, ⟨_, -, rfl⟩, rfl⟩ := inFormat
    exact name_ne_formatName entry.1

/-- A policy file that is written is read as what it was written for. -/
theorem read?_written {entries : List (Flag × Writable)} (distinct : (entries.map Prod.fst).Nodup)
    (format : Option String) :
    read? (written entries format) =
      some ⟨format, entries.map fun entry => (entry.1, entry.2.setting)⟩ := by
  have table := Toml.read?_written (fun _ => isKey_of_mem_lines) (nodup_lines distinct format)
  have flags := foldlM_add?_flags entries empty
  rw [read?, written, table]
  simp only [lines, List.map_append, List.map_map, List.foldlM_append]
  simp only [Function.comp_def, flags]
  cases format with
  | none => simp [empty]
  | some name => simp [add?, empty, Writable.toToml]

end PolicyFile

end StructuralDiff
