import Mathlib
import StructuralDiff.Proofs.JsonTokens

/-!
# Reading the compact form

What the compact form writes is read as it was written, whatever follows it (`Json.ReadsAs`),
with steps to spare: two for each character are enough. Integers are read by their digits, which
do not start with a zero that does not stand alone; arrays and objects are read when all that is
inside them is (`Json.ReadsAs.array`, `Json.ReadsAs.object`). An unsigned integer that fits is
read as a signed one (`Number.narrowed`).
-/

namespace StructuralDiff

namespace Number

/-- The number is in one of the two forms for integers. -/
def IsInteger : Number → Prop
  | .float _ => False
  | _ => True

/-- The form in which an integer is read: signed where it fits. -/
def narrowed : Number → Number
  | .uint value => ofNat64 value
  | other => other

end Number

namespace Decimal

/-- No zero is written in front of other digits. -/
theorem head?_toDigits_ne_zero {value : Nat} (positive : value ≠ 0) :
    (Nat.toDigits 10 value).head? ≠ some '0' := by
  induction value using Nat.strongRecOn with
  | ind value ih =>
    rcases Nat.lt_or_ge value 10 with small | large
    · rw [Nat.toDigits_of_lt_base small]
      simpa using positive
    · rw [Nat.toDigits_of_base_le (by decide) large, List.head?_append_of_ne_nil _ Nat.toDigits_ne_nil]
      exact ih (value / 10) (by omega) (by omega)

end Decimal

namespace Json

namespace Numeral

/-- What follows a value goes on with no numeral. -/
theorem not_onward_of_stops {rest : List Char} (stops : Stops rest) :
    ∀ first ∈ rest.head?, first.isDigit = false ∧ first ≠ '.' ∧ first ≠ 'e' ∧ first ≠ 'E' := by
  intro first member
  rcases stops first member with rfl | rfl | rfl <;> decide

/-- Digits are read up to where they end. -/
theorem digits?_append {digits rest : List Char} (nonempty : digits ≠ [])
    (each : ∀ char ∈ digits, char.isDigit = true) (stops : Stops rest) :
    digits? (digits ++ rest) = some (digits, rest) := by
  have taken : (digits ++ rest).takeWhile Char.isDigit = digits := by
    rw [List.takeWhile_append_of_pos each]
    cases rest with
    | nil => simp
    | cons first rest => simp [(not_onward_of_stops stops first rfl).1]
  have dropped : (digits ++ rest).dropWhile Char.isDigit = rest := by
    rw [List.dropWhile_append_of_pos each]
    cases rest with
    | nil => rfl
    | cons first rest => simp [(not_onward_of_stops stops first rfl).1]
  obtain ⟨first, others, rfl⟩ := List.exists_cons_of_ne_nil nonempty
  rw [digits?, List.span_eq_takeWhile_dropWhile, taken, dropped]

/-- The digits of a number are a whole part. -/
theorem whole?_toDigits (value : Nat) {rest : List Char} (stops : Stops rest) :
    whole? (Nat.toDigits 10 value ++ rest) = some (Nat.toDigits 10 value, rest) := by
  have digits : digits? (Nat.toDigits 10 value ++ rest) = some (Nat.toDigits 10 value, rest) :=
    digits?_append Nat.toDigits_ne_nil
      (fun char member => Nat.isDigit_of_mem_toDigits (by decide) (by decide) member) stops
  rw [whole?, digits]
  split
  · rename_i second others after same
    obtain ⟨written, -⟩ := Prod.mk.inj (Option.some.inj same)
    by_cases zero : value = 0
    · rw [zero, Nat.toDigits_zero] at written
      cases written
    · exact absurd (by rw [written]; rfl) (Decimal.head?_toDigits_ne_zero zero)
  · rfl

/-- What follows a value is neither a fraction nor a power. -/
theorem fraction?_and_power?_of_stops {rest : List Char} (stops : Stops rest) :
    fraction? rest = some (none, rest) ∧ power? rest = some (none, rest) := by
  have onward := not_onward_of_stops stops
  cases rest with
  | nil => exact ⟨rfl, rfl⟩
  | cons first rest =>
    obtain ⟨-, noPoint, small, great⟩ := onward first rfl
    constructor
    · rw [fraction?]
      rintro others same
      exact noPoint (List.cons.inj same).1
    · simp [power?, small, great]

/-- The digits of a number are a numeral, also behind a sign. -/
theorem read?_written (negative : Bool) (value : Nat) {rest : List Char} (stops : Stops rest) :
    read? ((if negative then ['-'] else []) ++ Nat.toDigits 10 value ++ rest) =
      some (⟨negative, Nat.toDigits 10 value, none, none⟩, rest) := by
  obtain ⟨noFraction, noPower⟩ := fraction?_and_power?_of_stops stops
  have whole := whole?_toDigits value stops
  cases negative with
  | true => simp [read?, whole, noFraction, noPower]
  | false =>
    obtain ⟨first, others, written⟩ := List.exists_cons_of_ne_nil
      (Nat.toDigits_ne_nil (n := value) (b := 10))
    have notSign : first ≠ '-' := by
      rintro rfl
      have digit := Nat.isDigit_of_mem_toDigits (by decide) (by decide)
        (written ▸ List.mem_cons_self : '-' ∈ Nat.toDigits 10 value)
      cases digit
    rw [written, List.cons_append] at whole
    simp [read?, written, notSign, whole, noFraction, noPower]

/-- Digits that sixty-four bits hold are the number that they were written for. -/
theorem toNumber?_of_lt {value : Nat} (small : value < UInt64.size) :
    toNumber? ⟨false, Nat.toDigits 10 value, none, none⟩ =
      some (Number.ofNat64 (UInt64.ofNat value)) := by
  simp [toNumber?, Nat.ofDigitChars_ten_toDigits, small]

/-- A signed integer is in the range of signed integers. -/
theorem isSigned_toInt (value : Int64) : Number.isSigned value.toInt = true :=
  Number.isSigned_iff.2 ⟨Int64.le_toInt value, Int64.toInt_lt value⟩

/-- Digits behind a sign are the negative number that they were written for. -/
theorem toNumber?_of_negative {value : Int64} (negative : value.toInt < 0) :
    toNumber? ⟨true, Nat.toDigits 10 value.toInt.natAbs, none, none⟩ = some (.int value) := by
  have amount : -(value.toInt.natAbs : Int) = value.toInt := by omega
  have notZero : (value.toInt.natAbs != 0) = true := by
    rw [bne_iff_ne]
    omega
  simp only [toNumber?, Nat.ofDigitChars_ten_toDigits, amount, notZero, isSigned_toInt,
    Option.isNone_none, Bool.and_self, if_true, Int64.ofInt_toInt]

/-- The digits of a signed integer without a sign are the integer that they were written for. -/
theorem toNumber?_of_nonnegative {value : Int64} (nonnegative : 0 ≤ value.toInt) :
    toNumber? ⟨false, Nat.toDigits 10 value.toInt.natAbs, none, none⟩ = some (.int value) := by
  have bound := Int64.toInt_lt value
  have small : value.toInt.natAbs < UInt64.size := by
    rw [UInt64.size]
    omega
  have amount : ((UInt64.ofNat value.toInt.natAbs).toNat : Int) = value.toInt := by
    rw [UInt64.toNat_ofNat_of_lt' small]
    omega
  rw [toNumber?_of_lt small, Number.ofNat64, amount, isSigned_toInt, if_pos rfl,
    ← Int64.ofInt_eq_ofNat, amount, Int64.ofInt_toInt]

end Numeral

/-- An integer is read as it was written, but for its form. -/
theorem read?_numberChars {number : Number} (integer : number.IsInteger) {rest : List Char}
    (stops : Stops rest) :
    ∃ numeral, Numeral.read? (numberChars number ++ rest) = some (numeral, rest) ∧
      numeral.toNumber? = some number.narrowed := by
  cases number with
  | float value => cases integer
  | uint value =>
    refine ⟨_, Numeral.read?_written false value.toNat stops, ?_⟩
    rw [Numeral.toNumber?_of_lt value.toNat_lt, UInt64.ofNat_toNat]
    rfl
  | int value =>
    rcases Int.lt_or_le value.toInt 0 with negative | nonnegative
    · have written := Numeral.read?_written true value.toInt.natAbs stops
      refine ⟨_, ?_, Numeral.toNumber?_of_negative negative⟩
      rw [← written, numberChars, Decimal.integerChars, if_pos negative]
      rfl
    · have written := Numeral.read?_written false value.toInt.natAbs stops
      refine ⟨_, ?_, Numeral.toNumber?_of_nonnegative nonnegative⟩
      rw [← written, numberChars, Decimal.integerChars, if_neg (Int.not_lt.2 nonnegative)]
      rfl

/-! ## Values -/

/-- What is written for a value is read as another, whatever follows it, when containers may be
nested so deep and there are two steps for each character. -/
def ReadsAs (depth : Nat) (json result : Json) : Prop :=
  ∀ fuel rest, Stops rest → 2 * json.compactChars.length ≤ fuel →
    readValue fuel depth (json.compactChars ++ rest) = some (result, rest)

/-- A word is passed over. -/
theorem afterWord?_append (word rest : List Char) : afterWord? word (word ++ rest) = some rest := by
  induction word with
  | nil => rfl
  | cons char word ih => simp [afterWord?, ih]

/-- What is written for a value starts with no space. -/
theorem skipSpace_compactChars (json : Json) (rest : List Char) :
    skipSpace (json.compactChars ++ rest) = json.compactChars ++ rest := by
  have shown : json.IsBare → skipSpace (json.compactChars ++ rest) = json.compactChars ++ rest := by
    intro bare
    obtain ⟨nonempty, word⟩ := bare.isWord
    obtain ⟨first, others, written⟩ := List.exists_cons_of_ne_nil nonempty
    have noSpace := (apart_of_isWordChar (word first (by simp [written]))).1
    rw [written, List.cons_append, skipSpace_of_visible noSpace]
  cases json with
  | text value => rfl
  | array items => rfl
  | object entries => rfl
  | _ => exact shown trivial

/-- There is a step to spare. -/
theorem exists_fuel_of_compactChars {json : Json} {fuel : Nat}
    (enough : 2 * json.compactChars.length ≤ fuel) : ∃ less, fuel = less + 1 := by
  obtain ⟨first, chars, written, -⟩ := exists_first_compactChars json
  rw [written, List.length_cons] at enough
  exact ⟨fuel - 1, by omega⟩

theorem ReadsAs.null (depth : Nat) : ReadsAs depth .null .null := by
  intro fuel rest stops enough
  obtain ⟨fuel, rfl⟩ := exists_fuel_of_compactChars enough
  change readValue (fuel + 1) depth ('n' :: ("ull".toList ++ rest)) = _
  have visible : skipSpace ('n' :: ("ull".toList ++ rest)) = 'n' :: ("ull".toList ++ rest) := rfl
  simp only [readValue, visible, afterWord?_append, Option.map_some]

theorem ReadsAs.bool (depth : Nat) (value : Bool) : ReadsAs depth (.bool value) (.bool value) := by
  intro fuel rest stops enough
  obtain ⟨fuel, rfl⟩ := exists_fuel_of_compactChars enough
  cases value with
  | true =>
    change readValue (fuel + 1) depth ('t' :: ("rue".toList ++ rest)) = _
    have visible : skipSpace ('t' :: ("rue".toList ++ rest)) = 't' :: ("rue".toList ++ rest) := rfl
    simp only [readValue, visible, afterWord?_append, Option.map_some]
  | false =>
    change readValue (fuel + 1) depth ('f' :: ("alse".toList ++ rest)) = _
    have visible : skipSpace ('f' :: ("alse".toList ++ rest)) = 'f' :: ("alse".toList ++ rest) := rfl
    simp only [readValue, visible, afterWord?_append, Option.map_some]

theorem ReadsAs.text (depth : Nat) (value : String) : ReadsAs depth (.text value) (.text value) := by
  intro fuel rest stops enough
  obtain ⟨fuel, rfl⟩ := exists_fuel_of_compactChars enough
  have written : (Json.text value).compactChars ++ rest =
      '"' :: (value.toList.flatMap escapedChar ++ '"' :: rest) := by
    simp [compactChars, textChars]
  have visible := skipSpace_compactChars (.text value) rest
  rw [written] at visible ⊢
  simp only [readValue, visible, readText_written, Option.map_some]

/-- What starts with a digit or a sign is read as a numeral. -/
theorem readValue_of_digit {first : Char} (starts : first.isDigit = true ∨ first = '-')
    (fuel depth : Nat) (others : List Char) :
    readValue (fuel + 1) depth (first :: others) =
      (Numeral.read? (first :: others)).bind fun read =>
        read.1.toNumber?.map fun number => (.number number, read.2) := by
  have apart : ∀ other : Char, other.isDigit = false → other ≠ '-' → first ≠ other := by
    rintro other notDigit notSign rfl
    rcases starts with digit | sign
    · rw [notDigit] at digit
      cases digit
    · exact notSign sign
  have visible : skipSpace (first :: others) = first :: others := by
    apply skipSpace_of_visible
    simp [isSpace, apart ' ' rfl (by decide), apart '\n' rfl (by decide),
      apart '\t' rfl (by decide), apart '\r' rfl (by decide)]
  rw [readValue, visible]
  split
  case h_1 same => cases same
  case h_8 =>
    cases Numeral.read? (first :: others) with
    | none => rfl
    | some read => cases number : read.1.toNumber? <;> simp [number]
  all_goals
    rename_i same
    exact absurd (List.cons.inj same).1 (apart _ rfl (by decide))

/-- An integer starts with a digit or a sign. -/
theorem exists_first_numberChars {number : Number} (integer : number.IsInteger) :
    ∃ first others, numberChars number = first :: others ∧
      (first.isDigit = true ∨ first = '-') := by
  have each : ∀ char ∈ numberChars number, char.isDigit = true ∨ char = '-' := by
    intro char member
    cases number with
    | float value => cases integer
    | int value =>
      apply Number.isDigit_or_eq_of_mem_integerText
      rwa [Decimal.integerText, String.toList_ofList]
    | uint value => exact .inl (Nat.isDigit_of_mem_toDigits (by decide) (by decide) member)
  have bare : (Json.number number).IsBare := trivial
  obtain ⟨first, others, written⟩ := List.exists_cons_of_ne_nil bare.isWord.1
  exact ⟨first, others, written, each first (by rw [← compactChars, written]; simp)⟩

/-- An integer is read in the form that it has room in. -/
theorem ReadsAs.number (depth : Nat) {number : Number} (integer : number.IsInteger) :
    ReadsAs depth (.number number) (.number number.narrowed) := by
  intro fuel rest stops enough
  obtain ⟨fuel, rfl⟩ := exists_fuel_of_compactChars enough
  obtain ⟨numeral, read, value⟩ := read?_numberChars integer stops
  obtain ⟨first, others, written, starts⟩ := exists_first_numberChars integer
  rw [compactChars]
  rw [written, List.cons_append] at read ⊢
  rw [readValue_of_digit starts, read, Option.bind_some, value, Option.map_some]

/-! ## Containers -/

/-- What follows an item or an entry ends it. -/
theorem stops_cons {first : Char} (ends : first = ',' ∨ first = ']' ∨ first = '\x7d')
    (rest : List Char) : Stops (first :: rest) := by
  rintro char ⟨⟩
  exact ends

/-- Items that are each read are read up to the closing bracket. By induction on the items. -/
theorem readItems_written {depth : Nat} {items results : List Json}
    (each : List.Forall₂ (ReadsAs depth) items results) (nonempty : items ≠ []) {fuel : Nat}
    (enough : 2 * (compactItems items).length + 1 ≤ fuel) (rest : List Char) :
    readItems fuel depth (compactItems items ++ ']' :: rest) = some (results, rest) := by
  induction each generalizing fuel with
  | nil => exact absurd rfl nonempty
  | @cons item result items results here others ih =>
    obtain ⟨fuel, rfl⟩ : ∃ less, fuel = less + 1 := ⟨fuel - 1, by omega⟩
    cases others with
    | nil =>
      rw [compactItems] at enough ⊢
      have first := here fuel (']' :: rest) (stops_cons (by simp) _) (by omega)
      have bracket : skipSpace (']' :: rest) = ']' :: rest := rfl
      simp [readItems, first, bracket]
    | @cons next nextResult items results hereToo others =>
      have written : compactItems (item :: next :: items) ++ ']' :: rest =
          item.compactChars ++ ',' :: (compactItems (next :: items) ++ ']' :: rest) := by
        simp [compactItems]
      have length : (compactItems (item :: next :: items)).length =
          item.compactChars.length + (compactItems (next :: items)).length + 1 := by
        simp [compactItems]
        omega
      rw [length] at enough
      set later := compactItems (next :: items) ++ ']' :: rest
      have first := here fuel (',' :: later) (stops_cons (by simp) _) (by omega)
      have onward : readItems fuel depth later = some (nextResult :: results, rest) :=
        ih (by simp) (by omega)
      have comma : skipSpace (',' :: later) = ',' :: later := rfl
      simp [written, readItems, first, comma, onward]

/-- Items start as the first of them does: with neither space nor a closing bracket. -/
theorem exists_first_compactItems (item : Json) (items : List Json) (rest : List Char) :
    ∃ first others, compactItems (item :: items) ++ rest = first :: others ∧ first ≠ ']' ∧
      skipSpace (first :: others) = first :: others := by
  obtain ⟨first, chars, starts, noBracket, -⟩ := exists_first_compactChars item
  obtain ⟨more, written⟩ : ∃ more, compactItems (item :: items) = item.compactChars ++ more := by
    cases items with
    | nil => exact ⟨[], by simp [compactItems]⟩
    | cons next items => exact ⟨_, rfl⟩
  have visible := skipSpace_compactChars item (more ++ rest)
  rw [starts] at visible written
  exact ⟨first, chars ++ (more ++ rest), by simp [written], noBracket, visible⟩

/-- An array is read when its items are. -/
theorem ReadsAs.array {depth : Nat} {items results : List Json}
    (each : List.Forall₂ (ReadsAs depth) items results) :
    ReadsAs (depth + 1) (.array items) (.array results) := by
  intro fuel rest stops enough
  obtain ⟨fuel, rfl⟩ := exists_fuel_of_compactChars enough
  rw [compactChars, List.length_append, List.length_cons, List.length_singleton] at enough
  have room : 2 * (compactItems items).length + 1 ≤ fuel := by omega
  have written : (Json.array items).compactChars ++ rest =
      '[' :: (compactItems items ++ ']' :: rest) := by
    simp [compactChars]
  have opens : skipSpace ('[' :: (compactItems items ++ ']' :: rest)) =
      '[' :: (compactItems items ++ ']' :: rest) := rfl
  rw [written, readValue, opens]
  cases each with
  | nil => rfl
  | @cons item result items results here others =>
    have read := readItems_written (.cons here others) (by simp) room rest
    obtain ⟨first, chars, text, noBracket, visible⟩ :=
      exists_first_compactItems item items (']' :: rest)
    rw [text] at read ⊢
    simp [visible, noBracket, read]

/-- The entries of an object that are read as others: under the same names, in the same order. -/
def EntriesReadAs (depth : Nat) (entries results : List (String × Json)) : Prop :=
  List.Forall₂ (fun entry result => entry.1 = result.1 ∧ ReadsAs depth entry.2 result.2)
    entries results

theorem length_entryChars (name : String) (value : Json) :
    (entryChars (name, value)).length = (textChars name).length + value.compactChars.length + 1 := by
  rw [entryChars, List.length_append, List.length_cons, Nat.add_assoc]

/-- The first entry is read, and then what its end says comes next. -/
theorem readEntries_entry {depth : Nat} (name : String) {value result : Json}
    (here : ReadsAs depth value result) {fuel : Nat} (enough : 2 * value.compactChars.length ≤ fuel)
    (rest : List Char) :
    readEntries (fuel + 1) depth (entryChars (name, value) ++ '\x7d' :: rest) =
        some ([(name, result)], rest) ∧
      readEntries (fuel + 1) depth (entryChars (name, value) ++ ',' :: rest) =
        (readEntries fuel depth rest).map fun read => ((name, result) :: read.1, read.2) := by
  have written : ∀ others, entryChars (name, value) ++ others =
      '"' :: (name.toList.flatMap escapedChar ++ '"' :: ':' :: (value.compactChars ++ others)) := by
    intro others
    simp [entryChars, textChars]
  have opens : ∀ chars, skipSpace ('"' :: chars) = '"' :: chars := fun _ => rfl
  have colon : ∀ chars, skipSpace (':' :: chars) = ':' :: chars := fun _ => rfl
  have brace : skipSpace ('\x7d' :: rest) = '\x7d' :: rest := rfl
  have comma : skipSpace (',' :: rest) = ',' :: rest := rfl
  have last := here fuel ('\x7d' :: rest) (stops_cons (by simp) _) enough
  have more := here fuel (',' :: rest) (stops_cons (by simp) _) enough
  constructor
  · simp [written, readEntries, opens, readText_written, colon, last, brace]
  · cases onward : readEntries fuel depth rest <;>
      simp [written, readEntries, opens, readText_written, colon, more, comma, onward]

/-- Entries that are each read are read up to the closing brace. By induction on the entries. -/
theorem readEntries_written {depth : Nat} {entries results : List (String × Json)}
    (each : EntriesReadAs depth entries results) (nonempty : entries ≠ []) {fuel : Nat}
    (enough : 2 * (compactEntries entries).length + 1 ≤ fuel) (rest : List Char) :
    readEntries fuel depth (compactEntries entries ++ '\x7d' :: rest) = some (results, rest) := by
  induction each generalizing fuel with
  | nil => exact absurd rfl nonempty
  | @cons entry result entries results here others ih =>
    obtain ⟨fuel, rfl⟩ : ∃ less, fuel = less + 1 := ⟨fuel - 1, by omega⟩
    obtain ⟨name, value⟩ := entry
    obtain ⟨_, result⟩ := result
    obtain ⟨rfl, here⟩ := here
    have here : ReadsAs depth value result := here
    cases others with
    | nil =>
      have single : compactEntries [(name, value)] = entryChars (name, value) := rfl
      rw [single, length_entryChars] at enough
      rw [single]
      exact (readEntries_entry name here (by omega) rest).1
    | @cons next nextResult entries results hereToo others =>
      have several : compactEntries ((name, value) :: next :: entries) =
          entryChars (name, value) ++ ',' :: compactEntries (next :: entries) := by
        simp [compactEntries, entryChars]
      rw [several, List.length_append, List.length_cons, length_entryChars] at enough
      have onward := ih (by simp) (by omega : _ ≤ fuel)
      rw [several, List.append_assoc, List.cons_append,
        (readEntries_entry name here (by omega) _).2, onward]
      rfl

/-- An object is read when its values are, if its names are distinct. -/
theorem ReadsAs.object {depth : Nat} {entries results : List (String × Json)}
    (each : EntriesReadAs depth entries results) (distinct : (Entries.keys results).Nodup) :
    ReadsAs (depth + 1) (.object entries) (.object results) := by
  intro fuel rest stops enough
  obtain ⟨fuel, rfl⟩ := exists_fuel_of_compactChars enough
  rw [compactChars, List.length_append, List.length_cons, List.length_singleton] at enough
  have room : 2 * (compactEntries entries).length + 1 ≤ fuel := by omega
  have written : (Json.object entries).compactChars ++ rest =
      '\x7b' :: (compactEntries entries ++ '\x7d' :: rest) := by
    simp [compactChars]
  have opens : skipSpace ('\x7b' :: (compactEntries entries ++ '\x7d' :: rest)) =
      '\x7b' :: (compactEntries entries ++ '\x7d' :: rest) := rfl
  rw [written, readValue, opens]
  cases each with
  | nil => rfl
  | @cons entry result entries results here others =>
    have read := readEntries_written (.cons here others) (by simp) room rest
    obtain ⟨chars, text⟩ : ∃ chars, compactEntries (entry :: entries) ++ '\x7d' :: rest =
        '"' :: chars := by
      cases entries <;> exact ⟨_, rfl⟩
    have visible : skipSpace ('"' :: chars) = '"' :: chars := rfl
    rw [text] at read ⊢
    simp [visible, read, Entries.ofPairs_of_nodup distinct]

/-- The compact text of a value that is read when nested no deeper than the limit is read as a
whole text. -/
theorem ReadsAs.read?_compact {json result : Json} (reads : ReadsAs depthLimit json result) :
    read? json.compact = some result := by
  have read := reads (2 * json.compactChars.length + 2) [] (by simp [Stops]) (by omega)
  rw [List.append_nil] at read
  rw [read?, compact, String.toList_ofList]
  simp [read, skipSpace]

end Json

end StructuralDiff
