import Mathlib
import StructuralDiff.Comparison.Pairing
import StructuralDiff.Json.Reader
import StructuralDiff.Proofs.NumberText

/-!
# The text of a key value under its identity

Key values are told apart by their JSON text and addressed by a plain text. The first
tells the second (`Policy.segmentText_eq_of_identity_eq`): the first character of a JSON
text tells the type of the value, a JSON string is read back as the text that it was
written for (`Json.readText_written`), and numbers are told by their digits. Infinities
and what is not a number are left out, since all of them are null in JSON.
-/

namespace StructuralDiff

namespace Json

/-- The characters with an escape of one letter. -/
def shortEscaped : List Char := ['"', '\\', '\n', '\r', '\t', '\x08', '\x0c']

/-- The piece that the written form of a character is read as. -/
def pieceOf (char : Char) : Piece :=
  if char.toNat < 0x20 ∧ char ∉ shortEscaped then .unit char.toNat else .char char

/-- The digits of a code point below `0x20` are read as the code point. -/
theorem number?_of_lt {code : Nat} (small : code < 0x20) :
    Text.number? 16 ['0', '0', Nat.digitChar (code / 16), Nat.digitChar (code % 16)] = some code := by
  revert code
  decide

/-- The written form of a character is read as its piece. -/
theorem readPieces_escapedChar (char : Char) (rest : List Char) :
    readPieces (escapedChar char ++ rest) =
      (readPieces rest).map fun read => (pieceOf char :: read.1, read.2) := by
  unfold escapedChar
  split
  case h_8 _ notQuote notBackslash notFeed notReturn notTab notBack notForm =>
    have notShort : char ∉ shortEscaped := by
      simp only [shortEscaped, List.mem_cons, List.not_mem_nil, or_false, not_or]
      exact ⟨notQuote, notBackslash, notFeed, notReturn, notTab, notBack, notForm⟩
    split
    · rename_i small
      simp only [pieceOf, small, notShort, not_false_eq_true, and_self, if_true]
      change readPieces ('\\' :: 'u' :: '0' :: '0' :: _ :: _ :: rest) = _
      rw [readPieces, number?_of_lt small]
      cases readPieces rest <;> rfl
    · rename_i large
      have notBackslash : (char == '\\') = false := by simpa using notBackslash
      simp only [pieceOf, large, false_and, if_false]
      change readPieces (char :: rest) = _
      rw [readPieces]
      · simp [large, notBackslash]
      all_goals simp_all
  all_goals
    simp only [List.cons_append, List.nil_append]
    rw [readPieces]
    · cases readPieces rest <;> rfl
    · simp

/-- What is written for characters, up to a closing quote, is read as their pieces. -/
theorem readPieces_written (chars rest : List Char) :
    readPieces (chars.flatMap escapedChar ++ '"' :: rest) = some (chars.map pieceOf, rest) := by
  induction chars with
  | nil => rfl
  | cons char chars ih =>
    rw [List.flatMap_cons, List.append_assoc, readPieces_escapedChar, ih]
    rfl

/-- The pieces of characters are joined to the characters. -/
theorem joinPieces_map_pieceOf (chars : List Char) :
    joinPieces (chars.map pieceOf) = some chars := by
  induction chars with
  | nil => rfl
  | cons char chars ih =>
    rw [List.map_cons]
    by_cases escaped : char.toNat < 0x20 ∧ char ∉ shortEscaped
    · have small := escaped.1
      have below : ¬ (0xD800 ≤ char.toNat ∧ char.toNat < 0xDC00) := by omega
      have belowToo : ¬ (0xDC00 ≤ char.toNat ∧ char.toNat < 0xE000) := by omega
      have noSurrogate : ¬ (0xD800 ≤ char.toNat ∧ char.toNat < 0xE000) := by omega
      rw [pieceOf, if_pos escaped]
      cases others : chars.map pieceOf with
      | nil =>
        rw [others] at ih
        rw [joinPieces]
        · simp [noSurrogate, ih, Char.ofNat_toNat]
        · simp
      | cons piece pieces =>
        rw [others] at ih
        cases piece with
        | char value =>
          rw [joinPieces]
          · simp [noSurrogate, ih, Char.ofNat_toNat]
          · simp
        | unit value =>
          rw [joinPieces, if_neg below, if_neg belowToo, ih]
          simp [Char.ofNat_toNat]
    · rw [pieceOf, if_neg escaped, joinPieces, ih]
      rfl

/-- What is written for a text, after its opening quote, is read as the text. -/
theorem readText_written (value : String) (rest : List Char) :
    readText (value.toList.flatMap escapedChar ++ '"' :: rest) = some (value, rest) := by
  simp [readText, readPieces_written, joinPieces_map_pieceOf]

/-- The JSON form of a text tells the text. -/
theorem textChars_inj {left right : String} (same : textChars left = textChars right) :
    left = right := by
  have written : left.toList.flatMap escapedChar ++ ['"'] =
      right.toList.flatMap escapedChar ++ ['"'] := List.tail_eq_of_cons_eq same
  have read := readText_written left []
  rw [written, readText_written right []] at read
  simpa using read.symm

end Json

namespace Value

mutual

/-- A property holds of every number in the value, at any depth. -/
def EveryNumber (property : Number → Prop) : Value → Prop
  | .number value => property value
  | .array items => EveryNumberOfItems property items
  | .object entries => EveryNumberOfEntries property entries
  | _ => True

/-- A property holds of every number in the items. -/
def EveryNumberOfItems (property : Number → Prop) : List Value → Prop
  | [] => True
  | item :: items => item.EveryNumber property ∧ EveryNumberOfItems property items

/-- A property holds of every number in the values of the entries. -/
def EveryNumberOfEntries (property : Number → Prop) : List (Key × Value) → Prop
  | [] => True
  | (_, value) :: entries => value.EveryNumber property ∧ EveryNumberOfEntries property entries

end

/-- What holds of every number in a value holds of every number inside it. -/
theorem EveryNumber.of_mem_parts {property : Number → Prop} {value part : Value}
    (everyNumber : value.EveryNumber property) (member : part ∈ value.parts) :
    part.EveryNumber property := by
  cases value with
  | array items =>
    have holds : EveryNumberOfItems property items := everyNumber
    have known : part ∈ items := member
    clear everyNumber member
    induction items with
    | nil => cases known
    | cons item items ih =>
      rcases List.mem_cons.1 known with rfl | later
      · exact holds.1
      · exact ih holds.2 later
  | object entries =>
    have holds : EveryNumberOfEntries property entries := everyNumber
    obtain ⟨entry, known, rfl⟩ := List.mem_map.1 member
    clear everyNumber member
    induction entries with
    | nil => cases known
    | cons first entries ih =>
      rcases List.mem_cons.1 known with rfl | later
      · exact holds.1
      · exact ih holds.2 later
  | _ => cases member

/-- The type that the first character of a JSON text stands for, as its place among the
types. -/
def typeRankOfFirst (char : Char) : Nat :=
  if char = 'n' then 0
  else if char = 't' ∨ char = 'f' then 1
  else if char = '"' then 3
  else if char = '[' then 4
  else if char = '\x7b' then 5
  else 2

/-- A number does not start as another value does. -/
theorem typeRankOfFirst_of_isDigit {char : Char} (digit : char.isDigit = true ∨ char = '-') :
    typeRankOfFirst char = 2 := by
  have apart : ∀ other : Char, other.isDigit = false → other ≠ '-' → char ≠ other := by
    rintro other notDigit notSign rfl
    rcases digit with digit | sign
    · rw [notDigit] at digit
      cases digit
    · exact notSign sign
  simp [typeRankOfFirst, apart 'n' rfl (by decide), apart 't' rfl (by decide),
    apart 'f' rfl (by decide), apart '"' rfl (by decide), apart '[' rfl (by decide),
    apart '\x7b' rfl (by decide)]

/-- The JSON text of a value without infinities starts as its type says. -/
theorem exists_first_of_inspect {value : Value} (finite : value.EveryNumber Number.IsFinite) :
    ∃ first rest, value.inspect.toList = first :: rest ∧
      typeRankOfFirst first = value.typeRank := by
  have shown : ∀ {first rest}, value.toJson.compactChars = first :: rest →
      typeRankOfFirst first = value.typeRank →
      ∃ first rest, value.inspect.toList = first :: rest ∧
        typeRankOfFirst first = value.typeRank := by
    intro first rest written rank
    exact ⟨first, rest, by rw [inspect, Json.compact, String.toList_ofList, written], rank⟩
  cases value with
  | null => exact shown rfl rfl
  | bool value => cases value <;> exact shown rfl rfl
  | text value => exact shown rfl rfl
  | array items => exact shown rfl rfl
  | object entries => exact shown rfl rfl
  | number number =>
    rcases number.integer_or_float_of_isFinite finite with
      ⟨integer, -, -, inspected⟩ | ⟨value, -, -, inspected⟩
    · rw [inspected]
      have some : (Decimal.integerText integer).toList ≠ [] := by
        simp [Decimal.integerText, Decimal.integerChars]
      obtain ⟨first, rest, written⟩ := List.exists_cons_of_ne_nil some
      have known : first ∈ (Decimal.integerText integer).toList := by
        rw [written]
        exact List.mem_cons_self
      have digit := Number.isDigit_or_eq_of_mem_integerText known
      exact ⟨first, rest, written, typeRankOfFirst_of_isDigit digit⟩
    · rw [inspected, Binary64.toList_write]
      obtain ⟨digit, rest, written, isDigit⟩ :=
        Decimal.exists_digit_of_write (Decimal.fine_shortest value)
      rw [written]
      split
      · exact ⟨'-', digit :: rest, rfl, rfl⟩
      · exact ⟨digit, rest, rfl, typeRankOfFirst_of_isDigit (.inl isDigit)⟩

/-- Values that are alike in JSON have one text in a path. -/
theorem segmentText_eq_of_inspect_eq {left right : Value}
    (finite : left.EveryNumber Number.IsFinite) (finiteToo : right.EveryNumber Number.IsFinite)
    (same : left.inspect = right.inspect) : left.segmentText = right.segmentText := by
  have types : left.typeRank = right.typeRank := by
    obtain ⟨first, rest, written, rank⟩ := exists_first_of_inspect finite
    obtain ⟨firstToo, restToo, writtenToo, rankToo⟩ := exists_first_of_inspect finiteToo
    rw [same, writtenToo] at written
    rw [← rank, ← rankToo, (List.cons.inj written).1]
  cases left <;> cases right <;> first
    | simp [typeRank] at types; done
    | skip
  case null => rfl
  case bool first second =>
    -- The text of a truth value is the one in JSON.
    have written : ∀ value : Bool, (Value.bool value).inspect = boolText value := by decide
    rw [written, written] at same
    exact same
  case number first second => exact Number.text_eq_of_inspect_eq finite finiteToo same
  case text first second =>
    have chars := congrArg String.toList same
    simp only [inspect, toJson, Json.compact, Json.compactChars, String.toList_ofList] at chars
    exact Json.textChars_inj chars
  case array => exact same
  case object => exact same

/-- The text of a value in a path is that of its canonical form. -/
theorem segmentText_canonicalScalar (value : Value) :
    value.canonicalScalar.segmentText = value.segmentText := by
  cases value <;> rfl

/-- The canonical form of a scalar has no other numbers. -/
theorem EveryNumber.canonicalScalar {property : Number → Prop} {value : Value}
    (everyNumber : value.EveryNumber property) : value.canonicalScalar.EveryNumber property := by
  cases value with
  | bool value => trivial
  | number value => trivial
  | _ => exact everyNumber

end Value

/-- Key values of one identity have one text in a path. -/
theorem Policy.segmentText_eq_of_identity_eq (policy : Policy) {left right : Value}
    (finite : left.EveryNumber Number.IsFinite) (finiteToo : right.EveryNumber Number.IsFinite)
    (same : policy.identity left = policy.identity right) : left.segmentText = right.segmentText := by
  unfold Policy.identity at same
  split at same
  · have texts := Value.segmentText_eq_of_inspect_eq finite.canonicalScalar
      finiteToo.canonicalScalar same
    rwa [Value.segmentText_canonicalScalar, Value.segmentText_canonicalScalar] at texts
  · exact Value.segmentText_eq_of_inspect_eq finite finiteToo same

end StructuralDiff
