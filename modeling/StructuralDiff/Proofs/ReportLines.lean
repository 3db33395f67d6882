import Mathlib
import StructuralDiff.Proofs.Addresses
import StructuralDiff.Proofs.JsonTokens
import StructuralDiff.Proofs.PathText

/-!
# What stands on one line

Reports put the path of a difference and the compact texts of its values on lines. No path
that a comparison comes by has a blank in it (`Comparison.isBlank_of_mem_path`), and no
compact text has a line feed, whatever its content, or a blank at its end
(`Value.notMem_inspect`, `Value.endsSolid_inspect`). So the lines of a report are the lines
that were put into it (`Text.lines_joinLines`).
-/

namespace StructuralDiff

/-! ## Joined lists -/

section Joined

variable {α : Type}

/-- What is in a joined list is in the separator or in a part. -/
theorem mem_of_mem_intercalate {separator : List α} {parts : List (List α)} {item : α}
    (member : item ∈ separator.intercalate parts) :
    item ∈ separator ∨ ∃ part ∈ parts, item ∈ part := by
  induction parts with
  | nil => cases member
  | cons part parts ih =>
    by_cases last : parts = []
    · rw [last, List.intercalate_singleton] at member
      exact .inr ⟨part, List.mem_cons_self, member⟩
    · rw [List.intercalate_cons_of_ne_nil last, List.mem_append, List.mem_append] at member
      rcases member with (here | between) | behind
      · exact .inr ⟨part, List.mem_cons_self, here⟩
      · exact .inl between
      · rcases ih behind with between | ⟨other, known, inside⟩
        · exact .inl between
        · exact .inr ⟨other, List.mem_cons_of_mem _ known, inside⟩

/-- Parts behind others are joined behind a separator. -/
theorem intercalate_append (separator : List α) {parts others : List (List α)}
    (nonempty : parts ≠ []) (nonemptyToo : others ≠ []) :
    separator.intercalate (parts ++ others) =
      separator.intercalate parts ++ separator ++ separator.intercalate others := by
  induction parts with
  | nil => exact absurd rfl nonempty
  | cons part parts ih =>
    by_cases last : parts = []
    · rw [last, List.singleton_append, List.intercalate_cons_of_ne_nil nonemptyToo,
        List.intercalate_singleton]
    · rw [List.cons_append, List.intercalate_cons_of_ne_nil (by simp [last]),
        List.intercalate_cons_of_ne_nil last, ih last]
      simp only [List.append_assoc]

/-- A joined list is not empty when it has a part and no part is empty. -/
theorem intercalate_ne_nil (separator : List α) {parts : List (List α)} (nonempty : parts ≠ [])
    (filled : ∀ part ∈ parts, part ≠ []) : separator.intercalate parts ≠ [] := by
  obtain ⟨part, others, rfl⟩ := List.exists_cons_of_ne_nil nonempty
  have first : part ≠ [] := filled part List.mem_cons_self
  cases others <;> simp [List.intercalate_cons_cons, first]

end Joined

namespace Text

/-- The characters of joined lines. -/
theorem toList_joinLines (lines : List String) :
    (joinLines lines).toList = ['\n'].intercalate (lines.map String.toList) := by
  simp [joinLines, String.toList_intercalate]

/-- Lines without line feeds come back when the text that they make is divided into lines. -/
theorem lines_joinLines {lines : List String} (nonempty : lines ≠ [])
    (single : ∀ line ∈ lines, '\n' ∉ line.toList) : Text.lines (joinLines lines) = lines := by
  rw [Text.lines, toList_joinLines, split_intercalate (by simpa using nonempty)
    (by simpa using single), List.map_map]
  simp [Function.comp_def]

/-- There is no blank at the end. -/
def EndsSolid (chars : List Char) : Prop :=
  ∀ last ∈ chars.getLast?, isBlank last = false

/-- What ends in a visible character has no blank at the end. -/
theorem endsSolid_append_singleton {front : List Char} {last : Char}
    (solid : isBlank last = false) : EndsSolid (front ++ [last]) := by
  simpa [EndsSolid] using solid

/-- Where nothing is blank, there is no line feed and no space. -/
theorem notMem_of_clear {chars : List Char} (clear : ∀ char ∈ chars, isBlank char = false) :
    '\n' ∉ chars ∧ ' ' ∉ chars :=
  ⟨fun member => absurd (clear _ member) (by decide),
    fun member => absurd (clear _ member) (by decide)⟩

end Text

/-- Findings in which something was found have differences. -/
theorem Findings.items_ne_nil {findings : Findings} (found : findings.isEmpty = false) :
    findings.items ≠ [] :=
  List.isEmpty_eq_false_iff.1 found

/-! ## Compact texts -/

namespace Json

/-- The characters of a word are visible. -/
theorem isBlank_of_isWordChar {char : Char} (inWord : isWordChar char = true) :
    Text.isBlank char = false :=
  Text.isBlank_of_printed (printed_of_isWordChar inWord).1 (printed_of_isWordChar inWord).2

/-- No control character is written for a text, whatever the text holds. -/
theorem not_control_textChars {value : String} {char : Char} (member : char ∈ textChars value) :
    0x20 ≤ char.toNat := by
  obtain ⟨written, whole, clear, -⟩ := exists_written_of_readText (readText_written value [])
  rw [textChars, List.cons_append, List.mem_cons, whole, List.mem_append,
    List.mem_singleton] at member
  rcases member with rfl | inside | rfl
  · decide
  · exact clear char inside
  · decide

/-- Nor is one written between signs, with commas between parts that have none. -/
theorem not_control_enclosed {first last : Char} (opens : 0x20 ≤ first.toNat)
    (closes : 0x20 ≤ last.toNat) {parts : List (List Char)}
    (clear : ∀ part ∈ parts, ∀ char ∈ part, 0x20 ≤ char.toNat) :
    ∀ char ∈ first :: [','].intercalate parts ++ [last], 0x20 ≤ char.toNat := by
  intro char member
  rw [List.mem_append, List.mem_cons, List.mem_singleton] at member
  rcases member with (rfl | inside) | rfl
  · exact opens
  · rcases mem_of_mem_intercalate inside with comma | ⟨part, known, member⟩
    · cases List.mem_singleton.1 comma
      decide
    · exact clear part known char member
  · exact closes

/-- No control character is written in the compact form. -/
theorem not_control_compactChars (json : Json) :
    ∀ char ∈ json.compactChars, 0x20 ≤ char.toNat := by
  induction json using parts_induction with
  | bare json bare =>
    intro char member
    exact (printed_of_isWordChar (bare.isWord.2 char member)).1.le
  | text value => exact fun char member => not_control_textChars member
  | array items ih =>
    rw [compactChars, compactItems_eq]
    apply not_control_enclosed (by decide) (by decide)
    exact List.forall_mem_map.2 ih
  | object entries ih =>
    rw [compactChars, compactEntries_eq]
    apply not_control_enclosed (by decide) (by decide)
    refine List.forall_mem_map.2 fun entry known char member => ?_
    rw [entryChars, List.mem_append, List.mem_cons] at member
    rcases member with name | rfl | value
    · exact not_control_textChars name
    · decide
    · exact ih entry known char value

end Json

namespace Value

/-- The characters of a compact text. -/
theorem toList_inspect (value : Value) : value.inspect.toList = value.toJson.compactChars := by
  rw [inspect, Json.compact, String.toList_ofList]

/-- A compact text is one line. -/
theorem notMem_inspect (value : Value) : '\n' ∉ value.inspect.toList := by
  rw [toList_inspect]
  intro member
  exact absurd (value.toJson.not_control_compactChars '\n' member) (by decide)

end Value

/-! ## Paths -/

/-- The text of a built path has no blank in it: no segment that can be read back has one. -/
theorem Path.Built.clear {path : Path} (built : path.Built) :
    ∀ char ∈ path.text.toList, Text.isBlank char = false := by
  intro char member
  rw [toList_text, List.mem_cons] at member
  rcases member with rfl | inside
  · decide
  · rcases mem_of_mem_intercalate inside with between | ⟨part, known, member⟩
    · cases List.mem_singleton.1 between
      decide
    · obtain ⟨segment, inPath, rfl⟩ := List.mem_map.1 known
      exact (built_iff.1 built segment inPath).clear char member

namespace Comparison

variable {policy : Policy} {reference candidate : Value}

/-- Values that stand for each other do so at a path that was built. -/
theorem Meets.built {path : Path} {left right : Value}
    (meets : Meets policy reference candidate path left right) : path.Built := by
  induction meets with
  | start => exact Path.root_built
  | onward above shown planned member joined ih => exact ih.join joined

/-- A comparison comes by built paths only. -/
theorem Visits.built {place : Path} (visits : Visits policy reference candidate place) :
    place.Built := by
  cases visits with
  | root => exact Path.root_built
  | below above shown planned member joined => exact above.built.join joined

/-- A recorded difference has no blank in its path. -/
theorem isBlank_of_mem_path {findings : Findings}
    (done : perform policy reference candidate = .ok findings) {difference : Difference}
    (member : difference ∈ findings.items) :
    ∀ char ∈ difference.path.toList, Text.isBlank char = false := by
  have found := (items_prefix_of_perform done).subset member
  obtain ⟨place, arises⟩ := exists_place_of_mem_walk .start found
  rw [arises.path_eq]
  exact arises.visits.built.clear

end Comparison

end StructuralDiff
