/-!
# Parts of a text

A text as the parts between the occurrences of a separator. Putting the separator
back between the parts gives the text.
-/

namespace StructuralDiff.Text

/-- The parts between the separators; always at least one. -/
def split (separator : Char) : List Char → List (List Char)
  | [] => [[]]
  | char :: rest =>
    if char = separator then [] :: split separator rest
    else
      match split separator rest with
      | part :: parts => (char :: part) :: parts
      | [] => [[char]]

/-- There is always a part. -/
theorem split_ne_nil (separator : Char) (chars : List Char) : split separator chars ≠ [] := by
  fun_induction split separator chars <;> simp

/-- The parts with the separator between them are the text. -/
theorem intercalate_split (separator : Char) (chars : List Char) :
    [separator].intercalate (split separator chars) = chars := by
  induction chars with
  | nil => simp [split, List.intercalate]
  | cons char rest ih =>
    have some := split_ne_nil separator rest
    by_cases same : char = separator
    · cases parts : split separator rest with
      | nil => exact absurd parts some
      | cons part others => simp_all [split, List.intercalate]
    · cases parts : split separator rest with
      | nil => exact absurd parts some
      | cons part others =>
        cases others <;> simp_all [split, List.intercalate]

/-- No part holds a separator. -/
theorem notMem_of_mem_split {separator : Char} {chars part : List Char}
    (member : part ∈ split separator chars) : separator ∉ part := by
  induction chars generalizing part with
  | nil => simp_all [split]
  | cons char rest ih =>
    have some := split_ne_nil separator rest
    unfold split at member
    split at member
    · rcases List.mem_cons.1 member with rfl | member
      · simp
      · exact ih member
    · cases parts : split separator rest <;> grind

/-- The parts are those that the library's function for lists finds. -/
theorem split_eq_splitOn (separator : Char) (chars : List Char) :
    split separator chars = chars.splitOn separator := by
  induction chars with
  | nil => simp [split]
  | cons char rest ih =>
    rw [split, List.splitOn_cons_eq_if_modifyHead, ih]
    by_cases same : char = separator
    · simp [same]
    · have some := List.splitOn_ne_nil separator rest
      cases parts : rest.splitOn separator <;> simp_all

/-- Parts without the separator come back when the text that they make is split. -/
theorem split_intercalate {separator : Char} {parts : List (List Char)} (some : parts ≠ [])
    (clear : ∀ part ∈ parts, separator ∉ part) :
    split separator ([separator].intercalate parts) = parts := by
  rw [split_eq_splitOn]
  exact List.splitOn_intercalate separator clear some

/-- The lines of a text. -/
def lines (text : String) : List String :=
  (split '\n' text.toList).map String.ofList

/-- Lines with a line feed between them. -/
def joinLines (lines : List String) : String :=
  "\n".intercalate lines

end StructuralDiff.Text
