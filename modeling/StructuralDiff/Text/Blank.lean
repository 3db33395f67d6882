/-!
# Blank characters

Which characters are blank, and how blank characters are cut off the ends of a
text. Blank means the Unicode property `White_Space`: twenty-five characters,
among them the no-break space and the ideographic space, but neither the
zero-width space nor the byte-order mark.
-/

namespace StructuralDiff.Text

/-- The code points of the Unicode property `White_Space`, as closed ranges. -/
def blankRanges : List (Nat × Nat) :=
  [(0x09, 0x0D), (0x20, 0x20), (0x85, 0x85), (0xA0, 0xA0), (0x1680, 0x1680),
   (0x2000, 0x200A), (0x2028, 0x2029), (0x202F, 0x202F), (0x205F, 0x205F), (0x3000, 0x3000)]

/-- A character is blank when its code point lies in one of `blankRanges`. -/
def isBlank (char : Char) : Bool :=
  blankRanges.any fun range => range.1 ≤ char.toNat && char.toNat ≤ range.2

/-- The characters from the first one on that is not blank. -/
def dropLeadingBlanks (chars : List Char) : List Char :=
  chars.dropWhile isBlank

/-- The characters up to the last one that is not blank. -/
def dropTrailingBlanks (chars : List Char) : List Char :=
  (chars.reverse.dropWhile isBlank).reverse

/-- The characters from the first to the last one that is not blank. -/
def trimChars (chars : List Char) : List Char :=
  dropTrailingBlanks (dropLeadingBlanks chars)

/-- A text without the blank characters at its two ends. -/
def trim (text : String) : String :=
  String.ofList (trimChars text.toList)

/-- A text without the blank characters at its start. -/
def trimStart (text : String) : String :=
  String.ofList (dropLeadingBlanks text.toList)

/-- A text without the blank characters at its end. -/
def trimEnd (text : String) : String :=
  String.ofList (dropTrailingBlanks text.toList)

/-- A text is blank when trimming leaves nothing of it. -/
def allBlank (text : String) : Bool :=
  text.toList.all isBlank

/-- Every character that the core library calls white space is blank. -/
theorem isBlank_of_isWhitespace {char : Char} (white : char.isWhitespace) : isBlank char := by
  simp only [Char.isWhitespace, Bool.or_eq_true, decide_eq_true_eq] at white
  rcases white with ((rfl | rfl) | rfl) | rfl <;> decide

/-- The printed characters of ASCII are not blank, the space apart. -/
theorem isBlank_of_printed {char : Char} (low : 0x20 < char.toNat) (high : char.toNat < 0x7F) :
    isBlank char = false := by
  simp only [isBlank, blankRanges, List.any_cons, List.any_nil, Bool.or_false, Bool.or_eq_false_iff,
    Bool.and_eq_false_iff, decide_eq_false_iff_not]
  omega

/-- A digit is not blank. -/
theorem isBlank_of_isDigit {char : Char} (digit : char.isDigit = true) : isBlank char = false := by
  have low : 48 ≤ char.toNat ∧ char.toNat ≤ 57 := by
    simpa [Char.isDigit, UInt32.le_iff_toNat_le] using digit
  exact isBlank_of_printed (by omega) (by omega)

/-- What is left after trimming was there before. -/
theorem mem_of_mem_trimChars {chars : List Char} {char : Char} (member : char ∈ trimChars chars) :
    char ∈ chars := by
  unfold trimChars dropTrailingBlanks dropLeadingBlanks at member
  rw [List.mem_reverse] at member
  have kept := (List.dropWhile_sublist _).mem member
  rw [List.mem_reverse] at kept
  exact (List.dropWhile_sublist _).mem kept

/-- Nothing blank at the start, nothing to drop there. -/
theorem dropWhile_isBlank_of_clear {chars : List Char}
    (clear : ∀ char ∈ chars, isBlank char = false) : chars.dropWhile isBlank = chars := by
  cases chars with
  | nil => rfl
  | cons char rest => simp [clear char (by simp)]

/-- Trimming changes nothing where nothing is blank. -/
theorem trimChars_of_clear {chars : List Char} (clear : ∀ char ∈ chars, isBlank char = false) :
    trimChars chars = chars := by
  unfold trimChars dropTrailingBlanks dropLeadingBlanks
  have clearBackwards : ∀ char ∈ chars.reverse, isBlank char = false := by
    intro char member
    exact clear char (List.mem_reverse.1 member)
  rw [dropWhile_isBlank_of_clear clear, dropWhile_isBlank_of_clear clearBackwards,
    List.reverse_reverse]

/-- The property holds of exactly twenty-five code points. -/
example : (blankRanges.map fun range => range.2 + 1 - range.1).sum = 25 := by decide

end StructuralDiff.Text
