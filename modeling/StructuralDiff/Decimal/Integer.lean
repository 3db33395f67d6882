/-!
# Integers in decimal

The written form of an integer: a minus sign where needed, then the digits
without leading zeros.
-/

namespace StructuralDiff

namespace Decimal

/-- The characters of an integer in decimal. -/
def integerChars (value : Int) : List Char :=
  (if value < 0 then ['-'] else []) ++ Nat.toDigits 10 value.natAbs

/-- An integer in decimal. -/
def integerText (value : Int) : String :=
  String.ofList (integerChars value)

/-- A natural number in decimal. -/
def naturalText (value : Nat) : String :=
  String.ofList (Nat.toDigits 10 value)

/-- The text of a natural number tells it. -/
theorem naturalText_inj {left right : Nat} (same : naturalText left = naturalText right) :
    left = right := by
  have digits : Nat.toDigits 10 left = Nat.toDigits 10 right := by
    simpa [naturalText] using congrArg String.toList same
  rw [← Nat.ofDigitChars_ten_toDigits (n := left), digits, Nat.ofDigitChars_ten_toDigits]

/-- The natural number of decimal digits, at least one and nothing else. -/
def readNatural? (chars : List Char) : Option Nat :=
  if chars.isEmpty || !chars.all Char.isDigit then none else some (Nat.ofDigitChars 10 chars 0)

/-- The integer of decimal digits after an optional sign. -/
def readInteger? : List Char → Option Int
  | '+' :: digits => (readNatural? digits).map (↑·)
  | '-' :: digits => (readNatural? digits).map fun value => -(value : Int)
  | digits => (readNatural? digits).map (↑·)

/-- The text of a natural number consists of digits. -/
theorem isDigit_of_mem_naturalText {value : Nat} {char : Char}
    (member : char ∈ (naturalText value).toList) : char.isDigit = true := by
  rw [naturalText, String.toList_ofList] at member
  exact Nat.isDigit_of_mem_toDigits (by decide) (by decide) member

/-- The text of a natural number is read as the number. -/
theorem readInteger?_naturalText (value : Nat) :
    readInteger? (naturalText value).toList = some (value : Int) := by
  have some : (naturalText value).toList ≠ [] := by simp [naturalText, Nat.toDigits_ne_nil]
  have digits : (naturalText value).toList.all Char.isDigit = true :=
    List.all_eq_true.2 fun char member => isDigit_of_mem_naturalText member
  have number : Nat.ofDigitChars 10 (naturalText value).toList 0 = value := by
    rw [naturalText, String.toList_ofList, Nat.ofDigitChars_ten_toDigits]
  unfold readInteger?
  split
  · rename_i signed
    simp [signed] at digits
  · rename_i signed
    simp [signed] at digits
  · simp [readNatural?, some, digits, number]

end Decimal

end StructuralDiff
