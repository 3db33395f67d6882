/-!
# Digits and code points

The value of a digit in the bases up to sixteen, the number that digits stand for,
and the character of a code point.
-/

namespace StructuralDiff.Text

/-- The value of a hexadecimal digit. -/
def hexDigit? (char : Char) : Option Nat :=
  if char.isDigit then some (char.toNat - '0'.toNat)
  else if 'a' ≤ char ∧ char ≤ 'f' then some (char.toNat - 'a'.toNat + 10)
  else if 'A' ≤ char ∧ char ≤ 'F' then some (char.toNat - 'A'.toNat + 10)
  else none

/-- The value of a digit in a base up to sixteen. -/
def digit? (base : Nat) (char : Char) : Option Nat :=
  (hexDigit? char).filter (· < base)

/-- The number that digits in a base stand for. No digits at all stand for zero. -/
def number? (base : Nat) (chars : List Char) : Option Nat :=
  chars.foldlM (fun value char => (digit? base char).map (base * value + ·)) 0

/-- The character of a code point; surrogates and numbers beyond Unicode have none. -/
def ofCodePoint? (code : Nat) : Option Char :=
  if code.isValidChar then some (Char.ofNat code) else none

/-- A digit of a base is less than the base. -/
theorem lt_of_digit? {base value : Nat} {char : Char} (known : digit? base char = some value) :
    value < base := by
  simp only [digit?, Option.filter_eq_some_iff, decide_eq_true_eq] at known
  exact known.2

/-- A character that comes from a code point has that code point. -/
theorem toNat_of_ofCodePoint? {code : Nat} {char : Char} (known : ofCodePoint? code = some char) :
    char.toNat = code := by
  unfold ofCodePoint? at known
  split at known
  · rename_i valid
    cases known
    rw [Char.ofNat, dif_pos valid]
    rfl
  · cases known

/-- Every hexadecimal digit has its value. -/
example : "0123456789abcdef".toList.map hexDigit? = (List.range 16).map some := by decide

end StructuralDiff.Text
