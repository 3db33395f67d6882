import StructuralDiff.Decimal.Integer
import StructuralDiff.Text.Digit
import StructuralDiff.Yaml.Value

/-!
# The meaning of scalars

What a plain scalar stands for: nothing, a truth value, a number or a text, and
what the tags of these types make of a scalar.
-/

namespace StructuralDiff.Yaml.Scalar

/-- The spellings of a truth value. -/
def bool? (content : String) : Option Bool :=
  if ["true", "True", "TRUE"].contains content then some true
  else if ["false", "False", "FALSE"].contains content then some false
  else none

/-- The spellings of nothing. -/
def isNull (content : String) : Bool :=
  ["null", "Null", "NULL", "~"].contains content

/-- The number of digits in a base, at least one. -/
def digits? (base : Nat) (chars : List Char) : Option Nat :=
  if chars.isEmpty then none else Text.number? base chars

/-- The number of digits, in hexadecimal, octal or binary after a mark that says so,
and otherwise in decimal without needless zeros. -/
def natural? : List Char → Option Nat
  | '0' :: 'x' :: digits => digits? 16 digits
  | '0' :: 'o' :: digits => digits? 8 digits
  | '0' :: 'b' :: digits => digits? 2 digits
  | ['0'] => some 0
  | '0' :: _ => none
  | digits => digits? 10 digits

/-- The integer of digits after an optional sign. -/
def integer? : List Char → Option Int
  | '+' :: digits => (natural? digits).map (↑·)
  | '-' :: digits => (natural? digits).map fun value => -(value : Int)
  | digits => (natural? digits).map (↑·)

/-- The digits at the start, which may be none, and what follows them. -/
def spanDigits (chars : List Char) : List Char × List Char :=
  chars.span Char.isDigit

/-- The decimal numeral of digits with an optional fraction and an optional power of
ten: its digits and the power of its last one. At least one digit must stand before
or after the point. -/
def decimal? (chars : List Char) : Option (Nat × Int) := do
  let (whole, rest) := spanDigits chars
  let (fraction, rest) := match rest with
    | '.' :: rest => spanDigits rest
    | rest => ([], rest)
  if whole.isEmpty && fraction.isEmpty then none
  let power ← match rest with
    | [] => some 0
    | mark :: rest => if mark == 'e' || mark == 'E' then Decimal.readInteger? rest else none
  return (Nat.ofDigitChars 10 (whole ++ fraction) 0, power - fraction.length)

/-- The floating number of a numeral with an optional sign, or of a word for what is
not finite. A numeral that is too large is none. -/
def float? (chars : List Char) : Option Binary64 :=
  let (sign, unsigned) := match chars with
    | '+' :: rest => (some false, rest)
    | '-' :: rest => (some true, rest)
    | rest => (none, rest)
  let negative := sign.getD false
  if [".inf", ".Inf", ".INF"].contains (String.ofList unsigned) then
    some (Binary64.infinity negative)
  else if sign.isNone && [".nan", ".NaN", ".NAN"].contains (String.ofList unsigned) then
    some (Binary64.notANumber false)
  else
    match decimal? unsigned with
    | some (digits, power) =>
      let value := Binary64.ofDecimal negative digits power
      if value.isFinite then some value else none
    | none => none

/-- One more than the largest signed integer of 128 bits. -/
def wideBound : Nat := 1 <<< 127

/-- An integer that sixty-four bits hold. Larger ones, up to 128 bits, are refused
rather than read as something else; the outer option is none for still larger
ones. -/
def number? (value : Int) : Option (Option Number) :=
  if 0 ≤ value then
    if value < UInt64.size then some (some (Number.ofNat64 (UInt64.ofNat value.toNat)))
    else if value < 2 * wideBound then some none
    else none
  else if Number.isSigned value then some (some (.int (Int64.ofInt value)))
  else if -wideBound ≤ value then some none
  else none

/-- The integer that a scalar stands for: outside, whether it stands for one at all,
and inside, whether that one can be held. -/
def integerNumber? (content : String) : Option (Option Number) :=
  (integer? content.toList).bind number?

/-- A sign or none, and a zero before further digits: such a scalar is a text. -/
def hasNeedlessZero (content : String) : Bool :=
  let digits := match content.toList with
    | '+' :: rest | '-' :: rest => rest
    | rest => rest
  match digits with
  | '0' :: digit :: rest => (digit :: rest).all Char.isDigit
  | _ => false

/-- What a plain scalar stands for. -/
def plain? (content : String) : Option Yaml :=
  if content.isEmpty || isNull content then some .null
  else
    match bool? content with
    | some value => some (.bool value)
    | none =>
      match integerNumber? content with
      | some value => value.map .number
      | none =>
        if hasNeedlessZero content then some (.text content)
        else
          match float? content.toList with
          | some value => some (.number (.float value))
          | none => some (.text content)

/-- What a scalar with a tag stands for. The tags of the four simple types ask for
their spellings; a tag of the document's own is kept; with any other tag the scalar
is a text. -/
def tagged? (tag content : String) (plain : Bool) : Option Yaml :=
  if tag == "tag:yaml.org,2002:bool" then (bool? content).map .bool
  else if tag == "tag:yaml.org,2002:int" then (integerNumber? content).join.map .number
  else if tag == "tag:yaml.org,2002:float" then
    (float? content.toList).map fun value => .number (.float value)
  else if tag == "tag:yaml.org,2002:null" then if isNull content then some .null else none
  else if tag.toList.head? == some '!' then
    (if plain then plain? content else some (.text content)).map (.tagged (bareTag tag))
  else some (.text content)

end StructuralDiff.Yaml.Scalar
