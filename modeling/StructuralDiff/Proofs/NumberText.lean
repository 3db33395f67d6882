import Mathlib
import StructuralDiff.Json.Printer
import StructuralDiff.Proofs.NumberOrder

/-!
# What the text of a number tells

The written form of a decimal tells its value (`Decimal.value_eq_of_write_eq`), and the
shortest decimal of a number lies among the values that round to the number, which are
those of no other number (`Decimal.magnitude_eq_of_value_eq`). So the JSON text of a
finite floating number that is no integer tells the number, and no integer has that text.
-/

namespace StructuralDiff

namespace Decimal

/-- The value of a decimal whose exponent is not below `-1074`, in units of `10 ^ -1074`. -/
def value (decimal : Decimal) : Nat :=
  decimal.digits * 10 ^ (decimal.exponent + 1074).toNat

/-! ## Values that round to a number -/

/-- Greater magnitudes have greater values. -/
theorem gridUnits_strictMono : StrictMono gridUnits := by
  intro first second less
  unfold gridUnits
  generalize 1074 = level
  exact Nat.mul_lt_mul_of_pos_right (Binary64.unitsOfMagnitude_strictMono less)
    (Nat.pow_pos (by decide))

/-- A number lies among the values that round to it. -/
theorem holds_around_self {magnitude : Nat} (positive : 0 < magnitude) :
    (Interval.around magnitude).holds (2 * gridUnits magnitude) = true := by
  have below := gridUnits_strictMono (Nat.sub_lt positive Nat.one_pos)
  have above := gridUnits_strictMono (Nat.lt_succ_self magnitude)
  rw [Nat.succ_eq_add_one] at above
  unfold Interval.holds Interval.around
  split <;> simp only [Bool.and_eq_true, decide_eq_true_eq] <;> omega

/-- What rounds to a number lies between the midpoints with its neighbours, and on one of
them only if the number is even. -/
theorem bounds_of_holds_around {magnitude doubled : Nat}
    (holds : (Interval.around magnitude).holds doubled = true) :
    gridUnits (magnitude - 1) + gridUnits magnitude ≤ doubled ∧
      doubled ≤ gridUnits magnitude + gridUnits (magnitude + 1) ∧
      (magnitude % 2 = 1 → gridUnits (magnitude - 1) + gridUnits magnitude < doubled ∧
        doubled < gridUnits magnitude + gridUnits (magnitude + 1)) := by
  unfold Interval.holds Interval.around at holds
  split at holds <;> rename_i parity <;>
    simp only [Bool.and_eq_true, decide_eq_true_eq, beq_iff_eq] at holds parity <;> omega

/-- No value rounds to two numbers, one below the other: only the midpoint of neighbours
could, and one of two neighbours is odd. -/
theorem not_holds_around_of_lt {first second doubled : Nat} (less : first < second)
    (holds : (Interval.around first).holds doubled = true) :
    (Interval.around second).holds doubled = false := by
  by_contra both
  obtain ⟨-, high, strict⟩ := bounds_of_holds_around holds
  obtain ⟨low, -, strictToo⟩ := bounds_of_holds_around (Bool.eq_true_of_not_eq_false both)
  have step := gridUnits_strictMono.monotone (show first ≤ second - 1 by omega)
  have stepToo := gridUnits_strictMono.monotone (show first + 1 ≤ second by omega)
  have neighbours : second = first + 1 := by
    by_contra apart
    have far := gridUnits_strictMono (show first < second - 1 by omega)
    omega
  subst neighbours
  rw [Nat.add_sub_cancel] at low strictToo step
  rcases Nat.mod_two_eq_zero_or_one first with even | odd
  · have bounds := strictToo (by omega)
    omega
  · have bounds := strict odd
    omega

/-- The shortest decimal of a positive magnitude is one of the values that round to it. -/
theorem holds_value_ofMagnitude {magnitude : Nat} (positive : 0 < magnitude) :
    (Interval.around magnitude).holds (2 * (ofMagnitude magnitude).value) = true := by
  have kept : ∀ found : Nat × Nat, 2 * (Decimal.mk found.1 ((found.2 : Int) - 1074)).value =
      found.1 * (2 * Nat.pow 10 found.2) := by
    rintro ⟨point, level⟩
    have scale : ((level : Int) - 1074 + 1074).toNat = level := by omega
    simp only [value, scale]
    rw [Nat.mul_left_comm]
    rfl
  unfold ofMagnitude
  dsimp only
  rw [kept]
  exact holds_of_coarsest _ (holds_around_self positive)

/-- A value rounds to one number only. -/
theorem magnitude_eq_of_holds {first second doubled : Nat}
    (holds : (Interval.around first).holds doubled = true)
    (holdsToo : (Interval.around second).holds doubled = true) : first = second := by
  rcases Nat.lt_trichotomy first second with less | equal | greater
  · rw [not_holds_around_of_lt less holds] at holdsToo
    cases holdsToo
  · exact equal
  · rw [not_holds_around_of_lt greater holdsToo] at holds
    cases holds

/-- Shortest decimals of one value belong to one magnitude. -/
theorem magnitude_eq_of_value_eq {first second : Nat} (positive : 0 < first)
    (positiveToo : 0 < second) (same : (ofMagnitude first).value = (ofMagnitude second).value) :
    first = second := by
  have holds := holds_value_ofMagnitude positive
  rw [same] at holds
  exact magnitude_eq_of_holds holds (holds_value_ofMagnitude positiveToo)

/-! ## Written forms -/

/-- The digits of a decimal are digits. -/
theorem isDigit_of_mem_digitChars {decimal : Decimal} {char : Char}
    (member : char ∈ decimal.digitChars) : char.isDigit = true :=
  Nat.isDigit_of_mem_toDigits (by decide) (by decide) member

/-- A character that is no digit is none among digits. -/
theorem notMem_of_isDigit {chars : List Char} (digits : ∀ char ∈ chars, char.isDigit = true)
    {char : Char} (other : char.isDigit = false) : char ∉ chars := by
  intro member
  rw [digits char member] at other
  cases other

/-- A decimal with its point in place has digits on both sides of the point. -/
structure Pointed (decimal : Decimal) (front back : List Char) : Prop where
  text : decimal.inPlace true = front ++ '.' :: back
  digits : ∀ char ∈ front ++ back, char.isDigit = true
  full : front ≠ []
  value : decimal.value = Nat.ofDigitChars 10 (front ++ back) 0 * 10 ^ (1074 - back.length)

/-- Zeros are digits. -/
theorem isDigit_of_mem_replicate {count : Nat} {char : Char}
    (member : char ∈ List.replicate count '0') : char.isDigit = true := by
  rw [List.eq_of_mem_replicate member]
  rfl

/-- The digits of a decimal are read back. -/
theorem ofDigitChars_digitChars (decimal : Decimal) :
    Nat.ofDigitChars 10 decimal.digitChars 0 = decimal.digits :=
  Nat.ofDigitChars_ten_toDigits

theorem digitChars_ne_nil (decimal : Decimal) : decimal.digitChars ≠ [] :=
  List.ne_nil_of_length_pos Nat.length_toDigits_pos

/-- A decimal without places after the point is filled up with zeros. -/
theorem pointed_of_whole {decimal : Decimal} (whole : 0 ≤ decimal.exponent) :
    decimal.Pointed (decimal.digitChars ++ List.replicate decimal.exponent.toNat '0') ['0'] where
  text := by simp [inPlace, whole]
  digits := by
    intro char member
    simp only [List.mem_append, List.mem_singleton] at member
    rcases member with (digit | zero) | rfl
    · exact isDigit_of_mem_digitChars digit
    · exact isDigit_of_mem_replicate zero
    · rfl
  full := by simp [digitChars_ne_nil]
  value := by
    have exponent : (decimal.exponent + 1074).toNat = decimal.exponent.toNat + 1 + 1073 := by omega
    have places : 1074 - ['0'].length = 1073 := rfl
    have last : ∀ number, Nat.ofDigitChars 10 ['0'] number = 10 * number := by
      intro number
      simp [Nat.ofDigitChars_cons]
    rw [Nat.ofDigitChars_append, Nat.ofDigitChars_append, ofDigitChars_digitChars,
      Nat.ofDigitChars_replicate_zero, last, Decimal.value, exponent, places]
    generalize 1073 = places
    ring

/-- A decimal whose point is among its digits has the digits in front of it and the digits
behind it. -/
theorem pointed_of_inside {decimal : Decimal} (fine : -1074 ≤ decimal.exponent)
    (notWhole : ¬ 0 ≤ decimal.exponent) {count : Nat}
    (countIs : (count : Int) = decimal.digitChars.length + decimal.exponent)
    (inside : 0 < count) :
    decimal.Pointed (decimal.digitChars.take count) (decimal.digitChars.drop count) where
  text := by
    simp only [inPlace, notWhole, if_false, ← countIs, Int.toNat_natCast]
    rw [if_pos (by omega)]
  digits := by
    rw [List.take_append_drop]
    exact fun char => isDigit_of_mem_digitChars
  full := List.ne_nil_of_length_pos (by rw [List.length_take]; omega)
  value := by
    rw [List.take_append_drop, ofDigitChars_digitChars, Decimal.value, List.length_drop]
    congr 2
    omega

/-- A decimal whose point is in front of its digits has zeros between them. -/
theorem pointed_of_fraction {decimal : Decimal} (fine : -1074 ≤ decimal.exponent) {count : Nat}
    (countIs : (count : Int) = -(decimal.digitChars.length + decimal.exponent)) :
    decimal.Pointed ['0'] (List.replicate count '0' ++ decimal.digitChars) where
  text := by
    have some : 0 < decimal.digitChars.length := List.length_pos_of_ne_nil decimal.digitChars_ne_nil
    have notWhole : ¬ 0 ≤ decimal.exponent := by omega
    have notInside : ¬ 0 < decimal.digitChars.length + decimal.exponent := by omega
    simp only [inPlace, notWhole, notInside, if_false, ← countIs, Int.toNat_natCast]
    rfl
  digits := by
    intro char member
    simp only [List.mem_append, List.mem_singleton] at member
    rcases member with rfl | zero | digit
    · rfl
    · exact isDigit_of_mem_replicate zero
    · exact isDigit_of_mem_digitChars digit
  full := by simp
  value := by
    have front : Nat.ofDigitChars 10 ['0'] 0 = 0 := by decide
    rw [Nat.ofDigitChars_append, Nat.ofDigitChars_append, front, Nat.ofDigitChars_replicate_zero,
      Nat.mul_zero, ofDigitChars_digitChars, Decimal.value, List.length_append,
      List.length_replicate]
    congr 2
    omega

/-- A decimal can be written with its point in place. -/
theorem exists_pointed {decimal : Decimal} (fine : -1074 ≤ decimal.exponent) :
    ∃ front back, decimal.Pointed front back := by
  by_cases whole : 0 ≤ decimal.exponent
  · exact ⟨_, _, pointed_of_whole whole⟩
  · by_cases inside : 0 < decimal.digitChars.length + decimal.exponent
    · obtain ⟨count, countIs⟩ := Int.eq_ofNat_of_zero_le (Int.le_of_lt inside)
      exact ⟨_, _, pointed_of_inside fine whole countIs.symm (by omega)⟩
    · obtain ⟨count, countIs⟩ := Int.eq_ofNat_of_zero_le
        (show 0 ≤ -(decimal.digitChars.length + decimal.exponent) by omega)
      exact ⟨_, _, pointed_of_fraction fine countIs.symm⟩

/-- Decimals that are written alike with their points in place have one value. -/
theorem value_eq_of_inPlace_eq {first second : Decimal} (fine : -1074 ≤ first.exponent)
    (fineToo : -1074 ≤ second.exponent) (same : first.inPlace true = second.inPlace true) :
    first.value = second.value := by
  obtain ⟨front, back, pointed⟩ := exists_pointed fine
  obtain ⟨frontToo, backToo, pointedToo⟩ := exists_pointed fineToo
  have noPoint : '.' ∉ front ++ back := notMem_of_isDigit pointed.digits rfl
  rw [List.mem_append, not_or] at noPoint
  rw [pointed.text, pointedToo.text] at same
  obtain ⟨rfl, -, rfl⟩ := (List.append_cons_inj_of_notMem noPoint.1 noPoint.2).1 same
  rw [pointed.value, pointedToo.value]

/-- The digits of a decimal with a point after the first. -/
def mantissa (decimal : Decimal) : List Char :=
  match decimal.digitChars with
  | [] => []
  | [digit] => [digit]
  | digit :: rest => digit :: '.' :: rest

/-- A power of ten with its sign. -/
def signedPower (power : Int) : List Char :=
  (if power < 0 then ['-'] else ['+']) ++ Nat.toDigits 10 power.natAbs

theorem scientific_eq (decimal : Decimal) :
    decimal.scientific true = decimal.mantissa ++ 'e' :: signedPower decimal.leadingExponent :=
  List.append_assoc decimal.mantissa
    ('e' :: if decimal.leadingExponent < 0 then ['-'] else ['+']) _

/-- The mantissa without its point is the digits. -/
theorem filter_mantissa (decimal : Decimal) :
    decimal.mantissa.filter (· != '.') = decimal.digitChars := by
  have digits : ∀ char ∈ decimal.digitChars, (char != '.') = true := by
    intro char member
    have digit := isDigit_of_mem_digitChars member
    simp only [bne_iff_ne, ne_eq]
    rintro rfl
    cases digit
  have kept : decimal.digitChars.filter (· != '.') = decimal.digitChars :=
    List.filter_eq_self.2 digits
  unfold mantissa
  split <;> rename_i written <;> rw [written] at kept ⊢
  · rfl
  · exact kept
  · rename_i digit rest _
    have point : (digit :: '.' :: rest).filter (· != '.') = (digit :: rest).filter (· != '.') := by
      by_cases same : digit = '.' <;> simp [same]
    rw [point, kept]

/-- The mantissa has only digits and the point. -/
theorem isDigit_or_eq_of_mem_mantissa {decimal : Decimal} {char : Char}
    (member : char ∈ decimal.mantissa) : char.isDigit = true ∨ char = '.' := by
  by_cases point : char = '.'
  · exact .inr point
  · have digit : char ∈ decimal.digitChars := by
      rw [← filter_mantissa, List.mem_filter]
      exact ⟨member, by simpa using point⟩
    exact .inl (isDigit_of_mem_digitChars digit)

/-- A signed power tells the power. -/
theorem signedPower_inj {first second : Int} (same : signedPower first = signedPower second) :
    first = second := by
  have digits : Nat.toDigits 10 first.natAbs = Nat.toDigits 10 second.natAbs := by
    have tails := congrArg List.tail same
    unfold signedPower at tails
    split at tails <;> split at tails <;> exact tails
  have absolute : first.natAbs = second.natAbs := by
    rw [← Nat.ofDigitChars_ten_toDigits (n := first.natAbs), digits,
      Nat.ofDigitChars_ten_toDigits]
  have heads := congrArg List.head? same
  unfold signedPower at heads
  split at heads <;> split at heads <;> simp at heads <;> omega

/-- Decimals that are written alike in scientific form are the same. -/
theorem eq_of_scientific_eq {first second : Decimal}
    (same : first.scientific true = second.scientific true) : first = second := by
  have noLetter : ∀ decimal : Decimal, 'e' ∉ decimal.mantissa := by
    intro decimal member
    rcases isDigit_or_eq_of_mem_mantissa member with digit | point
    · cases digit
    · cases point
  have noLetterToo : ∀ power, 'e' ∉ signedPower power := by
    intro power member
    rcases List.mem_append.1 member with sign | digit
    · split at sign <;> cases List.mem_singleton.1 sign
    · cases Nat.isDigit_of_mem_toDigits (by decide) (by decide) digit
  rw [scientific_eq, scientific_eq] at same
  obtain ⟨mantissas, -, powers⟩ :=
    (List.append_cons_inj_of_notMem (noLetter first) (noLetterToo first.leadingExponent)).1 same
  have digitChars : first.digitChars = second.digitChars := by
    rw [← filter_mantissa, mantissas, filter_mantissa]
  have digits : first.digits = second.digits := by
    rw [← Nat.ofDigitChars_ten_toDigits (n := first.digits),
      ← Nat.ofDigitChars_ten_toDigits (n := second.digits)]
    exact congrArg (Nat.ofDigitChars 10 · 0) digitChars
  have leading := signedPower_inj powers
  have exponents : first.exponent = second.exponent := by
    unfold leadingExponent at leading
    rw [digitChars] at leading
    omega
  obtain ⟨firstDigits, firstExponent⟩ := first
  obtain ⟨secondDigits, secondExponent⟩ := second
  exact congrArg₂ Decimal.mk digits exponents

/-- A decimal in JSON has a digit in front. -/
theorem exists_digit_of_write {decimal : Decimal} (fine : -1074 ≤ decimal.exponent) :
    ∃ digit rest, decimal.write Json.floatLayout = digit :: rest ∧ digit.isDigit = true := by
  unfold write
  split
  · obtain ⟨front, back, pointed⟩ := exists_pointed fine
    obtain ⟨digit, rest, rfl⟩ := List.exists_cons_of_ne_nil pointed.full
    exact ⟨digit, rest ++ '.' :: back, pointed.text, pointed.digits digit (by simp)⟩
  · obtain ⟨digit, rest, written⟩ := List.exists_cons_of_ne_nil decimal.digitChars_ne_nil
    have isDigit : digit.isDigit = true :=
      isDigit_of_mem_digitChars (by rw [written]; exact List.mem_cons_self)
    change ∃ digit rest, decimal.scientific true = digit :: rest ∧ digit.isDigit = true
    rw [scientific_eq, mantissa, written]
    cases rest with
    | nil => exact ⟨digit, _, rfl, isDigit⟩
    | cons next rest => exact ⟨digit, _, rfl, isDigit⟩

/-- A decimal in JSON has a point or a power of ten. -/
theorem point_or_power_mem_write {decimal : Decimal} (fine : -1074 ≤ decimal.exponent) :
    '.' ∈ decimal.write Json.floatLayout ∨ 'e' ∈ decimal.write Json.floatLayout := by
  unfold write
  split
  · left
    obtain ⟨front, back, pointed⟩ := exists_pointed fine
    change '.' ∈ decimal.inPlace true
    simp [pointed.text]
  · right
    change 'e' ∈ decimal.scientific true
    simp [scientific_eq]

/-- Decimals that are written alike in JSON have one value. -/
theorem value_eq_of_write_eq {first second : Decimal} (fine : -1074 ≤ first.exponent)
    (fineToo : -1074 ≤ second.exponent)
    (same : first.write Json.floatLayout = second.write Json.floatLayout) :
    first.value = second.value := by
  -- Only the scientific form has a letter, so that both decimals are in one form.
  have letter : ∀ decimal : Decimal, 'e' ∈ decimal.scientific true := by
    intro decimal
    simp [scientific_eq]
  have noLetter : ∀ decimal : Decimal, -1074 ≤ decimal.exponent → 'e' ∉ decimal.inPlace true := by
    intro decimal fine member
    obtain ⟨front, back, pointed⟩ := exists_pointed fine
    have noDigit : 'e' ∉ front ++ back := notMem_of_isDigit pointed.digits rfl
    rw [pointed.text] at member
    simp_all
  unfold write at same
  split at same <;> split at same
  · exact value_eq_of_inPlace_eq fine fineToo same
  · exact absurd (letter second) (same ▸ noLetter first fine)
  · exact absurd (letter first) (same.symm ▸ noLetter second fineToo)
  · rw [eq_of_scientific_eq same]

/-- The shortest decimals have no digits below the finest grid. -/
theorem fine_shortest (x : Binary64) : -1074 ≤ (shortest x).exponent := by
  unfold shortest
  split
  · decide
  · simp only [ofMagnitude]
    omega

end Decimal

namespace Binary64

/-- The characters of a floating number in JSON. -/
theorem toList_write (x : Binary64) :
    (x.write Json.floatLayout).toList =
      (if x.isNegative then ['-'] else []) ++ (Decimal.shortest x).write Json.floatLayout := by
  simp [write]

/-- The text of a floating number other than zero tells the number. -/
theorem eq_of_write_eq {x y : Binary64} (nonzero : x.isZero = false) (nonzeroToo : y.isZero = false)
    (same : x.write Json.floatLayout = y.write Json.floatLayout) : x = y := by
  have chars := congrArg String.toList same
  rw [toList_write, toList_write] at chars
  obtain ⟨digit, rest, written, isDigit⟩ :=
    Decimal.exists_digit_of_write (Decimal.fine_shortest x)
  obtain ⟨digitToo, restToo, writtenToo, isDigitToo⟩ :=
    Decimal.exists_digit_of_write (Decimal.fine_shortest y)
  have signs : x.isNegative = y.isNegative := by
    rw [written, writtenToo] at chars
    cases xSign : x.isNegative <;> cases ySign : y.isNegative <;>
      simp only [xSign, ySign, Bool.false_eq_true, if_true, if_false, List.nil_append,
        List.singleton_append, List.cons.injEq] at chars ⊢
    · rw [chars.1] at isDigit
      cases isDigit
    · rw [← chars.1] at isDigitToo
      cases isDigitToo
  rw [signs] at chars
  have values := Decimal.value_eq_of_write_eq (Decimal.fine_shortest x) (Decimal.fine_shortest y)
    (List.append_cancel_left chars)
  simp only [Decimal.shortest, nonzero, nonzeroToo, Bool.false_eq_true, if_false] at values
  have positive : ∀ z : Binary64, z.isZero = false → 0 < z.magnitude := by
    intro z other
    exact Nat.pos_of_ne_zero (by simpa [isZero] using other)
  exact eq_of_parts
    (Decimal.magnitude_eq_of_value_eq (positive x nonzero) (positive y nonzeroToo) values) signs

end Binary64

namespace Number

open Binary64

/-- The integers that signed sixty-four-bit integers can hold. -/
theorem isSigned_iff {value : Int} : isSigned value = true ↔ -2 ^ 63 ≤ value ∧ value < 2 ^ 63 := by
  have low : Int64.minValue.toInt = -2 ^ 63 := by decide
  have high : Int64.maxValue.toInt = 2 ^ 63 - 1 := by decide
  rw [isSigned, Bool.and_eq_true, decide_eq_true_eq, decide_eq_true_eq, low, high]
  omega

/-- A number with the exact value of an integer is finite. -/
theorem isFinite_of_units_eq {value : Binary64} {integer : Nat} (small : integer ≤ 2 ^ 64)
    (same : value.units = integer * unitsInOne) : value.isFinite = true := by
  have rounds := rounds_nearestMagnitude small
  have bound := rounds.bounded
  have positive := binadeSize_pos
  by_contra infinite
  have beyond : infinityMagnitude ≤ value.magnitude := by
    simpa [isFinite] using infinite
  rw [infinityMagnitude] at beyond
  have greater := rounds.above value.magnitude (by omega)
  rw [← same] at greater
  exact lt_irrefl _ greater

/-- A number with the exact value of an integer is whole, and it is that integer. -/
theorem whole_of_signedUnits {value : Binary64} {integer : Int} (small : integer.natAbs ≤ 2 ^ 64)
    (same : value.signedUnits = integer * unitsInOne) :
    value.units = integer.natAbs * unitsInOne ∧ value.isWhole = true ∧ value.truncate = integer := by
  have positive : 0 < (unitsInOne : Int) := Int.natCast_pos.2 unitsInOne_pos
  have absolute : value.units = integer.natAbs * unitsInOne := by
    have both := congrArg Int.natAbs same
    rw [Int.natAbs_mul, Int.natAbs_natCast] at both
    rw [← both, signedUnits]
    split <;> simp
  have whole : value.isWhole = true := by
    simp [isWhole, isFinite_of_units_eq small absolute, absolute]
  refine ⟨absolute, whole, ?_⟩
  have exactly := signedUnits_of_isWhole whole
  rw [same] at exactly
  exact (Int.eq_of_mul_eq_mul_right (ne_of_gt positive) exactly).symm

/-- A number with the exact value of a signed integer is that integer. -/
theorem toInteger?_of_signedUnits {value : Binary64} {integer : Int}
    (signed : isSigned integer = true) (same : value.signedUnits = integer * unitsInOne) :
    value.toInteger? = some integer := by
  have small : integer.natAbs ≤ 2 ^ 64 := by
    have range := isSigned_iff.1 signed
    omega
  obtain ⟨-, whole, truncated⟩ := whole_of_signedUnits small same
  simp [toInteger?, whole, truncated, signed]

/-- A number with the exact value of a signed integer is written as that integer. -/
theorem written_of_exact {number : Number} {integer : Int} (signed : isSigned integer = true)
    (same : number.exact = integer * unitsInOne) :
    number.text = Decimal.integerText integer ∧
      (Value.number number).inspect = Decimal.integerText integer := by
  have nonzero : (unitsInOne : Int) ≠ 0 := Int.natCast_ne_zero.2 (Nat.ne_of_gt unitsInOne_pos)
  cases number with
  | int value =>
    have equal : value.toInt = integer := Int.eq_of_mul_eq_mul_right nonzero same
    subst equal
    exact ⟨rfl, rfl⟩
  | uint value =>
    have equal : (value.toNat : Int) = integer := Int.eq_of_mul_eq_mul_right nonzero same
    subst equal
    have notNegative : ¬ (value.toNat : Int) < 0 := by omega
    have digits : Decimal.integerChars value.toNat = Nat.toDigits 10 value.toNat := by
      simp [Decimal.integerChars, notNegative]
    rw [Decimal.integerText, digits]
    exact ⟨rfl, rfl⟩
  | float value =>
    have read := toInteger?_of_signedUnits signed same
    have kept : (Int64.ofInt integer).toInt = integer := by
      have range := isSigned_iff.1 signed
      exact Int64.toInt_ofInt_of_le (by omega) (by omega)
    constructor
    · simp [Number.text, read]
    · simp [Value.inspect, Value.toJson, Number.toJson, read, Json.compact, Json.compactChars,
        Json.numberChars, Decimal.integerText, kept]

/-- Floating numbers of one exact value other than zero are the same. -/
theorem eq_of_signedUnits_eq {left right : Binary64} (nonzero : left.signedUnits ≠ 0)
    (same : left.signedUnits = right.signedUnits) : left = right := by
  unfold signedUnits at nonzero same
  have signs : left.isNegative = right.isNegative := by
    cases leftSign : left.isNegative <;> cases rightSign : right.isNegative <;>
      simp only [leftSign, rightSign, Bool.false_eq_true, if_true, if_false] at nonzero same ⊢ <;>
      omega
  have absolute : left.units = right.units := by
    rw [signs] at same
    split at same <;> omega
  exact eq_of_parts (unitsOfMagnitude_strictMono.injective absolute) signs

/-- Of two numbers, one is an unsigned integer above the signed range, and the other is a
floating number of its value. -/
structure Mixed (left right : Number) (integer : UInt64) (value : Binary64) : Prop where
  great : isSigned integer.toNat = false
  exactly : value.signedUnits = (integer.toNat : Int) * unitsInOne
  sides : (left = .uint integer ∧ right = .float value) ∨
    (left = .float value ∧ right = .uint integer)

/-- Numbers of one exact value are written alike, unless they are an unsigned integer above
the signed range and a floating number. -/
theorem written_alike_or_mixed {left right : Number} (same : left.exact = right.exact) :
    (left.text = right.text ∧ (Value.number left).inspect = (Value.number right).inspect) ∨
      ∃ integer value, left.Mixed right integer value := by
  by_cases integral : ∃ integer, isSigned integer = true ∧ left.exact = integer * unitsInOne
  · obtain ⟨integer, signed, exactly⟩ := integral
    obtain ⟨leftText, leftInspect⟩ := written_of_exact signed exactly
    obtain ⟨rightText, rightInspect⟩ := written_of_exact signed (same ▸ exactly)
    exact .inl ⟨leftText.trans rightText.symm, leftInspect.trans rightInspect.symm⟩
  · -- Only an unsigned integer of its own range and a number that is no integer are left.
    have noInteger : ∀ value : Int64, left.exact ≠ value.toInt * unitsInOne := by
      intro value exactly
      exact integral ⟨value.toInt, isSigned_iff.2 ⟨value.le_toInt, value.toInt_lt⟩, exactly⟩
    have great : ∀ integer : UInt64, left.exact = (integer.toNat : Int) * unitsInOne →
        isSigned integer.toNat = false := by
      intro integer exactly
      exact Bool.eq_false_iff.2 fun signed => integral ⟨integer.toNat, signed, exactly⟩
    cases left with
    | int value => exact absurd rfl (noInteger value)
    | uint value =>
      cases right with
      | int other => exact absurd same (noInteger other)
      | uint other =>
        have nonzero : (unitsInOne : Int) ≠ 0 :=
          Int.natCast_ne_zero.2 (Nat.ne_of_gt unitsInOne_pos)
        have equal : (value.toNat : Int) = other.toNat := Int.eq_of_mul_eq_mul_right nonzero same
        rw [UInt64.toNat_inj.1 (Int.natCast_inj.1 equal)]
        exact .inl ⟨rfl, rfl⟩
      | float other => exact .inr ⟨value, other, great value rfl, same.symm, .inl ⟨rfl, rfl⟩⟩
    | float value =>
      cases right with
      | int other => exact absurd same (noInteger other)
      | uint other => exact .inr ⟨other, value, great other same, same, .inr ⟨rfl, rfl⟩⟩
      | float other =>
        have nonzero : value.signedUnits ≠ 0 := by
          intro zero
          exact integral ⟨0, by decide, by rw [zero_mul]; exact zero⟩
        rw [eq_of_signedUnits_eq nonzero same]
        exact .inl ⟨rfl, rfl⟩

/-- A number is finite. -/
def IsFinite : Number → Prop
  | .float value => value.isFinite = true
  | _ => True

/-- An integer is written with digits and a sign. -/
theorem isDigit_or_eq_of_mem_integerText {integer : Int} {char : Char}
    (member : char ∈ (Decimal.integerText integer).toList) : char.isDigit = true ∨ char = '-' := by
  simp only [Decimal.integerText, String.toList_ofList, Decimal.integerChars, List.mem_append]
    at member
  rcases member with sign | digit
  · right
    split at sign
    · exact List.mem_singleton.1 sign
    · cases sign
  · exact .inl (Nat.isDigit_of_mem_toDigits (by decide) (by decide) digit)

/-- A finite number is an integer, also in its text and in JSON, or a floating number other
than zero in the JSON form of these. -/
theorem integer_or_float_of_isFinite {number : Number} (finite : number.IsFinite) :
    (∃ integer : Int, number.exact = integer * unitsInOne ∧
      number.text = Decimal.integerText integer ∧
      (Value.number number).inspect = Decimal.integerText integer) ∨
    ∃ value, number = .float value ∧ value.isZero = false ∧
      (Value.number number).inspect = value.write Json.floatLayout := by
  cases number with
  | int value =>
    exact .inl ⟨value.toInt, rfl,
      written_of_exact (isSigned_iff.2 ⟨value.le_toInt, value.toInt_lt⟩) rfl⟩
  | uint value =>
    have notNegative : ¬ (value.toNat : Int) < 0 := by omega
    have digits : Decimal.integerText value.toNat = Decimal.naturalText value.toNat := by
      simp [Decimal.integerText, Decimal.integerChars, Decimal.naturalText, notNegative]
    exact .inl ⟨value.toNat, rfl, by rw [digits]; exact ⟨rfl, rfl⟩⟩
  | float value =>
    cases read : value.toInteger? with
    | some integer =>
      left
      unfold toInteger? at read
      split at read
      · rename_i holds
        cases read
        rw [Bool.and_eq_true] at holds
        have exactly := signedUnits_of_isWhole holds.1
        exact ⟨_, exactly, written_of_exact holds.2 exactly⟩
      · cases read
    | none =>
      refine .inr ⟨value, rfl, ?_, ?_⟩
      · by_contra zero
        have zero : value.magnitude = 0 := by
          simpa [isZero] using Bool.eq_true_of_not_eq_false zero
        have whole : value.signedUnits = 0 * unitsInOne := by
          have units : value.units = 0 := by rw [units, zero, unitsOfMagnitude_zero]
          simp [signedUnits, units]
        rw [toInteger?_of_signedUnits (by decide) whole] at read
        cases read
      · have finite : value.isFinite = true := finite
        simp [Value.inspect, Value.toJson, Number.toJson, read, finite, Json.compact,
          Json.compactChars, Json.numberChars]

/-- An integer is written without point and power, so it is not written as a floating number
is. -/
theorem integerText_ne_write (integer : Int) (value : Binary64) :
    Decimal.integerText integer ≠ value.write Json.floatLayout := by
  intro alike
  have marked : ∀ char, char ∈ (Decimal.shortest value).write Json.floatLayout →
      char ∈ (Decimal.integerText integer).toList := by
    intro char member
    rw [alike, toList_write]
    exact List.mem_append_right _ member
  rcases Decimal.point_or_power_mem_write (Decimal.fine_shortest value) with point | power
  · rcases isDigit_or_eq_of_mem_integerText (marked _ point) with digit | sign
    · cases digit
    · cases sign
  · rcases isDigit_or_eq_of_mem_integerText (marked _ power) with digit | sign
    · cases digit
    · cases sign

/-- Finite numbers that are alike in JSON have one text. -/
theorem text_eq_of_inspect_eq {left right : Number} (finite : left.IsFinite)
    (finiteToo : right.IsFinite)
    (same : (Value.number left).inspect = (Value.number right).inspect) : left.text = right.text := by
  rcases integer_or_float_of_isFinite finite with
    ⟨integer, -, text, inspected⟩ | ⟨value, rfl, nonzero, inspected⟩
  · rcases integer_or_float_of_isFinite finiteToo with
      ⟨other, -, textToo, inspectedToo⟩ | ⟨other, rfl, -, inspectedToo⟩
    · rw [text, textToo, ← inspected, ← inspectedToo, same]
    · exact absurd (by rw [← inspected, same, inspectedToo]) (integerText_ne_write integer other)
  · rcases integer_or_float_of_isFinite finiteToo with
      ⟨other, -, -, inspectedToo⟩ | ⟨other, rfl, nonzeroToo, inspectedToo⟩
    · exact absurd (by rw [← inspectedToo, ← same, inspected]) (integerText_ne_write other value)
    · rw [eq_of_write_eq nonzero nonzeroToo (by rw [← inspected, same, inspectedToo])]

end Number

end StructuralDiff
