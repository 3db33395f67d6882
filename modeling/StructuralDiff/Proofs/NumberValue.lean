import Mathlib
import StructuralDiff.Proofs.KeyIdentity
import StructuralDiff.Proofs.PlainNumbers

/-!
# The exact value of a number

What a number of a document stands for: an integer is itself, a finite floating number is
the rational that its sign, exponent and fraction denote (`Binary64.rational`), and the
infinities are the two ends (`Number.value`). The comparison goes through integers where
both numbers are whole and through double precision elsewhere, but it always says what the
values say (`Number.compares_by_value`): in units of the least positive number, values are
the integers of `Number.exact`, and these are what numbers are compared by.
-/

namespace StructuralDiff

namespace Binary64

/-- The eleven bits of the exponent. -/
def exponentField (x : Binary64) : Nat := x.bits.toNat / 2 ^ 52 % 2 ^ 11

/-- The fifty-two bits of the fraction. -/
def fractionField (x : Binary64) : Nat := x.bits.toNat % 2 ^ 52

/-- The significand as an integer. It has a leading one above the fraction, except in the
lowest binade, which has the zeros and the subnormal numbers. -/
def significand (x : Binary64) : Nat :=
  if x.exponentField = 0 then x.fractionField else 2 ^ 52 + x.fractionField

/-- The rational number that the bits of a finite number denote: the sign, the significand
and the power of two of its last bit, which the lowest two binades share. -/
def rational (x : Binary64) : ℚ :=
  (if x.isNegative then -1 else 1) * (x.significand * 2 ^ (max (x.exponentField : Int) 1 - 1075))

/-- The fields of the bits are the binade and the place of the magnitude in it. -/
theorem fields_eq (x : Binary64) :
    x.exponentField = x.magnitude / binadeSize ∧ x.fractionField = x.magnitude % binadeSize := by
  have weight : signWeight = 2 ^ 63 := by decide
  unfold exponentField fractionField magnitude
  rw [weight, binadeSize_eq]
  omega

/-- The absolute value in units, from the significand. -/
theorem units_eq (x : Binary64) : x.units = x.significand * 2 ^ (max x.exponentField 1 - 1) := by
  obtain ⟨exponent, fraction⟩ := x.fields_eq
  simp only [units, unitsOfMagnitude, significand, ← exponent, ← fraction]
  split
  · rename_i lowest
    rw [lowest, Nat.max_eq_right (Nat.zero_le 1), Nat.sub_self, pow_zero, Nat.mul_one]
  · rename_i normal
    rw [Nat.max_eq_left (Nat.pos_of_ne_zero normal), Nat.shiftLeft_eq, binadeSize_eq]

/-- The rational number of the bits is the signed number of units, of which there are
`2 ^ 1074` in one. -/
theorem rational_eq (x : Binary64) : x.rational = (x.signedUnits : ℚ) / 2 ^ 1074 := by
  obtain ⟨binade, isBinade⟩ : ∃ binade, max x.exponentField 1 = binade + 1 :=
    Nat.exists_eq_add_of_le' (le_max_right _ _)
  have power : max (x.exponentField : Int) 1 - 1075 = (binade : Int) - 1074 := by omega
  have absolute : (x.significand : ℚ) * 2 ^ (max (x.exponentField : Int) 1 - 1075) =
      (x.units : ℚ) / 2 ^ 1074 := by
    rw [power, zpow_sub₀ two_ne_zero, zpow_natCast, zpow_ofNat, units_eq, isBinade,
      Nat.add_sub_cancel, Nat.cast_mul, Nat.cast_pow, Nat.cast_ofNat, mul_div_assoc]
  rw [rational, absolute, signedUnits]
  split
  · rw [Int.cast_neg, Int.cast_natCast, neg_one_mul, neg_div]
  · rw [Int.cast_natCast, one_mul]

end Binary64

namespace Number

open Binary64

/-- The exact value of a number, with the infinities below and above all rationals. -/
def value : Number → WithBot (WithTop ℚ)
  | .int integer => ((integer.toInt : ℚ) : WithTop ℚ)
  | .uint integer => ((integer.toNat : ℚ) : WithTop ℚ)
  | .float x =>
    if x.isFinite then (x.rational : WithTop ℚ) else if x.isNegative then ⊥ else ⊤

/-- The units of an infinity, which follow those of the finite numbers. -/
def limit : Nat := unitsOfMagnitude infinityMagnitude

/-- The value that a number of units stands for, up to the limit. -/
def valueOfUnits (units : Int) : WithBot (WithTop ℚ) :=
  if units ≤ -(limit : Int) then ⊥
  else if (limit : Int) ≤ units then ⊤
  else (((units : ℚ) / 2 ^ 1074 : ℚ) : WithTop ℚ)

/-- More units stand for a greater value. -/
theorem valueOfUnits_strictMonoOn :
    StrictMonoOn valueOfUnits (Set.Icc (-(limit : Int)) (limit : Int)) := by
  intro first low second high less
  rw [Set.mem_Icc] at low high
  have greater : ((first : ℚ) / 2 ^ 1074) < (second : ℚ) / 2 ^ 1074 :=
    div_lt_div_of_pos_right (Int.cast_lt.2 less) (by positivity)
  unfold valueOfUnits
  split_ifs with firstLeast secondLeast secondMost firstMost secondLeast secondMost
  · omega
  · exact WithBot.bot_lt_coe _
  · exact WithBot.bot_lt_coe _
  · omega
  · omega
  · omega
  · omega
  · exact WithBot.coe_lt_coe.2 (WithTop.coe_lt_top _)
  · exact WithBot.coe_lt_coe.2 (WithTop.coe_lt_coe.2 greater)

/-- Units below the limit are those of a rational number. -/
theorem valueOfUnits_of_lt {units : Int} (small : units.natAbs < limit) :
    valueOfUnits units = (((units : ℚ) / 2 ^ 1074 : ℚ) : WithTop ℚ) := by
  rw [valueOfUnits, if_neg (by omega), if_neg (by omega)]

/-- Integers that sixty-four bits can hold are below the limit. -/
theorem natAbs_lt_limit {integer : Int} (small : integer.natAbs ≤ 2 ^ 64) :
    (integer * unitsInOne).natAbs < limit := by
  have rounds := rounds_nearestMagnitude small
  have bounded := rounds.bounded
  have positive := binadeSize_pos
  rw [Int.natAbs_mul, Int.natAbs_natCast]
  refine rounds.above infinityMagnitude ?_
  rw [infinityMagnitude]
  omega

/-- An integer, in units, stands for itself. -/
theorem valueOfUnits_of_integer {integer : Int} (small : integer.natAbs ≤ 2 ^ 64) :
    valueOfUnits (integer * unitsInOne) = ((integer : ℚ) : WithTop ℚ) := by
  obtain ⟨point, pointIs, units⟩ := exists_unitsInOne_eq
  have back : ((integer * unitsInOne : Int) : ℚ) / 2 ^ 1074 = integer := by
    rw [units, ← pointIs]
    push_cast
    exact mul_div_cancel_right₀ _ (by positivity)
  rw [valueOfUnits_of_lt (natAbs_lt_limit small), back]

/-- A number that stands for a value has that of its units, which are within the limit. -/
theorem value_eq_valueOfUnits {number : Number} (hasValue : number.HasValue) :
    number.value = valueOfUnits number.exact ∧ number.exact.natAbs ≤ limit := by
  cases number with
  | int integer =>
    have small : integer.toInt.natAbs ≤ 2 ^ 64 := by
      have low := integer.le_toInt
      have high := integer.toInt_lt
      omega
    exact ⟨(valueOfUnits_of_integer small).symm, (natAbs_lt_limit small).le⟩
  | uint integer =>
    have small : (integer.toNat : Int).natAbs ≤ 2 ^ 64 := by
      have high := integer.toNat_lt
      omega
    exact ⟨(valueOfUnits_of_integer small).symm, (natAbs_lt_limit small).le⟩
  | float x =>
    have absolute := natAbs_signedUnits x
    by_cases finite : x.isFinite
    · have small : x.signedUnits.natAbs < limit := by
        rw [absolute]
        exact unitsOfMagnitude_strictMono (of_decide_eq_true finite)
      refine ⟨?_, small.le⟩
      rw [value, if_pos finite, x.rational_eq]
      exact (valueOfUnits_of_lt small).symm
    · have infinite : x.magnitude = infinityMagnitude := by
        simp only [isFinite, decide_eq_true_eq] at finite
        simp only [HasValue, isNaN, decide_eq_false_iff_not] at hasValue
        omega
      have units : x.units = limit := congrArg unitsOfMagnitude infinite
      have positive : 0 < limit := Nat.zero_lt_of_lt (@natAbs_lt_limit 0 (by decide))
      refine ⟨?_, (absolute.trans units).le⟩
      rw [value, if_neg finite, exact, signedUnits, units, valueOfUnits]
      split
      · rw [if_pos le_rfl]
      · rw [if_neg (by omega), if_pos le_rfl]

/-- Numbers that stand for values are ordered as their values are. -/
theorem value_lt_value_iff {left right : Number} (hasValue : left.HasValue)
    (hasValueToo : right.HasValue) : left.value < right.value ↔ left.exact < right.exact := by
  obtain ⟨leftValue, leftSmall⟩ := value_eq_valueOfUnits hasValue
  obtain ⟨rightValue, rightSmall⟩ := value_eq_valueOfUnits hasValueToo
  rw [leftValue, rightValue]
  exact valueOfUnits_strictMonoOn.lt_iff_lt (Set.mem_Icc.2 (by omega)) (Set.mem_Icc.2 (by omega))

/-- Numbers have one value exactly when they have as many units. -/
theorem value_eq_value_iff {left right : Number} (hasValue : left.HasValue)
    (hasValueToo : right.HasValue) : left.value = right.value ↔ left.exact = right.exact := by
  have below := value_lt_value_iff hasValue hasValueToo
  have above := value_lt_value_iff hasValueToo hasValue
  rw [eq_iff_le_not_lt, ← not_lt, above, below]
  omega

/-- Numbers other than NaN are equal exactly when their exact values are, in whichever forms
they are, and their order is that of the values; so equality is an equivalence on them. -/
theorem compares_by_value :
    (∀ left right : Number, left.HasValue → right.HasValue →
      (left.equal right = true ↔ left.value = right.value) ∧
        left.order right = compare left.value right.value) ∧
    Equivalence fun left right : { number : Number // number.HasValue } =>
      left.1.equal right.1 = true := by
  have equal : ∀ left right : Number, left.HasValue → right.HasValue →
      (left.equal right = true ↔ left.value = right.value) := by
    intro left right hasValue hasValueToo
    rw [value_eq_value_iff hasValue hasValueToo]
    exact ⟨exact_eq_of_equal, equal_of_exact_eq hasValue⟩
  refine ⟨fun left right hasValue hasValueToo => ⟨equal left right hasValue hasValueToo, ?_⟩, ?_⟩
  · rw [order_eq_compare_exact]
    refine compare_eq_of_lt_iff ?_ ?_
    · exact (value_lt_value_iff hasValue hasValueToo).symm
    · exact (value_lt_value_iff hasValueToo hasValue).symm
  · have values : (fun left right : { number : Number // number.HasValue } =>
        left.1.equal right.1 = true) = fun left right => left.1.value = right.1.value := by
      funext left right
      exact propext (equal left.1 right.1 left.2 right.2)
    rw [values]
    exact eq_equivalence.comap fun number : { number : Number // number.HasValue } =>
      number.1.value

/-- At the bounds of double precision: an integer above `2 ^ 53` is rounded to the number below
it and is greater than that; the greatest unsigned integer is rounded to `2 ^ 64` and is less;
zeros of both signs are one value with the integer; an infinity is beyond all numbers. -/
theorem compares_by_value_atTheBounds :
    ((Number.int 9007199254740993).toBinary64 = ⟨0x4340000000000000⟩ ∧
      (Number.int 9007199254740993).order (.float ⟨0x4340000000000000⟩) = .gt) ∧
    ((Number.uint 18446744073709551615).toBinary64 = ⟨0x43f0000000000000⟩ ∧
      (Number.uint 18446744073709551615).equal (.float ⟨0x43f0000000000000⟩) = false) ∧
    (Number.float ⟨0x8000000000000000⟩).equal (.int 0) = true ∧
    (Number.float ⟨0x7fefffffffffffff⟩).order (.float ⟨0x7ff0000000000000⟩) = .lt := by
  obtain ⟨byValue, -⟩ := compares_by_value
  have integer : (Number.int 9007199254740993).HasValue := trivial
  have rounded : (Number.float ⟨0x4340000000000000⟩).HasValue := rfl
  have unsigned : (Number.uint 18446744073709551615).HasValue := trivial
  have roundedToo : (Number.float ⟨0x43f0000000000000⟩).HasValue := rfl
  have zero : (Number.int 0).HasValue := trivial
  have negativeZero : (Number.float ⟨0x8000000000000000⟩).HasValue := rfl
  have greatest : (Number.float ⟨0x7fefffffffffffff⟩).HasValue := rfl
  have infinite : (Number.float ⟨0x7ff0000000000000⟩).HasValue := rfl
  refine ⟨⟨by decide +kernel, ?_⟩, ⟨by decide +kernel, ?_⟩, ?_, ?_⟩
  · rw [(byValue _ _ integer rounded).2, compare_gt_iff_gt]
    exact (value_lt_value_iff rounded integer).2 (by decide +kernel)
  · rw [← Bool.not_eq_true, (byValue _ _ unsigned roundedToo).1,
      value_eq_value_iff unsigned roundedToo]
    decide +kernel
  · rw [(byValue _ _ negativeZero zero).1, value_eq_value_iff negativeZero zero]
    decide +kernel
  · rw [(byValue _ _ greatest infinite).2, compare_lt_iff_lt]
    exact (value_lt_value_iff greatest infinite).2 (by decide +kernel)

end Number

end StructuralDiff
