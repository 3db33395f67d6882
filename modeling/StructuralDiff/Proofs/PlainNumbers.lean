import Mathlib
import StructuralDiff.Proofs.NumberText

/-!
# What the plain text of a number tells

In a path, a number is written in plain form: without a power of ten, and without a
fraction where it has none. A text of that form tells its value as a decimal
(`Decimal.value_eq_of_plain_eq`). So it tells an integer among the integers, and a floating
number among the floating numbers, since the decimal of one rounds to no other
(`Number.exact_eq_of_text_eq`); that the number is an integer or a floating one, it does
not tell.
-/

namespace StructuralDiff

namespace Decimal

/-- The fraction of a whole number comes last. -/
theorem inPlace_prefix (decimal : Decimal) : decimal.inPlace false <+: decimal.inPlace true := by
  unfold inPlace
  dsimp only
  split
  · simp
  · exact List.prefix_refl _

/-- A decimal with its point in place is digits and a point. -/
theorem isDigit_or_eq_of_mem_inPlace {decimal : Decimal} (fine : -1074 ≤ decimal.exponent)
    {char : Char} (member : char ∈ decimal.inPlace false) : char.isDigit = true ∨ char = '.' := by
  obtain ⟨front, back, pointed⟩ := exists_pointed fine
  have written := decimal.inPlace_prefix.subset member
  rw [pointed.text] at written
  rcases List.mem_append.1 written with before | behind
  · exact .inl (pointed.digits char (List.mem_append_left _ before))
  · rcases List.mem_cons.1 behind with point | after
    · exact .inr point
    · exact .inl (pointed.digits char (List.mem_append_right _ after))

/-- A decimal with its point in place is not empty. -/
theorem inPlace_ne_nil (decimal : Decimal) : decimal.inPlace false ≠ [] := by
  have some := decimal.digitChars_ne_nil
  unfold inPlace
  dsimp only
  split
  · simp [some]
  · split <;> simp

/-- Only what is written without a point gets a fraction when one is asked for. -/
theorem inPlace_true_eq {decimal : Decimal} (fine : -1074 ≤ decimal.exponent) :
    decimal.inPlace true =
      decimal.inPlace false ++ if '.' ∈ decimal.inPlace false then [] else ['.', '0'] := by
  by_cases whole : 0 ≤ decimal.exponent
  · have written : decimal.inPlace false =
        decimal.digitChars ++ List.replicate decimal.exponent.toNat '0' := by
      simp [inPlace, whole]
    have noPoint : '.' ∉ decimal.inPlace false := by
      rw [written]
      refine notMem_of_isDigit (fun char member => ?_) rfl
      rcases List.mem_append.1 member with digit | zero
      · exact isDigit_of_mem_digitChars digit
      · exact isDigit_of_mem_replicate zero
    rw [if_neg noPoint, written]
    simp [inPlace, whole]
  · have written : decimal.inPlace true = decimal.inPlace false := by
      simp [inPlace, whole]
    obtain ⟨front, back, pointed⟩ := exists_pointed fine
    have point : '.' ∈ decimal.inPlace false := by
      rw [← written, pointed.text]
      simp
    rw [if_pos point, List.append_nil, written]

/-- Decimals that are written alike in plain form have one value. -/
theorem value_eq_of_plain_eq {first second : Decimal} (fine : -1074 ≤ first.exponent)
    (fineToo : -1074 ≤ second.exponent) (same : first.inPlace false = second.inPlace false) :
    first.value = second.value := by
  apply value_eq_of_inPlace_eq fine fineToo
  rw [inPlace_true_eq fine, inPlace_true_eq fineToo, same]

/-- A natural number is written as the integer that it is. -/
theorem naturalText_eq (number : Nat) : naturalText number = integerText number := by
  have notNegative : ¬ (number : Int) < 0 := by omega
  simp [naturalText, integerText, integerChars, notNegative]

/-- The value of an integer is a fixed multiple of the integer. -/
theorem exists_value_eq_mul :
    ∃ level, ∀ integer, (Decimal.mk integer 0).value = integer * 10 ^ level :=
  ⟨_, fun _ => rfl⟩

/-- The value of an integer is the value of the magnitude that has its units. -/
theorem gridUnits_of_units {magnitude integer : Nat}
    (units : Binary64.unitsOfMagnitude magnitude = integer * Binary64.unitsInOne) :
    gridUnits magnitude = (Decimal.mk integer 0).value := by
  obtain ⟨point, pointIs, one⟩ := Binary64.exists_unitsInOne_eq
  have scale : ((Decimal.mk integer 0).exponent + 1074).toNat = point := by
    rw [pointIs]
    rfl
  rw [gridUnits, value, scale, units, one, ← pointIs, mul_assoc, Nat.pow_eq, ← Nat.mul_pow]

end Decimal

namespace Number

open Binary64

/-- The decimal that is written for the absolute value of a finite number. -/
def decimal : Number → Decimal
  | .int value => ⟨value.toInt.natAbs, 0⟩
  | .uint value => ⟨value.toNat, 0⟩
  | .float value =>
    match value.toInteger? with
    | some integer => ⟨integer.natAbs, 0⟩
    | none => Decimal.shortest value

/-- The decimal of a number has no digits below the finest grid. -/
theorem fine_decimal (number : Number) : -1074 ≤ number.decimal.exponent := by
  cases number with
  | int value => simp [decimal]
  | uint value => simp [decimal]
  | float value =>
    rw [decimal]
    split
    · simp
    · exact Decimal.fine_shortest value

/-- The absolute value of a floating number is its number of units. -/
theorem natAbs_signedUnits (value : Binary64) : value.signedUnits.natAbs = value.units := by
  unfold signedUnits
  split <;> simp

/-- A number has no negative value unless it is negative and no zero. -/
theorem signedUnits_neg_iff {value : Binary64} :
    value.signedUnits < 0 ↔ value.isNegative = true ∧ 0 < value.magnitude := by
  rw [← units_pos_iff, signedUnits]
  split <;> simp_all

/-- A floating number that is written as an integer has the value of the integer. -/
theorem signedUnits_of_toInteger? {value : Binary64} {integer : Int}
    (read : value.toInteger? = some integer) : value.signedUnits = integer * unitsInOne := by
  unfold toInteger? at read
  split at read
  · rename_i holds
    cases read
    exact signedUnits_of_isWhole (Bool.and_eq_true_iff.1 holds).1
  · cases read

/-- An integer in plain form. -/
theorem toList_integerText (integer : Int) :
    (Decimal.integerText integer).toList =
      (if integer < 0 then ['-'] else []) ++ (Decimal.mk integer.natAbs 0).inPlace false := by
  simp [Decimal.integerText, Decimal.integerChars, Decimal.inPlace, Decimal.digitChars]

/-- A floating number is written as an integer, or it is no zero. -/
theorem magnitude_pos_of_toInteger?_eq_none {value : Binary64} (read : value.toInteger? = none) :
    0 < value.magnitude := by
  by_contra zero
  have units : value.units = 0 := by
    rw [Binary64.units, Nat.eq_zero_of_not_pos zero, unitsOfMagnitude_zero]
  have whole : value.signedUnits = 0 * unitsInOne := by simp [signedUnits, units]
  rw [toInteger?_of_signedUnits (by decide) whole] at read
  cases read

/-- The text of a finite number is a sign where the value is negative, and the decimal of the
number in plain form. -/
theorem toList_text {number : Number} (finite : number.IsFinite) :
    number.text.toList =
      (if number.exact < 0 then ['-'] else []) ++ number.decimal.inPlace false := by
  have positive : 0 < (unitsInOne : Int) := Int.natCast_pos.2 unitsInOne_pos
  have negative : ∀ integer : Int, integer * unitsInOne < 0 ↔ integer < 0 := by
    intro integer
    rw [← not_le, ← not_le, mul_nonneg_iff_of_pos_right positive]
  cases number with
  | int value =>
    rw [text, toList_integerText, exact]
    simp only [negative, decimal]
  | uint value =>
    rw [text, Decimal.naturalText_eq, toList_integerText, exact]
    simp only [negative, decimal, Int.natAbs_natCast]
  | float value =>
    cases read : value.toInteger? with
    | some integer =>
      have units := signedUnits_of_toInteger? read
      simp only [text, read, toList_integerText, exact, units, negative, decimal]
    | none =>
      have sign := @signedUnits_neg_iff value
      simp only [magnitude_pos_of_toInteger?_eq_none read, and_true] at sign
      have finite : value.isFinite = true := finite
      have notNaN : value.isNaN = false := by
        simp only [isFinite, isNaN, decide_eq_true_eq, decide_eq_false_iff_not] at finite ⊢
        omega
      have notInfinite : value.isInfinite = false := by
        simp only [isFinite, isInfinite, decide_eq_true_eq, beq_eq_false_iff_ne] at finite ⊢
        omega
      simp [text, read, plainText, notNaN, notInfinite, write, Decimal.write, Decimal.Layout.plain,
        exact, sign, decimal]

/-- Texts of finite numbers tell the sign and the value of the decimal. -/
theorem decimal_value_eq_of_text_eq {left right : Number} (finite : left.IsFinite)
    (finiteToo : right.IsFinite) (same : left.text = right.text) :
    (left.exact < 0 ↔ right.exact < 0) ∧ left.decimal.value = right.decimal.value := by
  have chars := congrArg String.toList same
  rw [toList_text finite, toList_text finiteToo] at chars
  have noSign : ∀ number : Number, '-' ∉ number.decimal.inPlace false := by
    intro number member
    rcases Decimal.isDigit_or_eq_of_mem_inPlace number.fine_decimal member with digit | point
    · cases digit
    · cases point
  have told : left.decimal.inPlace false = right.decimal.inPlace false →
      left.decimal.value = right.decimal.value :=
    Decimal.value_eq_of_plain_eq left.fine_decimal right.fine_decimal
  by_cases negative : left.exact < 0 <;> by_cases negativeToo : right.exact < 0 <;>
    simp only [negative, negativeToo, if_true, if_false, List.nil_append,
      List.singleton_append] at chars ⊢
  · exact ⟨trivial, told (List.cons.inj chars).2⟩
  · exact absurd (chars ▸ List.mem_cons_self) (noSign right)
  · exact absurd (chars ▸ List.mem_cons_self) (noSign left)
  · exact ⟨trivial, told chars⟩

/-- The decimal of a floating number other than zero rounds to the number. -/
theorem holds_decimal {value : Binary64} (positive : 0 < value.magnitude) :
    (Decimal.Interval.around value.magnitude).holds (2 * (Number.float value).decimal.value) =
      true := by
  cases read : value.toInteger? with
  | some integer =>
    have units : value.units = integer.natAbs * unitsInOne := by
      rw [← natAbs_signedUnits, signedUnits_of_toInteger? read, Int.natAbs_mul, Int.natAbs_natCast]
    simp only [decimal, read, ← Decimal.gridUnits_of_units units]
    exact Decimal.holds_around_self positive
  | none =>
    have notZero : value.isZero = false := by simpa [isZero] using Nat.ne_of_gt positive
    simp only [decimal, read, Decimal.shortest, notZero, Bool.false_eq_true, if_false]
    exact Decimal.holds_value_ofMagnitude positive

/-- Only the decimal of a zero has no value. -/
theorem decimal_value_pos_iff {value : Binary64} :
    0 < (Number.float value).decimal.value ↔ 0 < value.magnitude := by
  constructor
  · intro hasValue
    by_contra zero
    have units : value.signedUnits = 0 * unitsInOne := by
      have none : value.units = 0 := by
        rw [Binary64.units, Nat.eq_zero_of_not_pos zero, unitsOfMagnitude_zero]
      simp [signedUnits, none]
    obtain ⟨level, valueIs⟩ := Decimal.exists_value_eq_mul
    rw [decimal, toInteger?_of_signedUnits (by decide) units, valueIs, Int.natAbs_zero,
      Nat.zero_mul] at hasValue
    exact lt_irrefl 0 hasValue
  · intro positive
    have low := (Decimal.bounds_of_holds_around (holds_decimal positive)).1
    have units := Decimal.gridUnits_strictMono positive
    omega

/-- Finite floating numbers of one text have one exact value. -/
theorem signedUnits_eq_of_text_eq {left right : Binary64} (finite : left.isFinite = true)
    (finiteToo : right.isFinite = true)
    (same : (Number.float left).text = (Number.float right).text) :
    left.signedUnits = right.signedUnits := by
  obtain ⟨signs, values⟩ :=
    @decimal_value_eq_of_text_eq (.float left) (.float right) finite finiteToo same
  have magnitudes : left.magnitude = right.magnitude := by
    have positive := @decimal_value_pos_iff left
    rw [values, decimal_value_pos_iff] at positive
    by_cases zero : 0 < left.magnitude
    · have holds := holds_decimal zero
      rw [values] at holds
      exact Decimal.magnitude_eq_of_holds holds (holds_decimal (positive.2 zero))
    · omega
  have absolute : left.signedUnits.natAbs = right.signedUnits.natAbs := by
    rw [natAbs_signedUnits, natAbs_signedUnits, Binary64.units, magnitudes, Binary64.units]
  have alike : left.signedUnits < 0 ↔ right.signedUnits < 0 := signs
  omega

/-- A number is a floating number. -/
def isFloat : Number → Bool
  | .float _ => true
  | _ => false

/-- Finite numbers of one text and one form have one exact value. -/
theorem exact_eq_of_text_eq {left right : Number} (finite : left.IsFinite)
    (finiteToo : right.IsFinite) (forms : left.isFloat = right.isFloat)
    (same : left.text = right.text) : left.exact = right.exact := by
  have integral : ∀ number : Number, number.isFloat = false →
      ∃ integer : Int, number.exact = integer * unitsInOne ∧
        number.decimal = ⟨integer.natAbs, 0⟩ := by
    intro number form
    cases number with
    | int value => exact ⟨value.toInt, rfl, rfl⟩
    | uint value => exact ⟨value.toNat, rfl, rfl⟩
    | float value => cases form
  cases form : left.isFloat with
  | false =>
    obtain ⟨first, exactly, decimalIs⟩ := integral left form
    obtain ⟨second, exactlyToo, decimalIsToo⟩ := integral right (forms ▸ form)
    obtain ⟨signs, values⟩ := decimal_value_eq_of_text_eq finite finiteToo same
    obtain ⟨level, valueIs⟩ := Decimal.exists_value_eq_mul
    rw [decimalIs, decimalIsToo, valueIs, valueIs] at values
    have absolute : first.natAbs = second.natAbs :=
      Nat.eq_of_mul_eq_mul_right (Nat.pow_pos (by decide)) values
    have positive : 0 < (unitsInOne : Int) := Int.natCast_pos.2 unitsInOne_pos
    rw [exactly, exactlyToo, ← not_le, ← not_le, mul_nonneg_iff_of_pos_right positive,
      mul_nonneg_iff_of_pos_right positive] at signs
    have integers : first = second := by omega
    rw [exactly, exactlyToo, integers]
  | true =>
    cases left with
    | float value =>
      cases right with
      | float other => exact signedUnits_eq_of_text_eq finite finiteToo same
      | _ => cases forms
    | _ => cases form

/-- A number is not finite when it stands for no number or is infinite. -/
theorem isFinite_eq_false_iff {value : Binary64} :
    value.isFinite = false ↔ value.isNaN = true ∨ value.magnitude = infinityMagnitude := by
  simp only [isFinite, isNaN, decide_eq_true_eq, decide_eq_false_iff_not]
  omega

/-- The words for what is not finite. -/
theorem text_of_not_isFinite {value : Binary64} (infinite : value.isFinite = false) :
    (Number.float value).text =
      if value.isNaN then "NaN" else if value.isNegative then "-inf" else "inf" := by
  have notWhole : value.toInteger? = none := by simp [toInteger?, isWhole, infinite]
  simp only [text, notWhole, plainText]
  split
  · rfl
  · rename_i notNaN
    have isInfinite : value.isInfinite = true :=
      beq_iff_eq.2 ((isFinite_eq_false_iff.1 infinite).resolve_left notNaN)
    rw [if_pos isInfinite]

/-- A number that has the text of a finite one is finite: only what is not is written with
letters. -/
theorem isFinite_of_text_eq {left right : Number} (finite : left.IsFinite)
    (same : left.text = right.text) : right.IsFinite := by
  cases right with
  | int value => trivial
  | uint value => trivial
  | float value =>
    by_contra notFinite
    have infinite : value.isFinite = false := Bool.eq_false_iff.2 notFinite
    have letter : ∃ char ∈ left.text.toList, char = 'N' ∨ char = 'n' := by
      rw [same, text_of_not_isFinite infinite]
      split
      · exact ⟨'N', by simp, .inl rfl⟩
      · split <;> exact ⟨'n', by simp, .inr rfl⟩
    obtain ⟨char, member, isLetter⟩ := letter
    rw [toList_text finite] at member
    rcases List.mem_append.1 member with sign | number
    · split at sign
      · rw [List.mem_singleton.1 sign] at isLetter
        simp at isLetter
      · cases sign
    · rcases Decimal.isDigit_or_eq_of_mem_inPlace left.fine_decimal number with digit | point
      · rcases isLetter with rfl | rfl <;> cases digit
      · rw [point] at isLetter
        simp at isLetter

/-- Numbers of one text are both finite or neither is. -/
theorem isFinite_iff_of_text_eq {left right : Number} (same : left.text = right.text) :
    left.IsFinite ↔ right.IsFinite :=
  ⟨fun finite => isFinite_of_text_eq finite same, fun finite => isFinite_of_text_eq finite same.symm⟩

/-- Only the sign of an infinity shows in its word. -/
theorem eq_of_text_eq_of_not_isFinite {left right : Binary64} (infinite : left.isFinite = false)
    (infiniteToo : right.isFinite = false)
    (same : (Number.float left).text = (Number.float right).text) :
    (left.isNaN = true ∧ right.isNaN = true) ∨
      (left.isNaN = false ∧ right.isNaN = false ∧ left = right) := by
  rw [text_of_not_isFinite infinite, text_of_not_isFinite infiniteToo] at same
  cases leftNaN : left.isNaN <;> cases rightNaN : right.isNaN <;>
    simp only [leftNaN, rightNaN, Bool.false_eq_true, if_true, if_false] at same
  · refine .inr ⟨rfl, rfl, eq_of_parts ?_ ?_⟩
    · rw [isFinite_eq_false_iff, leftNaN] at infinite
      rw [isFinite_eq_false_iff, rightNaN] at infiniteToo
      rw [infinite.resolve_left Bool.false_ne_true, infiniteToo.resolve_left Bool.false_ne_true]
    · cases leftSign : left.isNegative <;> cases rightSign : right.isNegative <;>
        simp [leftSign, rightSign] at same ⊢
  · split at same <;> simp at same
  · split at same <;> simp at same
  · exact .inl ⟨rfl, rfl⟩

/-- A floating zero is written as one digit, without its sign. -/
theorem text_of_isZero {value : Binary64} (zero : value.isZero = true) :
    (Number.float value).text = "0" := by
  have none : value.magnitude = 0 := beq_iff_eq.1 zero
  have units : value.signedUnits = 0 * unitsInOne := by
    simp [signedUnits, Binary64.units, none, unitsOfMagnitude_zero]
  rw [text, toInteger?_of_signedUnits (by decide) units]
  rfl

/-- Floating numbers of one exact value are one number or two zeros. -/
theorem eq_or_isZero_of_signedUnits_eq {left right : Binary64}
    (same : left.signedUnits = right.signedUnits) : left = right ∨ left.isZero ∧ right.isZero := by
  by_cases nonzero : left.signedUnits = 0
  · have zero : ∀ {value : Binary64}, value.signedUnits = 0 → value.isZero = true := by
      intro value none
      have absolute := natAbs_signedUnits value
      have positive := @units_pos_iff value
      rw [isZero, beq_iff_eq]
      omega
    exact .inr ⟨zero nonzero, zero (same ▸ nonzero)⟩
  · exact .inl (eq_of_signedUnits_eq nonzero same)

end Number

end StructuralDiff
