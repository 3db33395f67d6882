import Mathlib
import StructuralDiff.Number

/-!
# The order of numbers by value

Numbers of all forms have an exact value in common units (`Number.exact`), and the order
of numbers is the order of these values (`Number.order_eq_compare_exact`), although it
goes through integers where it can and through double precision elsewhere. Rounding an
integer does no harm, since it is only compared with numbers that are not integers or are
beyond all integers: none of them lies between an integer and its rounded form.
-/

namespace StructuralDiff

/-- Two pairs that are ordered alike compare alike, whatever they are pairs of. -/
theorem compare_eq_of_lt_iff {α β : Type} [LinearOrder α] [LinearOrder β] {left right : α}
    {first second : β} (below : left < right ↔ first < second)
    (above : right < left ↔ second < first) : compare left right = compare first second := by
  rcases lt_trichotomy left right with less | same | greater
  · rw [compare_lt_iff_lt.2 less, compare_lt_iff_lt.2 (below.1 less)]
  · subst same
    have sameToo : first = second :=
      le_antisymm (not_lt.1 fun less => lt_irrefl left (above.2 less))
        (not_lt.1 fun less => lt_irrefl left (below.2 less))
    rw [compare_eq_iff_eq.2 rfl, compare_eq_iff_eq.2 sameToo]
  · rw [compare_gt_iff_gt.2 greater, compare_gt_iff_gt.2 (above.1 greater)]

namespace Binary64

theorem binadeSize_eq : binadeSize = 2 ^ 52 := by simp [binadeSize]

theorem binadeSize_pos : 0 < binadeSize := by simp [binadeSize_eq]

/-- The units in one are a power of two. -/
theorem exists_unitsInOne_eq : ∃ point, point = 1074 ∧ unitsInOne = 2 ^ point := by
  obtain ⟨point, pointIs⟩ : ∃ point, point = 1074 := ⟨_, rfl⟩
  refine ⟨point, pointIs, ?_⟩
  rw [unitsInOne, ← pointIs, Nat.one_shiftLeft]

theorem unitsInOne_pos : 0 < unitsInOne := by
  obtain ⟨point, -, units⟩ := exists_unitsInOne_eq
  rw [units]
  exact Nat.two_pow_pos point

theorem signWeight_eq : signWeight = 2048 * binadeSize := by decide

/-- The sign and the magnitude of a number that is put together from them. -/
theorem parts_ofMagnitude (negative : Bool) {magnitude : Nat} (small : magnitude < signWeight) :
    (ofMagnitude negative magnitude).magnitude = magnitude ∧
      (ofMagnitude negative magnitude).isNegative = negative := by
  have weight : signWeight = 2 ^ 63 := by decide
  rw [weight] at small
  unfold Binary64.magnitude isNegative ofMagnitude
  rw [weight]
  cases negative with
  | true =>
    have fits : (UInt64.ofNat (2 ^ 63 + magnitude)).toNat = 2 ^ 63 + magnitude :=
      UInt64.toNat_ofNat_of_lt (by simp only [UInt64.size]; omega)
    simp only [if_true, fits, decide_eq_true_eq]
    omega
  | false =>
    have fits : (UInt64.ofNat magnitude).toNat = magnitude :=
      UInt64.toNat_ofNat_of_lt (by simp only [UInt64.size]; omega)
    simp only [Bool.false_eq_true, if_false, fits, decide_eq_false_iff_not]
    omega

/-- A number is given by its sign and its magnitude. -/
theorem eq_of_parts {x y : Binary64} (magnitudes : x.magnitude = y.magnitude)
    (signs : x.isNegative = y.isNegative) : x = y := by
  have bound := x.bits.toNat_lt
  have boundToo := y.bits.toNat_lt
  have weight : signWeight = 2 ^ 63 := by decide
  have bits : x.bits.toNat = y.bits.toNat := by
    simp only [Binary64.magnitude, isNegative, weight, decide_eq_decide] at magnitudes signs
    omega
  obtain ⟨bitsOfX⟩ := x
  obtain ⟨bitsOfY⟩ := y
  exact congrArg Binary64.mk (UInt64.toNat_inj.1 bits)

/-- The units of a magnitude, by the number of bits that were dropped and the kept bits;
the kept bits may also be those of the first number of the next binade. -/
theorem unitsOfMagnitude_kept {dropped kept : Nat} (small : kept ≤ 2 * binadeSize)
    (normal : dropped = 0 ∨ binadeSize ≤ kept) :
    unitsOfMagnitude (dropped * binadeSize + kept) = kept * 2 ^ dropped := by
  have positive := binadeSize_pos
  unfold unitsOfMagnitude
  rcases Nat.lt_or_ge kept binadeSize with less | normal
  · have none : dropped = 0 := by omega
    subst none
    simp [Nat.div_eq_of_lt less, Nat.mod_eq_of_lt less]
  · rcases Nat.lt_or_eq_of_le small with within | next
    · have quotient : (dropped * binadeSize + kept) / binadeSize = dropped + 1 := by
        rw [Nat.div_eq_iff positive]
        rw [Nat.add_one_mul]
        omega
      have remainder : (dropped * binadeSize + kept) % binadeSize = kept - binadeSize := by
        have parts := Nat.div_add_mod (dropped * binadeSize + kept) binadeSize
        rw [quotient, Nat.mul_comm, Nat.add_one_mul] at parts
        omega
      simp only [quotient, remainder, Nat.add_one_ne_zero, if_false, Nat.add_sub_cancel,
        Nat.shiftLeft_eq, Nat.add_sub_cancel' normal]
    · subst next
      have whole : dropped * binadeSize + 2 * binadeSize = (dropped + 2) * binadeSize := by ring
      simp only [whole, Nat.mul_div_cancel _ positive, Nat.mul_mod_left, Nat.shiftLeft_eq]
      rw [if_neg (by omega), Nat.add_zero, show dropped + 2 - 1 = dropped + 1 from rfl, pow_succ]
      ring

/-- Every magnitude has kept bits. -/
theorem exists_kept (magnitude : Nat) :
    ∃ dropped kept, magnitude = dropped * binadeSize + kept ∧ kept < 2 * binadeSize ∧
      (dropped = 0 ∨ binadeSize ≤ kept) := by
  have positive := binadeSize_pos
  have parts := Nat.div_add_mod magnitude binadeSize
  have small := Nat.mod_lt magnitude positive
  cases binade : magnitude / binadeSize with
  | zero =>
    rw [binade] at parts
    exact ⟨0, magnitude, by omega, by omega, .inl rfl⟩
  | succ dropped =>
    rw [binade, Nat.mul_comm, Nat.add_one_mul] at parts
    exact ⟨dropped, binadeSize + magnitude % binadeSize, by omega, by omega, .inr (by omega)⟩

/-- Magnitudes order absolute values. -/
theorem unitsOfMagnitude_strictMono : StrictMono unitsOfMagnitude := by
  refine strictMono_nat_of_lt_succ fun magnitude => ?_
  obtain ⟨dropped, kept, rfl, small, normal⟩ := exists_kept magnitude
  rw [Nat.add_assoc, unitsOfMagnitude_kept (by omega) normal,
    unitsOfMagnitude_kept (by omega) (by omega)]
  exact Nat.mul_lt_mul_of_pos_right (Nat.lt_succ_self kept) (Nat.two_pow_pos dropped)

@[simp] theorem unitsOfMagnitude_zero : unitsOfMagnitude 0 = 0 := by simp [unitsOfMagnitude]

/-- The magnitude that an integer is rounded to lies where the integer lies, as seen from
every other magnitude, and it is that of a whole number. -/
structure Rounds (value rounded : Nat) : Prop where
  below : ∀ magnitude, magnitude < rounded → unitsOfMagnitude magnitude < value * unitsInOne
  above : ∀ magnitude, rounded < magnitude → value * unitsInOne < unitsOfMagnitude magnitude
  whole : unitsInOne ∣ unitsOfMagnitude rounded
  bounded : rounded ≤ 1088 * binadeSize

/-- The nearest whole number is the quotient, or the next one when there is a remainder. -/
theorem nearestQuotient_eq_or (dividend divisor : Nat) :
    nearestQuotient dividend divisor = dividend / divisor ∨
      nearestQuotient dividend divisor = dividend / divisor + 1 ∧
        (0 < divisor → 0 < dividend % divisor) := by
  unfold nearestQuotient
  dsimp only
  split
  · exact .inl rfl
  · rename_i far
    refine .inr ⟨rfl, fun positive => ?_⟩
    simp only [Bool.or_eq_true, decide_eq_true_eq, not_or, not_lt] at far
    omega

/-- Kept bits that come from a quotient, rounded down or, past a remainder, up, are those of
a magnitude that lies where the divided number lies. -/
theorem units_around {scaled dropped kept : Nat} (full : binadeSize ≤ scaled / 2 ^ dropped)
    (notOver : scaled / 2 ^ dropped < 2 * binadeSize)
    (rounded : kept = scaled / 2 ^ dropped ∨
      kept = scaled / 2 ^ dropped + 1 ∧ 0 < scaled % 2 ^ dropped) :
    (∀ magnitude, magnitude < dropped * binadeSize + kept →
      unitsOfMagnitude magnitude < scaled) ∧
    (∀ magnitude, dropped * binadeSize + kept < magnitude →
      scaled < unitsOfMagnitude magnitude) := by
  have parts := Nat.div_add_mod scaled (2 ^ dropped)
  have small := Nat.mod_lt scaled (Nat.two_pow_pos dropped)
  have floor : unitsOfMagnitude (dropped * binadeSize + scaled / 2 ^ dropped) =
      scaled / 2 ^ dropped * 2 ^ dropped :=
    unitsOfMagnitude_kept (Nat.le_of_lt notOver) (.inr full)
  have next : unitsOfMagnitude (dropped * binadeSize + (scaled / 2 ^ dropped + 1)) =
      (scaled / 2 ^ dropped + 1) * 2 ^ dropped :=
    unitsOfMagnitude_kept notOver (.inr (by omega))
  rw [Nat.add_one_mul] at next
  rw [Nat.mul_comm] at parts
  rcases rounded with rfl | ⟨rfl, remains⟩
  · constructor
    · intro magnitude less
      have below := unitsOfMagnitude_strictMono less
      omega
    · intro magnitude greater
      have above := unitsOfMagnitude_strictMono.monotone (Nat.succ_le_of_lt greater)
      rw [Nat.succ_eq_add_one, Nat.add_assoc] at above
      omega
  · constructor
    · intro magnitude less
      rw [← Nat.add_assoc] at less
      have below := unitsOfMagnitude_strictMono.monotone (Nat.le_of_lt_succ less)
      omega
    · intro magnitude greater
      have above := unitsOfMagnitude_strictMono greater
      omega

/-- An integer that sixty-four bits can hold, in units, has its leading bit where
fifty-three bits can be kept. -/
theorem exists_leading_bits {value : Nat} (positive : 0 < value) (small : value ≤ 2 ^ 64) :
    ∃ dropped, (value * unitsInOne).log2 = dropped + 52 ∧ dropped ≤ 1086 ∧
      binadeSize ≤ value * unitsInOne / 2 ^ dropped ∧
      value * unitsInOne / 2 ^ dropped < 2 * binadeSize := by
  obtain ⟨point, pointIs, units⟩ := exists_unitsInOne_eq
  have scaledPositive : value * unitsInOne ≠ 0 :=
    Nat.mul_ne_zero (Nat.ne_of_gt positive) (Nat.ne_of_gt unitsInOne_pos)
  obtain ⟨top, topIs⟩ : ∃ top, top = (value * unitsInOne).log2 := ⟨_, rfl⟩
  have low : 2 ^ top ≤ value * unitsInOne := topIs ▸ Nat.log2_self_le scaledPositive
  have high : value * unitsInOne < 2 ^ (top + 1) := topIs ▸ Nat.lt_log2_self
  have atLeast : point ≤ top := by
    rw [topIs, Nat.le_log2 scaledPositive, units]
    exact Nat.le_mul_of_pos_left _ positive
  have atMost : top ≤ 64 + point := by
    have product : value * unitsInOne ≤ 2 ^ (64 + point) := by
      rw [units, pow_add]
      exact Nat.mul_le_mul_right _ small
    exact (Nat.pow_le_pow_iff_right (by decide)).1 (low.trans product)
  obtain ⟨dropped, droppedIs⟩ : ∃ dropped, top = dropped + 52 := ⟨top - 52, by omega⟩
  have divisorPositive := Nat.two_pow_pos dropped
  refine ⟨dropped, topIs.symm.trans droppedIs, by omega, ?_, ?_⟩
  · rw [Nat.le_div_iff_mul_le divisorPositive, binadeSize_eq, ← pow_add, Nat.add_comm 52,
      ← droppedIs]
    exact low
  · rw [Nat.div_lt_iff_lt_mul divisorPositive, binadeSize_eq, ← pow_succ', ← pow_add,
      show 52 + 1 + dropped = top + 1 by omega]
    exact high

/-- What an integer is rounded to is whole: either only bits below the point were dropped,
or the dropped bits are all zero. -/
theorem unitsInOne_dvd_rounded {value dropped kept : Nat}
    (rounded : kept = value * unitsInOne / 2 ^ dropped ∨
      kept = value * unitsInOne / 2 ^ dropped + 1 ∧ 0 < value * unitsInOne % 2 ^ dropped) :
    unitsInOne ∣ kept * 2 ^ dropped := by
  obtain ⟨point, -, units⟩ := exists_unitsInOne_eq
  rcases Nat.le_total point dropped with many | few
  · rw [units]
    exact Dvd.dvd.mul_left (Nat.pow_dvd_pow 2 many) kept
  · have divides : 2 ^ dropped ∣ value * unitsInOne := by
      rw [units]
      exact Dvd.dvd.mul_left (Nat.pow_dvd_pow 2 few) value
    have exact : kept = value * unitsInOne / 2 ^ dropped := by
      have none := Nat.mod_eq_zero_of_dvd divides
      omega
    rw [exact, Nat.div_mul_cancel divides]
    exact Dvd.intro_left value rfl

/-- Integers that sixty-four bits can hold are rounded. -/
theorem rounds_nearestMagnitude {value : Nat} (small : value ≤ 2 ^ 64) :
    Rounds value (nearestMagnitude value 1) := by
  rcases Nat.eq_zero_or_pos value with rfl | positive
  · have zero : nearestMagnitude 0 1 = 0 := by
      simp [nearestMagnitude, nearestQuotient]
    rw [zero]
    refine ⟨fun magnitude less => by omega, fun magnitude greater => ?_, by simp, by omega⟩
    simpa using unitsOfMagnitude_strictMono greater
  · obtain ⟨dropped, top, low, full, notOver⟩ := exists_leading_bits positive small
    obtain ⟨kept, keptIs⟩ : ∃ kept, kept = nearestQuotient (value * unitsInOne) (2 ^ dropped) :=
      ⟨_, rfl⟩
    have rounded : kept = value * unitsInOne / 2 ^ dropped ∨
        kept = value * unitsInOne / 2 ^ dropped + 1 ∧ 0 < value * unitsInOne % 2 ^ dropped := by
      rw [keptIs]
      exact (nearestQuotient_eq_or _ _).imp_right fun up => ⟨up.1, up.2 (Nat.two_pow_pos dropped)⟩
    have keptSmall : kept ≤ 2 * binadeSize := by omega
    have droppedSmall : dropped * binadeSize ≤ 1086 * binadeSize := Nat.mul_le_mul_right _ low
    have nearest : nearestMagnitude value 1 = dropped * binadeSize + kept := by
      unfold nearestMagnitude
      simp only [Nat.div_one, top, Nat.one_shiftLeft]
      rw [Nat.add_sub_cancel, ← keptIs, Nat.min_eq_left]
      rw [infinityMagnitude]
      omega
    obtain ⟨below, above⟩ := units_around full notOver rounded
    rw [nearest]
    refine ⟨below, above, ?_, by omega⟩
    rw [unitsOfMagnitude_kept keptSmall (.inr (by omega))]
    exact unitsInOne_dvd_rounded rounded

/-- Magnitudes with signs are ordered as any growing values of the magnitudes are with the
same signs; zeros of different signs are apart in the first order only. -/
theorem compare_signed {negative negativeToo : Bool} {left right first second : Nat}
    (below : left < right → first < second) (above : right < left → second < first)
    (same : negative = negativeToo → left = right → first = second)
    (nonzero : negative ≠ negativeToo → 0 < first ∨ 0 < second) :
    compare (if negative then -(left : Int) - 1 else left)
        (if negativeToo then -(right : Int) - 1 else right) =
      compare (if negative then -(first : Int) else first)
        (if negativeToo then -(second : Int) else second) := by
  cases negative <;> cases negativeToo <;>
    simp only [Bool.false_eq_true, if_true, if_false, ne_eq, not_true_eq_false, not_false_eq_true,
      reduceCtorEq, forall_true_left, false_implies] at same nonzero ⊢ <;>
    refine compare_eq_of_lt_iff ?_ ?_ <;> constructor <;> omega

/-- A whole number is as many times the units in one as its integer says. -/
theorem signedUnits_of_isWhole {x : Binary64} (whole : x.isWhole) :
    x.signedUnits = x.truncate * unitsInOne := by
  simp only [isWhole, Bool.and_eq_true, beq_iff_eq] at whole
  have divided : x.units / unitsInOne * unitsInOne = x.units :=
    Nat.div_mul_cancel (Nat.dvd_of_mod_eq_zero whole.2)
  have cast : ((x.units / unitsInOne : Nat) : Int) * unitsInOne = x.units := by
    rw [← Nat.cast_mul, divided]
  unfold signedUnits truncate
  dsimp only
  split
  · rw [neg_mul, cast]
  · rw [cast]

/-- Only the zeros have no units. -/
theorem units_pos_iff {x : Binary64} : 0 < x.units ↔ 0 < x.magnitude := by
  have zero := unitsOfMagnitude_zero
  have order := unitsOfMagnitude_strictMono.lt_iff_lt (a := 0) (b := x.magnitude)
  rw [zero] at order
  exact order

/-- Zeros are whole. -/
theorem isWhole_of_magnitude_eq_zero {x : Binary64} (zero : x.magnitude = 0) : x.isWhole := by
  have units : x.units = 0 := by rw [units, zero, unitsOfMagnitude_zero]
  have finite : x.isFinite = true := by
    rw [isFinite, zero]
    decide
  simp [isWhole, finite, units]

end Binary64

namespace Number

open Binary64

/-- The exact value of a number in units. Infinities, and what is not a number, have the
value that would follow the finite ones. -/
def exact : Number → Int
  | .int value => value.toInt * unitsInOne
  | .uint value => value.toNat * unitsInOne
  | .float value => value.signedUnits

/-- A number that is compared as an integer has the exact value of that integer. -/
theorem exact_of_wholeValue {number : Number} {integer : Int}
    (whole : number.wholeValue = some integer) : number.exact = integer * unitsInOne := by
  cases number with
  | int value =>
    cases whole
    rfl
  | uint value =>
    cases whole
    rfl
  | float value =>
    rw [wholeValue] at whole
    split at whole
    · rename_i holds
      cases whole
      exact signedUnits_of_isWhole (Bool.and_eq_true_iff.1 holds).1
    · cases whole

/-- The bound of the numbers that are compared as integers is beyond all integers. -/
theorem bounded_lt_wholeBound : 1088 * binadeSize < wholeBound.magnitude := by
  have bits : wholeBound.bits = 0x47d2ced32a16a1b1 := by decide +kernel
  rw [magnitude, bits, binadeSize_eq]
  decide

/-- What is not compared as an integer is beyond the bound, or not whole. -/
theorem isWhole_imp_of_wholeValue_eq_none {value : Binary64}
    (notWhole : (Number.float value).wholeValue = none) (whole : value.isWhole) :
    wholeBound.magnitude ≤ value.magnitude := by
  simpa [wholeValue, whole] using notWhole

/-- What is not compared as an integer is no zero. -/
theorem magnitude_pos_of_wholeValue_eq_none {value : Binary64}
    (notWhole : (Number.float value).wholeValue = none) : 0 < value.magnitude := by
  by_contra zero
  have zero : value.magnitude = 0 := by omega
  have beyond := isWhole_imp_of_wholeValue_eq_none notWhole (isWhole_of_magnitude_eq_zero zero)
  have less := bounded_lt_wholeBound
  omega

/-- What an integer is rounded to is whole and below the bound, so it is another number than
what is not compared as an integer. -/
theorem nearestMagnitude_ne_of_wholeValue_eq_none {absolute : Nat} (small : absolute ≤ 2 ^ 64)
    {value : Binary64} (notWhole : (Number.float value).wholeValue = none) :
    nearestMagnitude absolute 1 ≠ value.magnitude := by
  intro same
  have rounds := rounds_nearestMagnitude small
  rw [same] at rounds
  have bound := rounds.bounded
  have finite : value.isFinite = true := by
    have positive := binadeSize_pos
    rw [isFinite, infinityMagnitude, decide_eq_true_eq]
    omega
  have divides : unitsInOne ∣ value.units := rounds.whole
  have whole : value.isWhole := by
    simp [isWhole, finite, Nat.mod_eq_zero_of_dvd divides]
  have beyond := isWhole_imp_of_wholeValue_eq_none notWhole whole
  have less := bounded_lt_wholeBound
  omega

/-- An integer in units has the sign of the integer. -/
theorem mul_unitsInOne_eq (integer : Int) :
    integer * unitsInOne =
      if decide (integer < 0) then -((integer.natAbs * unitsInOne : Nat) : Int)
      else (integer.natAbs * unitsInOne : Nat) := by
  rw [Nat.cast_mul]
  by_cases negative : integer < 0
  · have absolute : (integer.natAbs : Int) = -integer := by omega
    simp [negative, absolute]
  · have absolute : (integer.natAbs : Int) = integer := by omega
    simp [negative, absolute]

/-- An integer is compared with a number that is not compared as one as their exact values
are. -/
theorem compare_rounded {integer : Int} (small : integer.natAbs ≤ 2 ^ 64) {value : Binary64}
    (notWhole : (Number.float value).wholeValue = none) :
    (ofInt integer).totalCompare value =
      compare (integer * unitsInOne) value.signedUnits := by
  have rounds := rounds_nearestMagnitude small
  have fits : nearestMagnitude integer.natAbs 1 < signWeight := by
    have bound := rounds.bounded
    have positive := binadeSize_pos
    rw [signWeight_eq]
    omega
  obtain ⟨magnitudes, signs⟩ := parts_ofMagnitude (decide (integer < 0)) fits
  have apart := nearestMagnitude_ne_of_wholeValue_eq_none small notWhole
  have nonzero := magnitude_pos_of_wholeValue_eq_none notWhole
  unfold totalCompare rank ofInt ofRatio
  rw [magnitudes, signs, mul_unitsInOne_eq, signedUnits]
  refine compare_signed (fun less => ?_) (fun greater => ?_) (fun _ same => absurd same apart)
    (fun _ => .inr (units_pos_iff.2 nonzero))
  · exact rounds.above _ less
  · exact rounds.below _ greater

/-- Two floating numbers of which one is not compared as an integer are compared as their
exact values are. -/
theorem totalCompare_eq_compare {left right : Binary64}
    (notWhole : (Number.float left).wholeValue = none ∨ (Number.float right).wholeValue = none) :
    left.totalCompare right = compare left.signedUnits right.signedUnits := by
  have nonzero : 0 < left.magnitude ∨ 0 < right.magnitude :=
    notWhole.imp magnitude_pos_of_wholeValue_eq_none magnitude_pos_of_wholeValue_eq_none
  unfold totalCompare rank signedUnits
  refine compare_signed (fun less => unitsOfMagnitude_strictMono less)
    (fun greater => unitsOfMagnitude_strictMono greater) (fun _ same => ?_) (fun _ => ?_)
  · rw [units, units, same]
  · exact nonzero.imp units_pos_iff.2 units_pos_iff.2

/-- A number is an integer that sixty-four bits can hold, or a floating number. -/
theorem exists_integer_or_float (number : Number) :
    (∃ integer : Int, integer.natAbs ≤ 2 ^ 64 ∧ number.wholeValue = some integer ∧
      number.toBinary64 = ofInt integer) ∨ ∃ value, number = .float value := by
  cases number with
  | int value =>
    have low := value.le_toInt
    have high := value.toInt_lt
    exact .inl ⟨value.toInt, by omega, rfl, rfl⟩
  | uint value =>
    have high := value.toNat_lt
    exact .inl ⟨value.toNat, by omega, rfl, rfl⟩
  | float value => exact .inr ⟨value, rfl⟩

/-- The order of numbers is the order of their exact values. -/
theorem order_eq_compare_exact (left right : Number) :
    left.order right = compare left.exact right.exact := by
  unfold order
  split
  · rename_i first second leftWhole rightWhole
    rw [exact_of_wholeValue leftWhole, exact_of_wholeValue rightWhole]
    have positive : 0 < (unitsInOne : Int) := Int.natCast_pos.2 unitsInOne_pos
    refine compare_eq_of_lt_iff ?_ ?_
    · exact (Int.mul_lt_mul_right positive).symm
    · exact (Int.mul_lt_mul_right positive).symm
  · rename_i notBoth
    rcases exists_integer_or_float left with ⟨first, small, leftWhole, leftFloat⟩ | ⟨x, rfl⟩
    · rcases exists_integer_or_float right with ⟨second, -, rightWhole, -⟩ | ⟨y, rfl⟩
      · exact (notBoth first second leftWhole rightWhole).elim
      · have notWhole : (Number.float y).wholeValue = none :=
          Option.eq_none_iff_forall_not_mem.2 fun second => notBoth first second leftWhole
        rw [leftFloat, exact_of_wholeValue leftWhole]
        exact compare_rounded small notWhole
    · rcases exists_integer_or_float right with ⟨second, small, rightWhole, rightFloat⟩ | ⟨y, rfl⟩
      · have notWhole : (Number.float x).wholeValue = none :=
          Option.eq_none_iff_forall_not_mem.2 fun first leftWhole =>
            notBoth first second leftWhole rightWhole
        have mirrored := congrArg Ordering.swap (compare_rounded small notWhole)
        rw [totalCompare, Int.compare_swap, Int.compare_swap] at mirrored
        rw [rightFloat, exact_of_wholeValue rightWhole]
        exact mirrored
      · refine totalCompare_eq_compare ?_
        by_contra both
        rw [not_or] at both
        obtain ⟨first, leftWhole⟩ := Option.ne_none_iff_exists'.1 both.1
        obtain ⟨second, rightWhole⟩ := Option.ne_none_iff_exists'.1 both.2
        exact notBoth first second leftWhole rightWhole

/-- Numbers are equal when they are the same integer, or both are none and their
double-precision forms are equal. -/
theorem equal_iff {left right : Number} :
    left.equal right = true ↔ left.wholeValue = right.wholeValue ∧
      (left.wholeValue = none → left.toBinary64.equal right.toBinary64 = true) := by
  unfold equal
  cases left.wholeValue <;> cases right.wholeValue <;> simp

end Number

end StructuralDiff
