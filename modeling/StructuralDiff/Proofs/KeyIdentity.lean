import Mathlib
import StructuralDiff.Proofs.CompactText
import StructuralDiff.Proofs.IndexFaults
import StructuralDiff.Proofs.Relaxing
import StructuralDiff.Proofs.SelfComparison

/-!
# What the identity of a key value tells

Items are paired by a key when the values of the key have one identity, and a key value has
the text of its JSON form for identity. Whether two key values are equal is told by that
text, unless the text leaves out in what they differ or shows in what they agree: infinities
and null are all null in JSON, an integer above the signed range is written otherwise than
the floating number of its value, keys of two kinds are spelled alike, and the keys of an
object keep their order (`Value.Mistold`). For all other key values, items are paired, or
stand in each other's way, exactly when their key values are equal
(`Policy.identity_tells_equality`).
-/

namespace StructuralDiff

namespace Decimal

/-- The text of an integer tells the integer. -/
theorem integerText_inj {left right : Int} (same : integerText left = integerText right) :
    left = right := by
  have chars := congrArg String.toList same
  simp only [integerText, String.toList_ofList, integerChars] at chars
  have noSign : ∀ number : Nat, '-' ∉ Nat.toDigits 10 number := by
    intro number member
    cases Nat.isDigit_of_mem_toDigits (by decide) (by decide) member
  have absolute : ∀ {number other : Nat}, Nat.toDigits 10 number = Nat.toDigits 10 other →
      number = other := fun same => naturalText_inj (congrArg String.ofList same)
  by_cases negative : left < 0 <;> by_cases negativeToo : right < 0 <;>
    simp only [negative, negativeToo, if_true, if_false, List.nil_append,
      List.singleton_append] at chars
  · have same := absolute (List.cons.inj chars).2
    omega
  · exact absurd (chars ▸ List.mem_cons_self) (noSign right.natAbs)
  · exact absurd (chars ▸ List.mem_cons_self) (noSign left.natAbs)
  · have same := absolute chars
    omega

end Decimal

namespace Number

open Binary64

/-- A floating number with the exact value of an integer of sixty-four bits is compared as
that integer. -/
theorem wholeValue_of_signedUnits {value : Binary64} {integer : Int}
    (small : integer.natAbs ≤ 2 ^ 64) (same : value.signedUnits = integer * unitsInOne) :
    (Number.float value).wholeValue = some integer := by
  obtain ⟨absolute, whole, truncated⟩ := whole_of_signedUnits small same
  have below : value.magnitude < wholeBound.magnitude := by
    by_contra beyond
    have rounds := rounds_nearestMagnitude small
    have bounded := rounds.bounded
    have bound := bounded_lt_wholeBound
    have greater := rounds.above value.magnitude (by omega)
    rw [← absolute] at greater
    exact lt_irrefl _ greater
  simp [wholeValue, whole, below, truncated]

/-- A number with the exact value of an integer of sixty-four bits is compared as that
integer. -/
theorem wholeValue_of_exact {number : Number} {integer : Int} (small : integer.natAbs ≤ 2 ^ 64)
    (same : number.exact = integer * unitsInOne) : number.wholeValue = some integer := by
  have nonzero : (unitsInOne : Int) ≠ 0 := Int.natCast_ne_zero.2 (Nat.ne_of_gt unitsInOne_pos)
  cases number with
  | int value => exact congrArg some (Int.eq_of_mul_eq_mul_right nonzero same)
  | uint value => exact congrArg some (Int.eq_of_mul_eq_mul_right nonzero same)
  | float value => exact wholeValue_of_signedUnits small same

/-- Numbers of one exact value are equal, if they stand for a value at all. -/
theorem equal_of_exact_eq {left right : Number} (hasValue : left.HasValue)
    (same : left.exact = right.exact) : left.equal right = true := by
  -- It is enough that one of them is an integer of sixty-four bits.
  have integral : ∀ integer : Int, integer.natAbs ≤ 2 ^ 64 →
      left.exact = integer * unitsInOne → left.equal right = true := by
    intro integer small exactly
    have whole := wholeValue_of_exact small exactly
    have wholeToo := wholeValue_of_exact small (same ▸ exactly)
    refine equal_iff.2 ⟨whole.trans wholeToo.symm, fun none => ?_⟩
    rw [whole] at none
    cases none
  rcases left.exists_integer_or_float with ⟨integer, small, whole, -⟩ | ⟨value, rfl⟩
  · exact integral integer small (exact_of_wholeValue whole)
  · rcases right.exists_integer_or_float with ⟨integer, small, whole, -⟩ | ⟨other, rfl⟩
    · exact integral integer small (same.trans (exact_of_wholeValue whole))
    · by_cases zero : value.signedUnits = 0
      · exact integral 0 (by decide) (by rw [zero_mul]; exact zero)
      · rw [eq_of_signedUnits_eq zero same]
        rw [eq_of_signedUnits_eq zero same] at hasValue
        exact equal_self_iff.2 hasValue

/-- What equals a finite number is finite. -/
theorem IsFinite.of_equal {left right : Number} (finite : left.IsFinite)
    (equal : left.equal right = true) : right.IsFinite := by
  cases right with
  | int value => trivial
  | uint value => trivial
  | float value =>
    cases whole : (Number.float value).wholeValue with
    | some integer =>
      rw [wholeValue] at whole
      split at whole
      · rename_i holds
        simp only [isWhole, Bool.and_eq_true] at holds
        exact holds.1.1
      · cases whole
    | none =>
      have same := exact_eq_of_equal equal
      have nonzero : value.signedUnits ≠ 0 := by
        intro zero
        have small : (0 : Int).natAbs ≤ 2 ^ 64 := by decide
        rw [wholeValue_of_signedUnits small (by rw [zero_mul]; exact zero)] at whole
        cases whole
      rcases left.exists_integer_or_float with ⟨integer, -, wholeToo, -⟩ | ⟨other, rfl⟩
      · rw [(equal_iff.1 equal).1, whole] at wholeToo
        cases wholeToo
      · have alike := eq_of_signedUnits_eq nonzero same.symm
        subst alike
        exact finite

/-- Finite numbers that are alike in JSON have one exact value. -/
theorem exact_eq_of_inspect_eq {left right : Number} (finite : left.IsFinite)
    (finiteToo : right.IsFinite)
    (same : (Value.number left).inspect = (Value.number right).inspect) :
    left.exact = right.exact := by
  rcases integer_or_float_of_isFinite finite with
    ⟨integer, exactly, -, inspected⟩ | ⟨value, rfl, nonzero, inspected⟩
  · rcases integer_or_float_of_isFinite finiteToo with
      ⟨other, exactlyToo, -, inspectedToo⟩ | ⟨other, rfl, -, inspectedToo⟩
    · rw [inspected, inspectedToo] at same
      rw [exactly, exactlyToo, Decimal.integerText_inj same]
    · rw [inspected, inspectedToo] at same
      exact absurd same (integerText_ne_write integer other)
  · rcases integer_or_float_of_isFinite finiteToo with
      ⟨other, -, -, inspectedToo⟩ | ⟨other, rfl, nonzeroToo, inspectedToo⟩
    · rw [inspected, inspectedToo] at same
      exact absurd same.symm (integerText_ne_write other value)
    · rw [inspected, inspectedToo] at same
      rw [eq_of_write_eq nonzero nonzeroToo same]

/-- An integer above the signed range and the floating number of its value are written in
different ways in JSON. -/
theorem Mixed.inspect_ne {left right : Number} {integer : UInt64} {value : Binary64}
    (mixed : left.Mixed right integer value) :
    (Value.number left).inspect ≠ (Value.number right).inspect := by
  have small : (integer.toNat : Int).natAbs ≤ 2 ^ 64 := by
    have range := integer.toNat_lt
    omega
  obtain ⟨absolute, whole, truncated⟩ := whole_of_signedUnits small mixed.exactly
  have finite : value.isFinite = true := isFinite_of_units_eq small absolute
  have read : value.toInteger? = none := by simp [toInteger?, truncated, mixed.great]
  have written : (Value.number (.float value)).inspect = value.write Json.floatLayout := by
    simp [Value.inspect, Value.toJson, Number.toJson, read, finite, Json.compact,
      Json.compactChars, Json.numberChars]
  have apart : (Value.number (.uint integer)).inspect ≠ (Value.number (.float value)).inspect := by
    have isFinite : (Number.uint integer).IsFinite := trivial
    rcases integer_or_float_of_isFinite isFinite with ⟨other, -, -, inspected⟩ | ⟨_, same, -⟩
    · rw [inspected, written]
      exact integerText_ne_write other value
    · cases same
  rcases mixed.sides with ⟨rfl, rfl⟩ | ⟨rfl, rfl⟩
  · exact apart
  · exact apart.symm

/-- An integer above the signed range and the floating number of its value are equal. -/
theorem Mixed.equal {left right : Number} {integer : UInt64} {value : Binary64}
    (mixed : left.Mixed right integer value) (hasValue : left.HasValue) :
    left.equal right = true := by
  refine equal_of_exact_eq hasValue ?_
  rcases mixed.sides with ⟨rfl, rfl⟩ | ⟨rfl, rfl⟩
  · exact mixed.exactly.symm
  · exact mixed.exactly

end Number

namespace Value

/-- A value is null in JSON: it is null itself, or a number that is not finite. -/
def IsNullInJson : Value → Prop
  | .null => True
  | .number value => ¬ value.IsFinite
  | _ => False

/-- What is null in JSON is written so. -/
theorem IsNullInJson.inspect_eq {value : Value} (isNull : value.IsNullInJson) :
    value.inspect = "null" := by
  cases value with
  | null => rfl
  | number value =>
    cases value with
    | int value => exact absurd trivial isNull
    | uint value => exact absurd trivial isNull
    | float value =>
      have infinite : value.isFinite = false := Bool.eq_false_iff.2 isNull
      have notWhole : value.toInteger? = none := by
        simp [Binary64.toInteger?, Binary64.isWhole, infinite]
      simp [inspect, toJson, Number.toJson, notWhole, infinite, Json.compact, Json.compactChars]
  | _ => cases isNull

/-- The JSON text of what is not null there starts as the type of the value says. -/
theorem exists_first_of_not_isNullInJson {value : Value} (notNull : ¬ value.IsNullInJson) :
    ∃ first rest, value.inspect.toList = first :: rest ∧
      typeRankOfFirst first = value.typeRank := by
  have written : value.inspect.toList = value.toJson.compactChars := by
    rw [inspect, Json.compact, String.toList_ofList]
  cases value with
  | null => exact absurd trivial notNull
  | number value =>
    have finite : (Value.number value).EveryNumber Number.IsFinite := not_not.1 notNull
    exact exists_first_of_inspect finite
  | bool value =>
    have finite : (Value.bool value).EveryNumber Number.IsFinite := trivial
    exact exists_first_of_inspect finite
  | _ => exact ⟨_, _, written, rfl⟩

/-- What is written as null is null in JSON. -/
theorem isNullInJson_of_inspect_eq {value : Value} (written : value.inspect = "null") :
    value.IsNullInJson := by
  by_contra notNull
  obtain ⟨first, rest, chars, rank⟩ := exists_first_of_not_isNullInJson notNull
  rw [written] at chars
  obtain ⟨rfl, -⟩ := List.cons.inj chars
  cases value with
  | null => exact notNull trivial
  | _ => cases rank

/-- Values that are alike in JSON and not null there have one type. -/
theorem typeRank_eq_of_inspect_eq {left right : Value} (notNull : ¬ left.IsNullInJson)
    (notNullToo : ¬ right.IsNullInJson) (same : left.inspect = right.inspect) :
    left.typeRank = right.typeRank := by
  obtain ⟨first, rest, chars, rank⟩ := exists_first_of_not_isNullInJson notNull
  obtain ⟨firstToo, restToo, charsToo, rankToo⟩ := exists_first_of_not_isNullInJson notNullToo
  rw [same, charsToo] at chars
  rw [← rank, ← rankToo, (List.cons.inj chars).1]

/-- Equal values have one type. -/
theorem typeRank_eq_of_equal {left right : Value} (equal : left.equal right = true) :
    left.typeRank = right.typeRank := by
  cases left <;> cases right <;> first | rfl | cases equal

/-- Equal values are both null in JSON, or neither of them is. -/
theorem isNullInJson_iff_of_equal {left right : Value} (equal : left.equal right = true) :
    left.IsNullInJson ↔ right.IsNullInJson := by
  cases left <;> cases right <;> first | rfl | cases equal | skip
  rename_i number other
  have mirrored : other.equal number = true := by
    rw [Number.equal_comm]
    exact equal
  exact not_congr ⟨fun finite => finite.of_equal equal, fun finite => finite.of_equal mirrored⟩

/-- The JSON texts of two values do not tell whether the values are equal, because of the
values themselves or of what they have at one position. -/
inductive Mistold : Value → Value → Prop
  /-- Both are null in JSON, and they are not equal. -/
  | nulls {left right} (leftNull : left.IsNullInJson) (rightNull : right.IsNullInJson)
      (unequal : left.equal right = false) : Mistold left right
  /-- An integer above the signed range and the floating number of its value. -/
  | forms {left right integer value} (mixed : Number.Mixed left right integer value) :
      Mistold (.number left) (.number right)
  /-- Two keys of the objects are spelled alike. -/
  | spelling {lefts rights : Entries Key Value} {key other}
      (held : key ∈ lefts.keys ++ rights.keys) (heldToo : other ∈ lefts.keys ++ rights.keys)
      (alike : key.name = other.name) (different : key ≠ other) :
      Mistold (.object lefts) (.object rights)
  /-- Two equal objects have their keys in different orders. -/
  | order {lefts rights : Entries Key Value}
      (equal : (Value.object lefts).equal (.object rights) = true)
      (reordered : lefts.keys ≠ rights.keys) : Mistold (.object lefts) (.object rights)
  | inside {left right first second step} (there : left.child? step = some first)
      (thereToo : right.child? step = some second) (inner : Mistold first second) :
      Mistold left right

/-- Arrays are equal when they are alike in JSON, if that holds of their items. -/
theorem inspect_array_eq_iff_equal {items others : List Value}
    (inner : ∀ (position : Nat) (item other : Value), items[position]? = some item →
      others[position]? = some other → (item.inspect = other.inspect ↔ item.equal other = true)) :
    (array items).inspect = (array others).inspect ↔ (array items).equal (array others) = true := by
  rw [inspect_array_eq_iff, equal]
  induction items generalizing others with
  | nil => cases others <;> simp [equalItems]
  | cons item items ih =>
    cases others with
    | nil => simp [equalItems]
    | cons other others =>
      rw [List.map_cons, List.map_cons, List.cons.injEq, equalItems, Bool.and_eq_true]
      exact and_congr (inner 0 item other rfl rfl)
        (ih fun position first second => inner (position + 1) first second)

/-- Objects are equal when they are alike in JSON, if that holds of the values that they have
under one key, and if neither the spelling nor the order of their keys is in the way. -/
theorem inspect_object_eq_iff_equal {entries others : Entries Key Value}
    (distinct : entries.keys.Nodup) (distinctToo : others.keys.Nodup)
    (spelled : ∀ key ∈ entries.keys ++ others.keys, ∀ other ∈ entries.keys ++ others.keys,
      key.name = other.name → key = other)
    (ordered : (object entries).equal (object others) = true → entries.keys = others.keys)
    (inner : ∀ key value other, entries.find? key = some value → others.find? key = some other →
      (value.inspect = other.inspect ↔ value.equal other = true)) :
    (object entries).inspect = (object others).inspect ↔
      (object entries).equal (object others) = true := by
  have names : ∀ {keys : List Key}, keys ⊆ entries.keys ++ others.keys → keys.Nodup →
      (keys.map Key.name).Nodup := fun known distinct =>
    List.Nodup.map_on (fun key member other memberToo same =>
      spelled key (known member) other (known memberToo) same) distinct
  rw [inspect_object_eq_iff (names (List.subset_append_left _ _) distinct)
    (names (List.subset_append_right _ _) distinctToo)]
  constructor
  · intro same
    rw [equal, Bool.and_eq_true, beq_iff_eq, Pairing.equalEntries_iff]
    refine ⟨by simpa using congrArg List.length same, fun entry held => ?_⟩
    obtain ⟨key, value⟩ := entry
    have there : (key.name, value.inspect) ∈
        others.map fun entry => (entry.1.name, entry.2.inspect) := by
      rw [← same]
      exact List.mem_map.2 ⟨_, held, rfl⟩
    obtain ⟨⟨keyToo, other⟩, heldToo, alike⟩ := List.mem_map.1 there
    obtain ⟨spelling, texts⟩ := Prod.mk.inj alike
    have sameKey : keyToo = key := spelled keyToo
      (List.mem_append_right _ (Entries.mem_keys_of_mem heldToo)) key
      (List.mem_append_left _ (Entries.mem_keys_of_mem held)) spelling
    subst sameKey
    have found := Entries.find?_of_mem distinct held
    have foundToo := Entries.find?_of_mem distinctToo heldToo
    exact ⟨other, foundToo, (inner _ _ _ found foundToo).1 texts.symm⟩
  · intro equal
    have keys := ordered equal
    rw [Value.equal, Bool.and_eq_true, beq_iff_eq, Pairing.equalEntries_iff] at equal
    have pairs : List.Forall₂ (fun entry other => entry.1 = other.1) entries others := by
      rw [Entries.keys, Entries.keys, ← List.forall₂_eq_eq_eq, List.forall₂_map_left_iff,
        List.forall₂_map_right_iff] at keys
      exact keys
    rw [← List.forall₂_eq_eq_eq, List.forall₂_map_left_iff, List.forall₂_map_right_iff]
    refine List.forall₂_iff_zip.2 ⟨equal.1, fun {entry other} member => ?_⟩
    have sameKey := (List.forall₂_iff_zip.1 pairs).2 member
    obtain ⟨held, heldToo⟩ := List.of_mem_zip member
    obtain ⟨key, value⟩ := entry
    obtain ⟨_, otherValue⟩ := other
    cases sameKey
    have found := Entries.find?_of_mem distinct held
    have foundToo := Entries.find?_of_mem distinctToo heldToo
    obtain ⟨known, foundKnown, equalValue⟩ := equal.2 _ held
    rw [foundToo] at foundKnown
    cases foundKnown
    rw [(inner _ _ _ found foundToo).2 equalValue]

/-- Numbers without NaN that are not null in JSON are equal when they are alike there, if they
are not an integer and a floating number of one value above the signed range. -/
theorem inspect_number_eq_iff_equal {left right : Number} (finite : left.IsFinite)
    (finiteToo : right.IsFinite) (hasValue : left.HasValue)
    (notMixed : ∀ integer value, ¬ left.Mixed right integer value) :
    (number left).inspect = (number right).inspect ↔ left.equal right = true := by
  constructor
  · intro same
    exact Number.equal_of_exact_eq hasValue (Number.exact_eq_of_inspect_eq finite finiteToo same)
  · intro equal
    rcases Number.written_alike_or_mixed (Number.exact_eq_of_equal equal) with
      ⟨-, alike⟩ | ⟨integer, value, mixed⟩
    · exact alike
    · exact absurd mixed (notMixed integer value)

/-- Values of one type without NaN that are not null in JSON are equal when they are alike
there, unless their texts mistell that, if it holds of what is inside them. -/
theorem inspect_eq_iff_equal_of_typeRank {left right : Value} (wellFormed : left.WellFormed)
    (wellFormedToo : right.WellFormed) (hasValues : left.EveryNumber Number.HasValue)
    (notNull : ¬ left.IsNullInJson) (notNullToo : ¬ right.IsNullInJson)
    (types : left.typeRank = right.typeRank) (told : ¬ Mistold left right)
    (inner : ∀ step first second, left.child? step = some first →
      right.child? step = some second →
      (first.inspect = second.inspect ↔ first.equal second = true)) :
    left.inspect = right.inspect ↔ left.equal right = true := by
  cases left <;> cases right <;> first
    | simp [typeRank] at types; done
    | skip
  case null => exact absurd trivial notNull
  case bool first second =>
    have written : ∀ first second : Bool, (bool first).inspect = (bool second).inspect ↔
        (bool first).equal (bool second) = true := by decide
    exact written first second
  case number first second =>
    exact inspect_number_eq_iff_equal (not_not.1 notNull) (not_not.1 notNullToo) hasValues
      fun integer value mixed => told (.forms mixed)
  case text first second =>
    rw [inspect_eq_iff, equal, beq_iff_eq]
    exact ⟨Json.textChars_inj, fun same => congrArg Json.textChars same⟩
  case array items others =>
    exact inspect_array_eq_iff_equal fun position item other there thereToo =>
      inner (.item (position + 1)) item other there thereToo
  case object entries others =>
    refine inspect_object_eq_iff_equal wellFormed.1 wellFormedToo.1 ?_ ?_
      fun key value other there thereToo => inner (.entry key) value other there thereToo
    · intro key held other heldToo alike
      by_contra different
      exact told (.spelling held heldToo alike different)
    · intro equal
      by_contra reordered
      exact told (.order equal reordered)

/-- Values without NaN are equal when they are alike in JSON, unless their texts mistell
that. By induction on what is inside the first. -/
theorem inspect_eq_iff_equal {left right : Value} (wellFormed : left.WellFormed)
    (wellFormedToo : right.WellFormed) (hasValues : left.EveryNumber Number.HasValue)
    (hasValuesToo : right.EveryNumber Number.HasValue) (told : ¬ Mistold left right) :
    left.inspect = right.inspect ↔ left.equal right = true := by
  induction left using parts_induction generalizing right with
  | whole left ih =>
    have inner : ∀ step first second, left.child? step = some first →
        right.child? step = some second →
        (first.inspect = second.inspect ↔ first.equal second = true) := by
      intro step first second there thereToo
      have part := mem_parts_of_child? there
      have partToo := mem_parts_of_child? thereToo
      exact ih first part (wellFormed.of_mem_parts part) (wellFormedToo.of_mem_parts partToo)
        (hasValues.of_mem_parts part) (hasValuesToo.of_mem_parts partToo)
        fun mistold => told (.inside there thereToo mistold)
    by_cases leftNull : left.IsNullInJson
    · by_cases rightNull : right.IsNullInJson
      · have equal : left.equal right = true := by
          by_contra unequal
          exact told (.nulls leftNull rightNull (Bool.eq_false_iff.2 unequal))
        simp only [leftNull.inspect_eq, rightNull.inspect_eq, equal]
      · refine iff_of_false (fun same => ?_) fun equal => ?_
        · exact rightNull (isNullInJson_of_inspect_eq (same.symm.trans leftNull.inspect_eq))
        · exact rightNull ((isNullInJson_iff_of_equal equal).1 leftNull)
    · by_cases rightNull : right.IsNullInJson
      · refine iff_of_false (fun same => ?_) fun equal => ?_
        · exact leftNull (isNullInJson_of_inspect_eq (same.trans rightNull.inspect_eq))
        · exact leftNull ((isNullInJson_iff_of_equal equal).2 rightNull)
      · by_cases types : left.typeRank = right.typeRank
        · exact inspect_eq_iff_equal_of_typeRank wellFormed wellFormedToo hasValues leftNull
            rightNull types told inner
        · refine iff_of_false (fun same => ?_) fun equal => ?_
          · exact types (typeRank_eq_of_inspect_eq leftNull rightNull same)
          · exact types (typeRank_eq_of_equal equal)

/-- What is at a step of a value is not there in a scalar. -/
theorem child?_of_isScalar {value : Value} (scalar : value.isScalar) (step : Position.Step) :
    value.child? step = none := by
  cases value with
  | array items => cases scalar
  | object entries => cases scalar
  | _ => rfl

/-- The texts of two scalars without NaN mistell whether the scalars are equal wherever they
can: two that differ are alike, or two that are equal are written apart. -/
theorem Mistold.not_inspect_eq_iff_equal {left right : Value} (mistold : left.Mistold right)
    (scalar : left.isScalar) (hasValues : left.EveryNumber Number.HasValue) :
    ¬ (left.inspect = right.inspect ↔ left.equal right = true) := by
  intro agree
  cases mistold with
  | nulls leftNull rightNull unequal =>
    have equal := agree.1 (leftNull.inspect_eq.trans rightNull.inspect_eq.symm)
    rw [unequal] at equal
    cases equal
  | forms mixed =>
    have same := agree.2 (mixed.equal hasValues)
    exact mixed.inspect_ne same
  | spelling => cases scalar
  | order => cases scalar
  | inside there =>
    rw [child?_of_isScalar scalar] at there
    cases there

end Value

namespace Policy

variable {policy : Policy}

/-- A key value as items are told apart by it: truth values and numbers are their texts when
they are compared by these. -/
def keyForm (policy : Policy) (value : Value) : Value :=
  if policy.indifferentValues then value.canonicalScalar else value

/-- The identity of a key value is the JSON text of its form. -/
theorem identity_eq (policy : Policy) (value : Value) :
    policy.identity value = (policy.keyForm value).inspect := by
  unfold identity keyForm
  split <;> rfl

/-- Key values are one value when their forms are equal. -/
theorem scalarsEqual_eq (policy : Policy) (left right : Value) :
    policy.scalarsEqual left right = (policy.keyForm left).equal (policy.keyForm right) := by
  unfold scalarsEqual keyForm
  split <;> rfl

/-- The identities of two key values do not tell whether the values are equal. -/
def Mistells (policy : Policy) (left right : Value) : Prop :=
  (policy.keyForm left).Mistold (policy.keyForm right)

/-- Two key values of documents, without NaN, that their identities do not mistell. -/
structure Tells (policy : Policy) (left right : Value) : Prop where
  wellFormed : left.WellFormed
  wellFormedToo : right.WellFormed
  hasValues : left.EveryNumber Number.HasValue
  hasValuesToo : right.EveryNumber Number.HasValue
  told : ¬ policy.Mistells left right

/-- The form of a key value is well formed when the value is. -/
theorem wellFormed_keyForm {value : Value} (wellFormed : value.WellFormed) :
    (policy.keyForm value).WellFormed := by
  unfold keyForm
  split
  · cases value with
    | bool value => trivial
    | number value => trivial
    | _ => exact wellFormed
  · exact wellFormed

/-- The form of a key value has no other numbers. -/
theorem everyNumber_keyForm {property : Number → Prop} {value : Value}
    (everyNumber : value.EveryNumber property) : (policy.keyForm value).EveryNumber property := by
  unfold keyForm
  split
  · exact everyNumber.canonicalScalar
  · exact everyNumber

/-- The form of a scalar is a scalar. -/
theorem isScalar_keyForm {value : Value} (scalar : value.isScalar) :
    (policy.keyForm value).isScalar := by
  unfold keyForm
  split
  · exact Value.isScalar_canonicalScalar scalar
  · exact scalar

/-- Key values have one identity exactly when they are one value. -/
theorem Tells.identity_eq_iff {left right : Value} (tells : policy.Tells left right) :
    policy.identity left = policy.identity right ↔ policy.scalarsEqual left right = true := by
  rw [identity_eq, identity_eq, scalarsEqual_eq]
  exact Value.inspect_eq_iff_equal (wellFormed_keyForm tells.wellFormed)
    (wellFormed_keyForm tells.wellFormedToo) (everyNumber_keyForm tells.hasValues)
    (everyNumber_keyForm tells.hasValuesToo) tells.told

/-- No two key values of some items are mistold by their identities. -/
def TellsItems (policy : Policy) (key : String) (items : List Value) : Prop :=
  ∀ first ∈ Pairing.keyedItems policy key items, ∀ second ∈ Pairing.keyedItems policy key items,
    policy.Tells first.keyValue second.keyValue

end Policy

namespace Pairing

variable {policy : Policy} {side : Side} {path : Path} {key : String}
  {items references candidates : List Value}

/-- What is indexed is what the indexed item is keyed as. -/
theorem keyed?_item_of_mem {keyed : Keyed} (member : keyed ∈ keyedItems policy key items) :
    keyed? policy key keyed.item = some keyed := by
  obtain ⟨item, -, shown⟩ := List.mem_filterMap.1 member
  obtain ⟨-, -, -, same, -⟩ := keyed?_eq_some_iff.1 shown
  rwa [same]

/-- Indexed items have one identity exactly when their key values are one value. -/
theorem identity_eq_iff_of_tells (tells : policy.TellsItems key items) {first second : Keyed}
    (member : first ∈ keyedItems policy key items)
    (memberToo : second ∈ keyedItems policy key items) :
    first.identity = second.identity ↔
      policy.scalarsEqual first.keyValue second.keyValue = true := by
  rw [identity_of_mem_keyedItems member, identity_of_mem_keyedItems memberToo]
  exact (tells first member second memberToo).identity_eq_iff

/-- Items with the key are indexed exactly when no two of their key values are one value. -/
theorem index_ok_iff_of_tells (tells : policy.TellsItems key items)
    (keyed : ∀ item ∈ items, (keyed? policy key item).isSome) :
    (∃ found, index policy side path key items = .ok found) ↔
      (keyedItems policy key items).Pairwise fun first second =>
        policy.scalarsEqual first.keyValue second.keyValue = false := by
  have apart : ((keyedItems policy key items).map Keyed.identity).Nodup ↔
      (keyedItems policy key items).Pairwise fun first second =>
        policy.scalarsEqual first.keyValue second.keyValue = false := by
    rw [List.Nodup, List.pairwise_map]
    refine List.Pairwise.iff_of_mem fun member memberToo => ?_
    rw [Ne, identity_eq_iff_of_tells tells member memberToo, Bool.not_eq_true]
  rw [← apart]
  constructor
  · rintro ⟨found, indexed⟩
    exact (index_eq_ok_iff.1 indexed).1.distinct
  · intro distinct
    exact ⟨_, index_eq_ok_iff.2 ⟨⟨keyed, distinct⟩, rfl⟩⟩

/-- Where all items have the key, only a repeated identity keeps them from being indexed. -/
theorem repeated_of_index_error (keyed : ∀ item ∈ items, (keyed? policy key item).isSome)
    {error : ComparisonError} (failed : index policy side path key items = .error error) :
    (∃ place, error = .duplicateKey side place) ∨ ∃ cause, error = .invalidStep cause := by
  by_cases sound : ∀ position, ¬ FaultyAt policy key items position
  · rw [index_of_forall_sound side path sound] at failed
    cases failed
  · push Not at sound
    obtain ⟨position, faulty⟩ := sound
    obtain ⟨first, item, isFirst, held⟩ := exists_firstFault faulty
    rw [index_of_firstFault side path isFirst held] at failed
    obtain ⟨indexed, shown⟩ := Option.isSome_iff_exists.1 (keyed item (List.mem_of_getElem? held))
    obtain ⟨entries, rfl, looked, -⟩ := keyed?_eq_some_iff.1 shown
    simp only [reported, looked] at failed
    split at failed <;> cases failed
    · exact .inl ⟨_, rfl⟩
    · exact .inr ⟨_, rfl⟩

/-- Of two arrays that are paired by a key, two items are paired with each other exactly when
their key values are one value. -/
theorem both_mem_iff_of_tells (tells : policy.TellsItems key (references ++ candidates))
    {pairings : List Pairing} (paired : byKey policy path key references candidates = .ok pairings)
    {left right : Keyed} (leftHeld : left ∈ keyedItems policy key references)
    (rightHeld : right ∈ keyedItems policy key candidates) :
    (∃ step, .both step left.item right.item ∈ pairings) ↔
      policy.scalarsEqual left.keyValue right.keyValue = true := by
  obtain ⟨indexable, indexableToo, rfl⟩ := byKey_eq_ok_iff.1 paired
  rw [← identity_eq_iff_of_tells tells (mem_keyedItems_append.2 (.inl leftHeld))
    (mem_keyedItems_append.2 (.inr rightHeld))]
  have itself : ∀ {items : List Value} {indexed other : Keyed},
      indexed ∈ keyedItems policy key items → other ∈ keyedItems policy key items →
      indexed.item = other.item → indexed = other := by
    intro items indexed other member memberToo same
    have shown := keyed?_item_of_mem member
    rw [same, keyed?_item_of_mem memberToo] at shown
    exact (Option.some.inj shown).symm
  constructor
  · rintro ⟨step, member⟩
    obtain ⟨keyed, -, shown⟩ := List.mem_filterMap.1 member
    unfold ofKeyed at shown
    split at shown
    · rename_i first second found foundToo
      simp only [Option.some.injEq, both.injEq] at shown
      obtain ⟨held, identity⟩ := of_findKeyed_eq_some found
      obtain ⟨heldToo, identityToo⟩ := of_findKeyed_eq_some foundToo
      rw [← itself held leftHeld shown.2.1, ← itself heldToo rightHeld shown.2.2, identity,
        identityToo]
    all_goals cases shown
  · intro same
    have found := (findKeyed_eq_some_iff indexable.distinct).2 ⟨leftHeld, rfl⟩
    have foundToo := (findKeyed_eq_some_iff indexableToo.distinct).2 ⟨rightHeld, same.symm⟩
    have inUnion := (union_perm _ (keyedItems policy key candidates)).mem_iff.2
      (List.mem_append_left _ leftHeld)
    refine ⟨keyStep key left.keyValue, List.mem_filterMap.2 ⟨left, inUnion, ?_⟩⟩
    simp only [ofKeyed, found, foundToo]

end Pairing

namespace Policy

open Pairing

variable {policy : Policy}

/-- Key values without NaN have one identity exactly when they are one value, unless their
identities mistell that; for scalars, they do so wherever the rule fails. So where no key
values are mistold, items are kept from being indexed exactly by two equal key values, and
items of two arrays are paired exactly when their key values are equal. -/
theorem identity_tells_equality (policy : Policy) :
    (∀ left right : Value, policy.Tells left right →
      (policy.identity left = policy.identity right ↔ policy.scalarsEqual left right = true)) ∧
    (∀ left right : Value, left.isScalar → right.isScalar → left.EveryNumber Number.HasValue →
      right.EveryNumber Number.HasValue →
      ((policy.identity left = policy.identity right ↔ policy.scalarsEqual left right = true) ↔
        ¬ policy.Mistells left right)) ∧
    (∀ (side : Side) (path : Path) (key : String) (items : List Value),
      policy.TellsItems key items → (∀ item ∈ items, (keyed? policy key item).isSome) →
      ((∃ found, index policy side path key items = .ok found) ↔
        (keyedItems policy key items).Pairwise fun first second =>
          policy.scalarsEqual first.keyValue second.keyValue = false) ∧
      ∀ error, index policy side path key items = .error error →
        (∃ place, error = .duplicateKey side place) ∨ ∃ cause, error = .invalidStep cause) ∧
    (∀ (path : Path) (key : String) (references candidates : List Value) (pairings : List Pairing),
      policy.TellsItems key (references ++ candidates) →
      byKey policy path key references candidates = .ok pairings →
      ∀ left ∈ keyedItems policy key references, ∀ right ∈ keyedItems policy key candidates,
        (∃ step, .both step left.item right.item ∈ pairings) ↔
          policy.scalarsEqual left.keyValue right.keyValue = true) := by
  refine ⟨fun left right tells => tells.identity_eq_iff, ?scalars, ?index, ?pairs⟩
  case scalars =>
    intro left right scalar scalarToo hasValues hasValuesToo
    constructor
    · intro agree mistells
      rw [identity_eq, identity_eq, scalarsEqual_eq] at agree
      exact mistells.not_inspect_eq_iff_equal (isScalar_keyForm scalar)
        (everyNumber_keyForm hasValues) agree
    · intro told
      exact Tells.identity_eq_iff ⟨Value.wellFormed_of_isScalar scalar,
        Value.wellFormed_of_isScalar scalarToo, hasValues, hasValuesToo, told⟩
  case index =>
    intro side path key items tells keyed
    exact ⟨index_ok_iff_of_tells tells keyed, fun error => repeated_of_index_error keyed⟩
  case pairs =>
    intro path key references candidates pairings tells paired left leftHeld right rightHeld
    exact both_mem_iff_of_tells tells paired leftHeld rightHeld

/-- Numbers that are no floating numbers are finite and stand for a value. -/
theorem isFinite_and_hasValue_of_integer {number : Number}
    (integer : ∀ value, number ≠ .float value) : number.IsFinite ∧ number.HasValue := by
  cases number with
  | float value => exact absurd rfl (integer value)
  | _ => exact ⟨trivial, trivial⟩

/-- Integers are told by their identities, in whichever forms they are. -/
theorem tells_of_integers (unchanged : policy.indifferentValues = false) {left right : Number}
    (integer : ∀ value, left ≠ .float value) (integerToo : ∀ value, right ≠ .float value) :
    policy.Tells (.number left) (.number right) := by
  obtain ⟨finite, hasValue⟩ := isFinite_and_hasValue_of_integer integer
  refine ⟨trivial, trivial, hasValue, (isFinite_and_hasValue_of_integer integerToo).2,
    fun mistold => ?_⟩
  simp only [Mistells, keyForm, unchanged, Bool.false_eq_true, if_false] at mistold
  cases mistold with
  | nulls leftNull => exact leftNull finite
  | forms mixed =>
    rcases mixed.sides with ⟨-, float⟩ | ⟨float, -⟩
    · exact integerToo _ float
    · exact integer _ float
  | inside there => cases there

open Comparison (pairedByIdentifier repeatedItems) in
/-- Integers in two forms are one value and have one identity, so items with them are not
indexed. -/
theorem identity_tells_equality_repeated :
    pairedByIdentifier.identity (.number (.int 1)) =
      pairedByIdentifier.identity (.number (.uint 1)) ∧
    ¬ ∃ found, index pairedByIdentifier .reference .root "id" repeatedItems = .ok found := by
  obtain ⟨told, -, indexed, -⟩ := identity_tells_equality pairedByIdentifier
  have equal : pairedByIdentifier.scalarsEqual (.number (.int 1)) (.number (.uint 1)) = true := by
    decide +kernel
  constructor
  · exact (told _ _ (tells_of_integers rfl (by simp) (by simp))).2 equal
  · have integers : ∀ keyed ∈ keyedItems pairedByIdentifier "id" repeatedItems,
        ∃ number, keyed.keyValue = .number number ∧ ∀ value, number ≠ .float value := by
      intro keyed member
      rw [show keyedItems pairedByIdentifier "id" repeatedItems =
        [⟨_, .number (.int 1), _⟩, ⟨_, .number (.uint 2), _⟩, ⟨_, .number (.uint 1), _⟩] from rfl]
        at member
      simp only [List.mem_cons, List.not_mem_nil, or_false] at member
      rcases member with rfl | rfl | rfl <;> exact ⟨_, rfl, by simp⟩
    have tells : pairedByIdentifier.TellsItems "id" repeatedItems := by
      intro first member second memberToo
      obtain ⟨number, isNumber, integer⟩ := integers first member
      obtain ⟨other, isNumberToo, integerToo⟩ := integers second memberToo
      rw [isNumber, isNumberToo]
      exact tells_of_integers rfl integer integerToo
    have keyed : ∀ item ∈ repeatedItems, (keyed? pairedByIdentifier "id" item).isSome := by
      decide +kernel
    rw [(indexed .reference .root "id" _ tells keyed).1]
    intro apart
    have unequal := List.pairwise_iff_getElem.1 apart 0 2 (by decide +kernel) (by decide +kernel)
      (by decide)
    exact absurd (equal.symm.trans unequal) (by decide)

/-- An infinity and null, under the key by which items are paired. -/
def infinityAndNull : Value :=
  .array [.object [(.text "id", .number (.float ⟨0x7ff0000000000000⟩))],
    .object [(.text "id", .null)]]

/-- An infinity and null differ and have one identity, so a document with both under a key
cannot be compared even with itself. -/
theorem identity_mistells_infinity :
    ∃ policy : Policy, Draft.build { Draft.empty with matchByKey := [.text "/:id"] } = .ok policy ∧
      infinityAndNull.WellFormed ∧ infinityAndNull.EveryNumber Number.HasValue ∧
      policy.identity (.number (.float ⟨0x7ff0000000000000⟩)) = policy.identity .null ∧
      policy.scalarsEqual (.number (.float ⟨0x7ff0000000000000⟩)) .null = false ∧
      Comparison.perform policy infinityAndNull infinityAndNull =
        .error (.duplicateKey .reference ⟨[.keyValue "id" "null"]⟩) := by
  have built : Draft.build { Draft.empty with matchByKey := [.text "/:id"] } =
      .ok Comparison.pairedByIdentifier := by
    cbv
  have planned : Comparison.plan Comparison.pairedByIdentifier .root infinityAndNull
      infinityAndNull = .fail (.duplicateKey .reference ⟨[.keyValue "id" "null"]⟩) := by
    cbv
  have failed : Comparison.perform Comparison.pairedByIdentifier infinityAndNull infinityAndNull =
      .error (.duplicateKey .reference ⟨[.keyValue "id" "null"]⟩) := by
    rw [Comparison.perform, (Comparison.failsAtOnce_of_fail rfl planned).2]
  have wellFormed : infinityAndNull.WellFormed := by
    simp [infinityAndNull, Value.WellFormed, Value.WellFormedItems, Value.WellFormedEntries,
      Entries.keys]
  have hasValues : infinityAndNull.EveryNumber Number.HasValue := by
    simp only [infinityAndNull, Value.EveryNumber, Value.EveryNumberOfItems,
      Value.EveryNumberOfEntries, Number.HasValue, and_true]
    decide +kernel
  have alike : Comparison.pairedByIdentifier.identity (.number (.float ⟨0x7ff0000000000000⟩)) =
      Comparison.pairedByIdentifier.identity .null := by
    decide +kernel
  exact ⟨_, built, wellFormed, hasValues, alike, rfl, failed⟩

end Policy

end StructuralDiff
