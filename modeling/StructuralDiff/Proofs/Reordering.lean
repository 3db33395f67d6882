import Mathlib
import StructuralDiff.Comparison.Recording
import StructuralDiff.Proofs.Indexing
import StructuralDiff.Proofs.NumberText

/-!
# Items in another order

When the items of two arrays are paired by a key, their order does not matter. The items
of both sides come in the order of their key values, and values that this order does not
tell apart have one identity (`Value.identity_eq_of_keyOrder`), so that a sorted union of
distinct identities is the same list whatever it is sorted from
(`Pairing.union_eq_of_perm`).
-/

namespace StructuralDiff

namespace Number

open Binary64

/-- A floating number that is finite is less than `2 ^ 63` in absolute value. -/
def Moderate : Number → Prop
  | .float value => value.isFinite = true → value.units < 2 ^ 63 * unitsInOne
  | _ => True

/-- A moderate floating number is an unsigned integer only where that is a signed one. -/
theorem isSigned_of_moderate {value : Binary64} (moderate : (Number.float value).Moderate)
    {integer : UInt64} (same : value.signedUnits = (integer.toNat : Int) * unitsInOne) :
    isSigned integer.toNat = true := by
  have absolute : value.units = integer.toNat * unitsInOne := by
    have both := congrArg Int.natAbs same
    rw [Int.natAbs_mul, Int.natAbs_natCast, Int.natAbs_natCast] at both
    rw [← both, signedUnits]
    split <;> simp
  have small : integer.toNat ≤ 2 ^ 64 := Nat.le_of_lt integer.toNat_lt
  have bounded := moderate (isFinite_of_units_eq small absolute)
  rw [absolute] at bounded
  have less := Nat.lt_of_mul_lt_mul_right bounded
  exact isSigned_iff.2 (by omega)

/-- Numbers of one exact value are written alike, unless one of them is a great floating
number. -/
theorem written_alike {left right : Number} (leftModerate : left.Moderate)
    (rightModerate : right.Moderate) (same : left.exact = right.exact) :
    left.text = right.text ∧ (Value.number left).inspect = (Value.number right).inspect := by
  rcases written_alike_or_mixed same with alike | ⟨integer, value, mixed⟩
  · exact alike
  · have moderate : (Number.float value).Moderate := by
      rcases mixed.sides with ⟨-, rfl⟩ | ⟨rfl, -⟩
      · exact rightModerate
      · exact leftModerate
    have signed := isSigned_of_moderate moderate mixed.exactly
    rw [mixed.great] at signed
    cases signed

end Number

namespace Value

/-- What the order of key values goes by among truth values and among numbers. -/
def orderNumber : Value → Int
  | .bool value => value.toNat
  | .number value => value.exact
  | _ => 0

/-- What the order of key values goes by among texts, among arrays and among objects. -/
def orderText : Value → String
  | .text value => value
  | .array items => (Value.array items).inspect
  | .object entries => (Value.object entries).inspect
  | _ => ""

/-- Values of different types come in the order of their types. -/
theorem keyOrder_of_typeRank_ne {left right : Value} (different : left.typeRank ≠ right.typeRank) :
    left.keyOrder right = compare left.typeRank right.typeRank := by
  unfold keyOrder
  split
  · exact absurd rfl different
  · exact absurd rfl different
  · exact absurd rfl different
  · exact absurd rfl different
  · rw [if_neg different]

/-- Values of one type come in the order of their numbers, and then of their texts. -/
theorem keyOrder_of_typeRank_eq {left right : Value} (same : left.typeRank = right.typeRank) :
    left.keyOrder right = (compare left.orderNumber right.orderNumber).then
      (compare left.orderText right.orderText) := by
  have truth : ∀ first second : Bool,
      compare first.toNat second.toNat = compare (first.toNat : Int) (second.toNat : Int) := by
    decide
  cases left <;> cases right <;> first
    | simp [typeRank] at same; done
    | simp [keyOrder, orderNumber, orderText, typeRank, truth, Number.order_eq_compare_exact]

/-- The order of key values is lexicographic: by types, by numbers, by texts. -/
theorem keyOrder_eq_compareLex :
    keyOrder = compareLex (compareOn typeRank)
      (compareLex (compareOn orderNumber) (compareOn orderText)) := by
  funext left right
  unfold compareLex compareOn
  by_cases same : left.typeRank = right.typeRank
  · rw [keyOrder_of_typeRank_eq same, same,
      compare_eq_iff_eq.2 (rfl : right.typeRank = right.typeRank)]
    rfl
  · rw [keyOrder_of_typeRank_ne same]
    rcases Nat.lt_or_gt_of_ne same with less | greater
    · rw [compare_lt_iff_lt.2 less]
      rfl
    · rw [compare_gt_iff_gt.2 greater]
      rfl

instance : Std.TransCmp keyOrder := by
  rw [keyOrder_eq_compareLex]
  infer_instance

/-- A value is no great floating number. -/
def Moderate : Value → Prop
  | .number value => value.Moderate
  | _ => True

/-- Values that the order of key values does not tell apart have one identity. -/
theorem identity_eq_of_keyOrder (policy : Policy) {left right : Value}
    (leftModerate : left.Moderate) (rightModerate : right.Moderate)
    (tied : left.keyOrder right = .eq) : policy.identity left = policy.identity right := by
  rw [keyOrder_eq_compareLex, compareLex, Ordering.then_eq_eq, compareLex, Ordering.then_eq_eq]
    at tied
  obtain ⟨types, numbers, texts⟩ := tied
  replace types : left.typeRank = right.typeRank := compare_eq_iff_eq.1 types
  replace numbers : left.orderNumber = right.orderNumber := compare_eq_iff_eq.1 numbers
  replace texts : left.orderText = right.orderText := Std.LawfulEqCmp.eq_of_compare texts
  cases left <;> cases right <;> first
    | simp [typeRank] at types; done
    | skip
  case null => rfl
  case bool first second =>
    have truth : first.toNat = second.toNat := Int.natCast_inj.1 numbers
    have same : first = second := by revert truth; cases first <;> cases second <;> decide
    rw [same]
  case number first second =>
    obtain ⟨text, inspected⟩ := Number.written_alike leftModerate rightModerate numbers
    simp only [Policy.identity, canonicalScalar, text, inspected]
  case text first second =>
    have same : first = second := texts
    rw [same]
  case array =>
    simp only [Policy.identity, canonicalScalar, ite_self]
    exact texts
  case object =>
    simp only [Policy.identity, canonicalScalar, ite_self]
    exact texts

end Value

section Sorting

variable {α : Type} {order : α → α → Ordering} [Std.TransCmp order]

/-- One item does not come after another, or the other does not come after the one. -/
theorem ne_gt_total (first second : α) :
    ((order first second != .gt) || (order second first != .gt)) = true := by
  have swapped : order second first = (order first second).swap := Std.OrientedCmp.eq_swap
  rw [swapped]
  cases order first second <;> rfl

/-- What does not come after an item does not come after what the item does not come after. -/
theorem ne_gt_trans (first second third : α) (less : (order first second != .gt) = true)
    (lessToo : (order second third != .gt) = true) : (order first third != .gt) = true := by
  simp only [bne, ← Ordering.isLE_eq_not_beq_gt] at less lessToo ⊢
  exact Std.TransCmp.isLE_trans less lessToo

/-- No sorted item comes after a later one. -/
theorem pairwise_mergeSort_ne_gt (items : List α) :
    (items.mergeSort fun first second => order first second != .gt).Pairwise
      fun first second => (order first second != .gt) = true :=
  List.pairwise_mergeSort ne_gt_trans ne_gt_total items

end Sorting

namespace Pairing

variable {policy : Policy} {key : String}

/-- Indexed items come in the order of their key values. -/
def keyedOrder (left right : Keyed) : Ordering :=
  left.keyValue.keyOrder right.keyValue

instance : Std.TransCmp keyedOrder where
  eq_swap {left right} := Std.OrientedCmp.eq_swap (a := left.keyValue) (b := right.keyValue)
  isLE_trans {first second third} less lessToo := by
    have chained : (first.keyValue.keyOrder third.keyValue).isLE :=
      Std.TransCmp.isLE_trans less lessToo
    exact chained

/-- The key values of items that can be indexed are no great floating numbers. -/
def ModerateKeys (policy : Policy) (key : String) (items : List Value) : Prop :=
  ∀ keyed ∈ keyedItems policy key items, keyed.keyValue.Moderate

/-- The items of two arrays in the order of their key values do not depend on the order in
which the arrays have them. -/
theorem union_eq_of_perm {references candidates references' candidates' : List Keyed}
    (reordered : references.Perm references') (reorderedToo : candidates.Perm candidates')
    (distinct : (references.map Keyed.identity).Nodup)
    (distinctToo : (candidates.map Keyed.identity).Nodup)
    (tied : ∀ first ∈ references ++ candidates, ∀ second ∈ references ++ candidates,
      first.keyValue.keyOrder second.keyValue = .eq → first.identity = second.identity) :
    union references candidates = union references' candidates' := by
  have sorted : ∀ lefts rights : List Keyed, (union lefts rights).Pairwise fun first second =>
      (keyedOrder first second != .gt) = true := fun _ _ => pairwise_mergeSort_ne_gt _
  have others : (candidates.filter fun keyed => (findKeyed keyed.identity references).isNone).Perm
      (candidates'.filter fun keyed => (findKeyed keyed.identity references').isNone) := by
    have same : (fun keyed : Keyed => (findKeyed keyed.identity references).isNone) =
        fun keyed => (findKeyed keyed.identity references').isNone := by
      funext keyed
      rw [findKeyed_perm reordered distinct]
    rw [same]
    exact reorderedToo.filter _
  have whole : (union references candidates).Perm (union references' candidates') :=
    (union_perm references candidates).trans
      ((reordered.append others).trans (union_perm references' candidates').symm)
  have known : ∀ keyed ∈ union references candidates, keyed ∈ references ++ candidates :=
    fun keyed member => List.mem_append.2 (mem_or_mem_of_mem_union member)
  refine List.Perm.eq_of_pairwise ?_ (sorted _ _) (sorted _ _) whole
  intro first second member memberToo less lessToo
  have memberToo := whole.mem_iff.2 memberToo
  simp only [bne, ← Ordering.isLE_eq_not_beq_gt] at less lessToo
  have identities := tied first (known _ member) second (known _ memberToo)
    (Std.OrientedCmp.isLE_antisymm less lessToo)
  exact List.inj_on_of_nodup_map (nodup_identity_union distinct distinctToo) member memberToo
    identities

/-- Arrays in another order are paired by a key alike, and they are paired or not alike. -/
theorem byKey_eq_ok_of_perm {path : Path} {references candidates references' candidates' : List Value}
    (reordered : references.Perm references') (reorderedToo : candidates.Perm candidates')
    (moderate : ModerateKeys policy key (references ++ candidates)) {pairings : List Pairing}
    (paired : byKey policy path key references candidates = .ok pairings) :
    byKey policy path key references' candidates' = .ok pairings := by
  obtain ⟨indexable, indexableToo, rfl⟩ := byKey_eq_ok_iff.1 paired
  have keyedReferences : (keyedItems policy key references).Perm (keyedItems policy key references') :=
    keyedItems_perm reordered
  have keyedCandidates : (keyedItems policy key candidates).Perm (keyedItems policy key candidates') :=
    keyedItems_perm reorderedToo
  have tied : ∀ first ∈ keyedItems policy key references ++ keyedItems policy key candidates,
      ∀ second ∈ keyedItems policy key references ++ keyedItems policy key candidates,
        first.keyValue.keyOrder second.keyValue = .eq → first.identity = second.identity := by
    have both : keyedItems policy key references ++ keyedItems policy key candidates =
        keyedItems policy key (references ++ candidates) := (List.filterMap_append ..).symm
    rw [both]
    intro first member second memberToo same
    rw [identity_of_mem_keyedItems member, identity_of_mem_keyedItems memberToo]
    exact Value.identity_eq_of_keyOrder policy (moderate _ member) (moderate _ memberToo) same
  refine byKey_eq_ok_iff.2 ⟨indexable.perm reordered, indexableToo.perm reorderedToo, ?_⟩
  rw [union_eq_of_perm keyedReferences keyedCandidates indexable.distinct indexableToo.distinct tied]
  refine List.filterMap_congr fun keyed _ => ?_
  unfold ofKeyed
  rw [findKeyed_perm keyedReferences indexable.distinct,
    findKeyed_perm keyedCandidates indexableToo.distinct]

end Pairing

namespace Comparison

variable {policy : Policy} {key : String}

/-- A comparison of arrays that are paired by a key takes its course from their pairings. -/
theorem perform_eq_of_byKey {references candidates references' candidates' : List Value}
    (keyed : policy.keyFor .root = .ok (some key)) {pairings : List Pairing}
    (paired : Pairing.byKey policy .root key references candidates = .ok pairings)
    (pairedToo : Pairing.byKey policy .root key references' candidates' = .ok pairings) :
    perform policy (.array references) (.array candidates) =
      perform policy (.array references') (.array candidates') := by
  have planned : plan policy .root (.array references) (.array candidates) = .descend pairings := by
    simp only [plan, Pairing.ofItems, keyed, paired]
  have plannedToo : plan policy .root (.array references') (.array candidates') =
      .descend pairings := by
    simp only [plan, Pairing.ofItems, keyed, pairedToo]
  simp only [perform, record_eq_recordInto, walk_of_descend (policy.excludes_root) planned,
    walk_of_descend (policy.excludes_root) plannedToo]

/-- Where arrays cannot be paired by their key, their comparison fails. -/
theorem perform_eq_error_of_byKey {references candidates : List Value}
    (keyed : policy.keyFor .root = .ok (some key)) {error : ComparisonError}
    (failed : Pairing.byKey policy .root key references candidates = .error error) :
    perform policy (.array references) (.array candidates) = .error error := by
  have planned : plan policy .root (.array references) (.array candidates) = .fail error := by
    simp only [plan, Pairing.ofItems, keyed, failed]
  rw [perform, record_eq_recordInto, walk_of_fail (policy.excludes_root) planned]
  rfl

/-- The comparison of two arrays whose items are paired by a key does not depend on the order
of the items: it ends with the very same findings, or fails for every order. -/
theorem perform_reordered (keyed : policy.keyFor .root = .ok (some key))
    {references candidates references' candidates' : List Value}
    (reordered : references.Perm references') (reorderedToo : candidates.Perm candidates')
    (moderate : Pairing.ModerateKeys policy key (references ++ candidates)) :
    (∀ findings, perform policy (.array references) (.array candidates) = .ok findings ↔
      perform policy (.array references') (.array candidates') = .ok findings) ∧
    ((∃ error, perform policy (.array references) (.array candidates) = .error error) ↔
      ∃ error, perform policy (.array references') (.array candidates') = .error error) := by
  have moderateToo : Pairing.ModerateKeys policy key (references' ++ candidates') := by
    intro entry member
    exact moderate entry ((Pairing.keyedItems_perm (reordered.append reorderedToo)).mem_iff.2 member)
  cases paired : Pairing.byKey policy .root key references candidates with
  | ok pairings =>
    have pairedToo := Pairing.byKey_eq_ok_of_perm reordered reorderedToo moderate paired
    rw [perform_eq_of_byKey keyed paired pairedToo]
    simp
  | error error =>
    have failed := perform_eq_error_of_byKey keyed paired
    cases pairedToo : Pairing.byKey policy .root key references' candidates' with
    | ok pairings =>
      have back := Pairing.byKey_eq_ok_of_perm reordered.symm reorderedToo.symm moderateToo pairedToo
      simp [back] at paired
    | error other =>
      have failedToo := perform_eq_error_of_byKey keyed pairedToo
      rw [failed, failedToo]
      simp

/-- Items are paired by their numbers. -/
def pairedByNumber : Policy :=
  { Policy.default with matchByKey := [⟨[.keyExpression "no"]⟩] }

/-- Two items, the second of which comes first by its number. -/
def numberedItems : List Value :=
  [.object [(.text "no", .number (.int 10))], .object [(.text "no", .number (.int 9))]]

/-- An item with a text in place of a number. -/
def namedItems : List Value := [.object [(.text "no", .text "x")]]

/-- Items are found in the order of their numbers, in whatever order the array has them. -/
theorem perform_reordered_numbers :
    ∃ findings,
      perform pairedByNumber (.array (namedItems ++ numberedItems)) (.array []) = .ok findings ∧
      findings.items.map Difference.path = ["/no=9", "/no=10", "/no=x"] := by
  have done : perform pairedByNumber (.array (numberedItems ++ namedItems)) (.array []) = .ok {
      items := [
        ⟨.missing, "/no=9", some (.object [(.text "no", .number (.int 9))]), none⟩,
        ⟨.missing, "/no=10", some (.object [(.text "no", .number (.int 10))]), none⟩,
        ⟨.missing, "/no=x", some (.object [(.text "no", .text "x")]), none⟩]
      positions := [("/no=9", 0), ("/no=10", 1), ("/no=x", 2)]
      limit := none } := by
    cbv
  have keyed : pairedByNumber.keyFor .root = .ok (some "no") := by cbv
  have moderate : Pairing.ModerateKeys pairedByNumber "no" (numberedItems ++ namedItems ++ []) := by
    have values : (Pairing.keyedItems pairedByNumber "no"
        (numberedItems ++ namedItems ++ [])).map Pairing.Keyed.keyValue =
          [.number (.int 10), .number (.int 9), .text "x"] := by
      cbv
    intro entry member
    have known := List.mem_map_of_mem (f := Pairing.Keyed.keyValue) member
    rw [values] at known
    simp only [List.mem_cons, List.not_mem_nil, or_false] at known
    rcases known with same | same | same <;> rw [same] <;> trivial
  have reordered : (numberedItems ++ namedItems).Perm (namedItems ++ numberedItems) :=
    List.perm_append_comm
  have same := ((perform_reordered keyed reordered (List.Perm.refl []) moderate).1 _).1 done
  exact ⟨_, same, rfl⟩

end Comparison

end StructuralDiff
