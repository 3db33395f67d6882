import Mathlib
import StructuralDiff.Proofs.KeyIdentity
import StructuralDiff.Proofs.Reordering

/-!
# The order of key values and sorting by it

The order of key values is a total preorder on all values, also on those that are no numbers and
on numbers of mixed forms, and among scalars it does not tell apart exactly those that are
equal. So there is one way to put items in the order of their key values when those that tie
keep their order, and the union of two indexes is what it leads to
(`Value.keyOrder_totalPreorder`).
-/

namespace StructuralDiff

/-- Items in an order, those that tie in the order in which they were. -/
structure StablySorted {α : Type} (order : α → α → Ordering) (items sorted : List α) : Prop where
  ascending : sorted.Pairwise fun first second => order first second ≠ .gt
  ties : ∀ item, sorted.filter (fun other => order other item = .eq) =
    items.filter fun other => order other item = .eq

section Sorting

variable {α : Type} {order : α → α → Ordering} [Std.TransCmp order] {items : List α}

/-- Sorting leaves the items in the order, and those that tie in the order in which they
were. -/
theorem stablySorted_mergeSort (items : List α) :
    StablySorted order items (items.mergeSort fun first second => order first second != .gt) where
  ascending := by simpa using pairwise_mergeSort_ne_gt items
  ties item := by
    -- The items that tie are in the order already, so that sorting keeps them as they are.
    have tied : (items.filter fun other => order other item = .eq).Pairwise
        fun first second => (order first second != .gt) = true := by
      refine List.pairwise_of_forall_mem_list fun first member second memberToo => ?_
      have first_eq : order first item = .eq := by simpa using (List.mem_filter.1 member).2
      have second_eq : order second item = .eq := by simpa using (List.mem_filter.1 memberToo).2
      rw [Std.TransCmp.congr_left first_eq, Std.OrientedCmp.eq_comm.1 second_eq]
      rfl
    have kept := (List.sublist_mergeSort ne_gt_trans ne_gt_total tied List.filter_sublist).filter
      fun other => order other item = .eq
    simp only [List.filter_filter, Bool.and_self] at kept
    have sizes := ((List.mergeSort_perm items fun first second => order first second != .gt).filter
      fun other => order other item = .eq).length_eq
    exact (kept.eq_of_length sizes.symm).symm

/-- The first of items in an order comes after none of them. -/
theorem head_ne_gt {head item : α} {rest : List α}
    (ascending : (head :: rest).Pairwise fun first second => order first second ≠ .gt)
    (member : item ∈ head :: rest) : order head item ≠ .gt := by
  rcases List.mem_cons.1 member with rfl | later
  · simp [Std.ReflCmp.compare_self]
  · exact (List.pairwise_cons.1 ascending).1 item later

/-- There is one way to put items in an order when those that tie keep theirs. By induction on
one of the results: the heads of both tie, and are the first of those that tie. -/
theorem StablySorted.unique {first second : List α} (sorted : StablySorted order items first)
    (sortedToo : StablySorted order items second) : first = second := by
  have ties : ∀ item, first.filter (fun other => order other item = .eq) =
      second.filter fun other => order other item = .eq :=
    fun item => (sorted.ties item).trans (sortedToo.ties item).symm
  have ascending := sorted.ascending
  have ascendingToo := sortedToo.ascending
  clear sorted sortedToo
  induction first generalizing second with
  | nil =>
    cases second with
    | nil => rfl
    | cons head second =>
      have none := ties head
      simp [Std.ReflCmp.compare_self] at none
  | cons head first ih =>
    cases second with
    | nil =>
      have none := ties head
      simp [Std.ReflCmp.compare_self] at none
    | cons other second =>
      have otherIn : other ∈ head :: first := by
        have here : other ∈ (other :: second).filter fun item => order item other = .eq := by
          simp [Std.ReflCmp.compare_self]
        rw [← ties other] at here
        exact (List.mem_filter.1 here).1
      have headIn : head ∈ other :: second := by
        have here : head ∈ (head :: first).filter fun item => order item head = .eq := by
          simp [Std.ReflCmp.compare_self]
        rw [ties head] at here
        exact (List.mem_filter.1 here).1
      have notAfter := head_ne_gt ascending otherIn
      have notBefore := head_ne_gt ascendingToo headIn
      have tied : order other head = .eq := by
        have swapped : order head other = (order other head).swap := Std.OrientedCmp.eq_swap
        cases known : order other head <;> simp_all
      have same : head = other := by
        have heads := congrArg List.head? (ties head)
        simpa [Std.ReflCmp.compare_self, tied] using heads
      subst same
      refine congrArg (head :: ·) (ih (fun item => ?_) ascending.of_cons ascendingToo.of_cons)
      have rest := ties item
      by_cases here : order head item = .eq
      · simpa [here] using rest
      · simpa [here] using rest

end Sorting

namespace Value

/-- Scalars that stand for values come alike in the order of key values exactly when they are
equal. -/
theorem keyOrder_eq_eq_iff_equal {left right : Value} (scalar : left.isScalar)
    (scalarToo : right.isScalar) (hasValue : left.EveryNumber Number.HasValue) :
    left.keyOrder right = .eq ↔ left.equal right = true := by
  by_cases types : left.typeRank = right.typeRank
  · cases left <;> cases right <;> first
      | simp [typeRank] at types; done
      | cases scalar; done
      | skip
    case null => simp [keyOrder, equal]
    case bool first second => cases first <;> cases second <;> decide
    case number first second =>
      have order : (Value.number first).keyOrder (.number second) = first.order second := rfl
      rw [order, Number.order_eq_compare_exact, compare_eq_iff_eq]
      exact ⟨Number.equal_of_exact_eq hasValue, Number.exact_eq_of_equal⟩
    case text first second =>
      simp [keyOrder, equal]
  · have apart : left.equal right = false := by
      cases left <;> cases right <;> first | rfl | exact absurd rfl types
    rw [keyOrder_of_typeRank_ne types, compare_eq_iff_eq, apart]
    simp [types]

/-- The order of key values is a total preorder: which of two values comes first does not depend
on which is asked first, and neither coming after nor tying is lost along a chain. Scalars that
stand for values tie exactly when they are equal. So the indexed items of both arrays, each
identity once, can be put in the order of their key values in one way when those that tie keep
their order: as the union of the two indexes. -/
theorem keyOrder_totalPreorder :
    (∀ left right : Value, right.keyOrder left = (left.keyOrder right).swap) ∧
    (∀ first second third : Value, first.keyOrder second ≠ .gt → second.keyOrder third ≠ .gt →
      first.keyOrder third ≠ .gt) ∧
    (∀ first second third : Value, first.keyOrder second = .eq → second.keyOrder third = .eq →
      first.keyOrder third = .eq) ∧
    (∀ left right : Value, left.isScalar → right.isScalar → left.EveryNumber Number.HasValue →
      right.EveryNumber Number.HasValue →
      (left.keyOrder right = .eq ↔ left.equal right = true)) ∧
    ∀ references candidates sorted : List Pairing.Keyed,
      StablySorted Pairing.keyedOrder
          (references ++ candidates.filter fun keyed =>
            (Pairing.findKeyed keyed.identity references).isNone) sorted ↔
        sorted = Pairing.union references candidates := by
  refine ⟨fun left right => Std.OrientedCmp.eq_swap, fun first second third less lessToo => ?_,
    fun first second third same sameToo => Std.TransCmp.eq_trans same sameToo,
    fun left right scalar scalarToo hasValue _ =>
      keyOrder_eq_eq_iff_equal scalar scalarToo hasValue,
    fun references candidates sorted => ⟨fun stably => ?_, ?_⟩⟩
  · simpa using ne_gt_trans first second third (by simpa using less) (by simpa using lessToo)
  · exact stably.unique (stablySorted_mergeSort _)
  · rintro rfl
    exact stablySorted_mergeSort _

/-- The items of a reference, whose keys are two and the negative zero. -/
def twoAndNegativeZero : List Pairing.Keyed :=
  [⟨"2", .number (.int 2), .null⟩, ⟨"-0.0", .number (.float ⟨0x8000000000000000⟩), .null⟩]

/-- The items of a candidate, whose keys are two and zero. -/
def twoAndZero : List Pairing.Keyed :=
  [⟨"2", .number (.int 2), .null⟩, ⟨"0", .number (.int 0), .null⟩]

/-- What is no number comes after an infinity, which comes after the greatest unsigned integer;
`2 ^ 53` as a floating number, as an integer and as an unsigned integer tie, and the two zeros
are equal. Of two items that tie, the reference's comes first. -/
theorem keyOrder_totalPreorder_mixed :
    (Value.number (.int 1)).keyOrder (.number (.float ⟨0x7ff8000000000000⟩)) = .lt ∧
    (Value.number (.uint 18446744073709551615)).keyOrder
      (.number (.float ⟨0x7ff8000000000000⟩)) ≠ .gt ∧
    (Value.number (.float ⟨0x4340000000000000⟩)).keyOrder
      (.number (.uint 9007199254740992)) = .eq ∧
    (Value.number (.float ⟨0x8000000000000000⟩)).keyOrder (.number (.int 0)) = .eq ∧
    ((Pairing.union twoAndNegativeZero twoAndZero).map Pairing.Keyed.identity = ["-0.0", "0", "2"] ∧
      StablySorted Pairing.keyedOrder (twoAndNegativeZero ++ twoAndZero.filter fun keyed =>
          (Pairing.findKeyed keyed.identity twoAndNegativeZero).isNone)
        (Pairing.union twoAndNegativeZero twoAndZero)) := by
  obtain ⟨reversed, notAfter, tied, scalars, sorting⟩ := keyOrder_totalPreorder
  have hasValue : (Value.number (.float ⟨0x8000000000000000⟩)).EveryNumber Number.HasValue :=
    show Binary64.isNaN ⟨0x8000000000000000⟩ = false by decide +kernel
  have zeros : (Value.number (.float ⟨0x8000000000000000⟩)).keyOrder (.number (.int 0)) = .eq :=
    (scalars _ (.number (.int 0)) rfl rfl hasValue trivial).2 (by decide +kernel)
  have after : (Value.number (.int 2)).keyOrder (.number (.float ⟨0x8000000000000000⟩)) = .gt := by
    decide +kernel
  have afterToo : (Value.number (.int 2)).keyOrder (.number (.int 0)) = .gt := by decide +kernel
  refine ⟨?_, ?_, ?_, zeros, ?_, (sorting twoAndNegativeZero twoAndZero _).2 rfl⟩
  · rw [reversed (.number (.float ⟨0x7ff8000000000000⟩))]
    decide +kernel
  · exact notAfter _ (.number (.float ⟨0x7ff0000000000000⟩)) _ (by decide +kernel)
      (by decide +kernel)
  · exact tied _ (.number (.int 9007199254740992)) _ (by decide +kernel) (by decide +kernel)
  · simp [Pairing.union, twoAndNegativeZero, twoAndZero, Pairing.findKeyed, List.mergeSort,
      List.MergeSort.Internal.splitInTwo, after, zeros, afterToo]

end Value

end StructuralDiff
