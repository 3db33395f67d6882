import Mathlib
import StructuralDiff.Proofs.Meeting
import StructuralDiff.Proofs.Recovery
import StructuralDiff.Proofs.SelfComparison

/-!
# What pairing by value leaves over

Items that are paired by value are claimed one by one, and each reference item takes the
first equal candidate that is free. Whatever the order of the items, this leaves the surplus
of every class of equal items: of the items of one side those whose rank in their class
exceeds the size of the class on the other side (`Pairing.unclaimed_eq_surplus`). A
comparison records these items at their own positions, first those of the reference and
then those of the candidate (`Comparison.record_byValue_surplus`).
-/

namespace StructuralDiff

namespace Policy

/-- How many values are one value with a given one. -/
def countEqual (policy : Policy) (value : Value) (values : List Value) : Nat :=
  values.countP (policy.scalarsEqual value)

/-- The place of an item among the items of its array that equal it, counted from one. -/
def rank (policy : Policy) (items : List Value) (entry : Nat × Value) : Nat :=
  policy.countEqual entry.2 (items.take entry.1) + 1

/-- Scalars that are one value with the same scalar are one value. -/
theorem scalarsEqual_trans (policy : Policy) {first second third : Value}
    (scalar : first.isScalar) (left : policy.scalarsEqual first second = true)
    (right : policy.scalarsEqual second third = true) :
    policy.scalarsEqual first third = true := by
  unfold scalarsEqual at *
  split at left
  · rename_i byText
    simp only [byText, if_true] at right ⊢
    exact Value.equal_trans_of_isScalar (Value.isScalar_canonicalScalar scalar) left right
  · rename_i byValue
    simp only [byValue] at right ⊢
    exact Value.equal_trans_of_isScalar scalar left right

/-- Scalars that are one value are one value with the same scalars. -/
theorem scalarsEqual_congr (policy : Policy) {value left right : Value} (scalar : value.isScalar)
    (leftScalar : left.isScalar) (rightScalar : right.isScalar)
    (same : policy.scalarsEqual left right = true) :
    policy.scalarsEqual value left = policy.scalarsEqual value right := by
  rw [Bool.eq_iff_iff]
  constructor
  · intro equal
    exact policy.scalarsEqual_trans scalar equal same
  · intro equal
    rw [policy.scalarsEqual_comm leftScalar rightScalar] at same
    exact policy.scalarsEqual_trans scalar equal same

/-- A scalar that is one value with another is one value with itself. -/
theorem scalarsEqual_self_of_equal (policy : Policy) {value other : Value} (scalar : value.isScalar)
    (scalarToo : other.isScalar) (equal : policy.scalarsEqual value other = true) :
    policy.scalarsEqual value value = true := by
  have mirrored := equal
  rw [policy.scalarsEqual_comm scalar scalarToo] at mirrored
  exact policy.scalarsEqual_trans scalar equal mirrored

/-- Values in another order have as many that are one value with a given one. -/
theorem countEqual_perm (policy : Policy) (value : Value) {values others : List Value}
    (reordered : values.Perm others) :
    policy.countEqual value values = policy.countEqual value others :=
  reordered.countP_eq _

end Policy

namespace Pairing

variable {policy : Policy}

/-- The items of one array, with their positions, whose rank among the items that equal them
exceeds the number of equal items of the other array. -/
def surplus (policy : Policy) (items others : List Value) : Positioned :=
  (positioned items).filter fun entry =>
    policy.countEqual entry.2 others < policy.rank items entry

/-- Values with their positions, counted from a given one. -/
def positionedFrom (position : Nat) (values : List Value) : Positioned :=
  (values.zipIdx position).map fun entry => (entry.2, entry.1)

theorem positionedFrom_cons (position : Nat) (value : Value) (values : List Value) :
    positionedFrom position (value :: values) =
      (position, value) :: positionedFrom (position + 1) values := rfl

/-- Positioned values are the values. -/
@[simp] theorem map_snd_positionedFrom (position : Nat) (values : List Value) :
    (positionedFrom position values).map Prod.snd = values := by
  simp [positionedFrom, Function.comp_def]

/-- Positions start where they are counted from. -/
theorem le_of_mem_positionedFrom {position : Nat} {values : List Value} {entry : Nat × Value}
    (member : entry ∈ positionedFrom position values) : position ≤ entry.1 := by
  obtain ⟨⟨value, place⟩, known, rfl⟩ := List.mem_map.1 member
  exact (List.mem_zipIdx known).1

/-- A positioned value is one of the values. -/
theorem mem_of_mem_positionedFrom {position : Nat} {values : List Value} {entry : Nat × Value}
    (member : entry ∈ positionedFrom position values) : entry.2 ∈ values := by
  have known : entry.2 ∈ (positionedFrom position values).map Prod.snd :=
    List.mem_map_of_mem member
  rwa [map_snd_positionedFrom] at known

/-- The rank of an item counts the value in front of all items too, when that is in its
class. -/
theorem countEqual_take_cons (policy : Policy) (value : Value) {position : Nat}
    {values : List Value} {entry : Nat × Value}
    (member : entry ∈ positionedFrom (position + 1) values) :
    policy.countEqual entry.2 ((value :: values).take (entry.1 - position)) =
      policy.countEqual entry.2 (values.take (entry.1 - (position + 1))) +
        if policy.scalarsEqual entry.2 value then 1 else 0 := by
  have behind := le_of_mem_positionedFrom member
  obtain ⟨count, isCount⟩ : ∃ count, entry.1 - position = count + 1 :=
    ⟨entry.1 - (position + 1), by omega⟩
  have rest : entry.1 - (position + 1) = count := by omega
  rw [isCount, rest, List.take_succ_cons, Policy.countEqual, List.countP_cons, Policy.countEqual]

/-- All values of positioned items are scalars. -/
def Scalars (entries : Positioned) : Prop :=
  ∀ entry ∈ entries, entry.2.isScalar

section Claiming

variable {references candidates rest : Positioned} {value : Value}

/-- A claim takes one of the candidates that equal what claims. -/
theorem countEqual_of_claimed (claimed : claim? policy value candidates = some rest)
    (scalar : value.isScalar) (scalars : Scalars candidates) {other : Value}
    (scalarToo : other.isScalar) :
    policy.countEqual other (candidates.map Prod.snd) =
      policy.countEqual other (rest.map Prod.snd) +
        if policy.scalarsEqual other value then 1 else 0 := by
  obtain ⟨before, candidate, after, rfl, rfl, equal, -⟩ := exists_of_claim?_eq_some claimed
  have sameClass : policy.scalarsEqual other value = policy.scalarsEqual other candidate.2 :=
    policy.scalarsEqual_congr scalarToo scalar (scalars candidate (by simp)) equal
  simp only [Policy.countEqual, List.map_append, List.map_cons, List.countP_append,
    List.countP_cons, sameClass]
  omega

/-- What claims a candidate is one value with itself. -/
theorem scalarsEqual_self_of_claimed (claimed : claim? policy value candidates = some rest)
    (scalar : value.isScalar) (scalars : Scalars candidates) :
    policy.scalarsEqual value value = true := by
  obtain ⟨before, candidate, after, rfl, -, equal, -⟩ := exists_of_claim?_eq_some claimed
  exact policy.scalarsEqual_self_of_equal scalar (scalars candidate (by simp)) equal

/-- No candidate is one value with an item without a claim. -/
theorem countEqual_self_of_not_claimed (free : claim? policy value candidates = none) :
    policy.countEqual value (candidates.map Prod.snd) = 0 := by
  rw [Policy.countEqual, List.countP_eq_zero]
  intro held member equal
  obtain ⟨candidate, known, rfl⟩ := List.mem_map.1 member
  rw [claim?_eq_none_iff.1 free candidate known] at equal
  cases equal

/-- Nothing that is one value with an item without a claim is among the candidates. -/
theorem countEqual_of_not_claimed (free : claim? policy value candidates = none)
    (scalar : value.isScalar) {other : Value} (scalarToo : other.isScalar)
    (same : policy.scalarsEqual other value = true) :
    policy.countEqual other (candidates.map Prod.snd) = 0 := by
  rw [Policy.countEqual, List.countP_eq_zero]
  intro held member equal
  obtain ⟨candidate, known, rfl⟩ := List.mem_map.1 member
  have unequal := claim?_eq_none_iff.1 free candidate known
  rw [policy.scalarsEqual_comm scalarToo scalar] at same
  rw [policy.scalarsEqual_trans scalar same equal] at unequal
  cases unequal

/-- What claims leave over of a class is what one side has more of it. By induction on the
side that claims: a claim takes one member of a class from both sides. -/
theorem countEqual_unclaimed (policy : Policy) (scalars : Scalars references)
    (scalarsToo : Scalars candidates) (scalar : value.isScalar) :
    policy.countEqual value ((unclaimed policy references candidates).1.map Prod.snd) =
      policy.countEqual value (references.map Prod.snd) -
        policy.countEqual value (candidates.map Prod.snd) := by
  induction references generalizing candidates with
  | nil => simp [unclaimed, Policy.countEqual]
  | cons reference references ih =>
    obtain ⟨position, item⟩ := reference
    have itemScalar : item.isScalar := scalars _ List.mem_cons_self
    have others : Scalars references :=
      fun entry member => scalars entry (List.mem_cons_of_mem _ member)
    have whole : policy.countEqual value (((position, item) :: references).map Prod.snd) =
        policy.countEqual value (references.map Prod.snd) +
          if policy.scalarsEqual value item then 1 else 0 := by
      simp only [Policy.countEqual, List.map_cons, List.countP_cons]
    rw [whole]
    cases claimed : claim? policy item candidates with
    | some rest =>
      have taken := countEqual_of_claimed claimed itemScalar scalarsToo scalar
      have left := @ih rest others fun entry member =>
        scalarsToo entry ((claim?_sublist claimed).mem member)
      simp only [unclaimed, claimed]
      rw [left, taken]
      omega
    | none =>
      have left := ih others scalarsToo
      simp only [unclaimed, claimed, Policy.countEqual, List.map_cons, List.countP_cons] at left ⊢
      rw [left]
      by_cases same : policy.scalarsEqual value item = true
      · have absent := countEqual_of_not_claimed claimed itemScalar scalar same
        rw [Policy.countEqual] at absent
        simp only [same, if_true, absent]
        omega
      · simp only [same, Bool.false_eq_true, if_false]
        omega

/-- Claims take as many items from one side as from the other. -/
theorem length_unclaimed (policy : Policy) (references candidates : Positioned) :
    (unclaimed policy references candidates).1.length + candidates.length =
      (unclaimed policy references candidates).2.length + references.length := by
  induction references generalizing candidates with
  | nil => simp [unclaimed]
  | cons reference references ih =>
    obtain ⟨position, item⟩ := reference
    cases claimed : claim? policy item candidates with
    | some rest =>
      obtain ⟨before, candidate, after, rfl, rfl, -, -⟩ := exists_of_claim?_eq_some claimed
      have left := ih (before ++ after)
      simp only [unclaimed, claimed, List.length_append, List.length_cons] at left ⊢
      omega
    | none =>
      have left := ih candidates
      simp only [unclaimed, claimed, List.length_cons] at left ⊢
      omega

/-- Of the reference, the items stay that come too late in their class. By induction on the
reference: the rank is counted in what is left of it, and the class in what is left of the
candidate. -/
theorem fst_unclaimed_positionedFrom {items : List Value} {position : Nat}
    (scalars : ∀ item ∈ items, item.isScalar) (scalarsToo : Scalars candidates) :
    (unclaimed policy (positionedFrom position items) candidates).1 =
      (positionedFrom position items).filter fun entry =>
        policy.countEqual entry.2 (candidates.map Prod.snd) <
          policy.countEqual entry.2 (items.take (entry.1 - position)) + 1 := by
  induction items generalizing position candidates with
  | nil => rfl
  | cons item items ih =>
    have itemScalar : item.isScalar := scalars _ List.mem_cons_self
    have others : ∀ other ∈ items, other.isScalar :=
      fun other member => scalars other (List.mem_cons_of_mem _ member)
    have here : policy.countEqual item ((item :: items).take (position - position)) = 0 := by
      simp [Policy.countEqual]
    cases claimed : claim? policy item candidates with
    | some rest =>
      have claims := fun {other : Value} (scalar : other.isScalar) =>
        countEqual_of_claimed claimed itemScalar scalarsToo scalar
      have dropped : ¬ policy.countEqual item (candidates.map Prod.snd) <
          policy.countEqual item ((item :: items).take (position - position)) + 1 := by
        rw [here, claims itemScalar, scalarsEqual_self_of_claimed claimed itemScalar scalarsToo]
        simp
      have left := @ih rest (position + 1) others fun entry member =>
        scalarsToo entry ((claim?_sublist claimed).mem member)
      rw [positionedFrom_cons, List.filter_cons_of_neg (by simpa using dropped)]
      simp only [unclaimed, claimed]
      rw [left]
      refine List.filter_congr fun entry member => ?_
      have scalar := others _ (mem_of_mem_positionedFrom member)
      rw [countEqual_take_cons policy item member, claims scalar]
      exact decide_eq_decide.2 (by omega)
    | none =>
      have kept : policy.countEqual item (candidates.map Prod.snd) <
          policy.countEqual item ((item :: items).take (position - position)) + 1 := by
        rw [here, countEqual_self_of_not_claimed claimed]
        exact Nat.zero_lt_one
      have left := @ih candidates (position + 1) others scalarsToo
      rw [positionedFrom_cons, List.filter_cons_of_pos (by simpa using kept)]
      simp only [unclaimed, claimed]
      rw [left]
      congr 1
      refine List.filter_congr fun entry member => ?_
      rw [countEqual_take_cons policy item member]
      by_cases same : policy.scalarsEqual entry.2 item = true
      · have scalar := others _ (mem_of_mem_positionedFrom member)
        rw [countEqual_of_not_claimed claimed itemScalar scalar same]
        exact decide_eq_decide.2 (by omega)
      · rw [if_neg same, Nat.add_zero]

end Claiming

section Surplus

variable {items others : List Value}

/-- The surplus are the items that come too late in their class, at their positions. -/
theorem mem_surplus_iff {position : Nat} {value : Value} :
    (position, value) ∈ surplus policy items others ↔
      items[position]? = some value ∧
        policy.countEqual value others < policy.rank items (position, value) := by
  simp [surplus, positioned, List.mem_zipIdx_iff_getElem?]

/-- The items of a surplus are in the order of their positions. -/
theorem pairwise_surplus (items others : List Value) :
    (surplus policy items others).Pairwise fun earlier later => earlier.1 < later.1 := by
  refine List.Pairwise.filter _ (List.pairwise_map.2 ?_)
  have increasing : ((items.zipIdx 0).map Prod.snd).Pairwise (· < ·) := by
    rw [List.zipIdx_map_snd]
    exact List.pairwise_lt_range'
  exact List.pairwise_map.1 increasing

/-- What equals not even itself is in the surplus: it equals nothing of the other array. -/
theorem mem_surplus_of_unequal_self (scalars : ∀ other ∈ others, other.isScalar) {position : Nat}
    {value : Value} (scalar : value.isScalar) (held : items[position]? = some value)
    (unequal : policy.scalarsEqual value value = false) :
    (position, value) ∈ surplus policy items others := by
  have none : policy.countEqual value others = 0 := by
    rw [Policy.countEqual, List.countP_eq_zero]
    intro other member equal
    rw [policy.scalarsEqual_self_of_equal scalar (scalars other member) equal] at unequal
    cases unequal
  rw [mem_surplus_iff, none]
  exact ⟨held, Nat.succ_pos _⟩

/-- A number that stands for no value is in the surplus, unless numbers are compared by their
texts. -/
theorem mem_surplus_of_isNaN (byValue : policy.indifferentValues = false)
    (scalars : ∀ other ∈ others, other.isScalar) {position : Nat} {number : Binary64}
    (isNaN : number.isNaN = true) (held : items[position]? = some (.number (.float number))) :
    (position, .number (.float number)) ∈ surplus policy items others := by
  refine mem_surplus_of_unequal_self scalars rfl held ?_
  have noValue : ¬ (Number.float number).HasValue := by simp [Number.HasValue, isNaN]
  rw [← Number.equal_self_iff, Bool.not_eq_true] at noValue
  simpa [Policy.scalarsEqual, byValue, Value.equal] using noValue

/-- The place of an item that equals itself is at most the size of its class. -/
theorem rank_le_countEqual {position : Nat} {value : Value} (held : items[position]? = some value)
    (equal : policy.scalarsEqual value value = true) :
    policy.rank items (position, value) ≤ policy.countEqual value items := by
  obtain ⟨inside, rfl⟩ := List.getElem?_eq_some_iff.1 held
  have further : policy.countEqual items[position] (items.take (position + 1)) =
      policy.rank items (position, items[position]) := by
    rw [List.take_succ_eq_append_getElem inside, Policy.countEqual, List.countP_append,
      List.countP_singleton, if_pos equal, Policy.rank, Policy.countEqual]
  rw [← further]
  exact (List.take_sublist _ _).countP_le

/-- What two arrays of scalars leave over when they are paired by value: the surplus of each
side over the other. -/
theorem unclaimed_eq_surplus {references candidates : List Value}
    (scalars : ∀ item ∈ references, item.isScalar)
    (scalarsToo : ∀ item ∈ candidates, item.isScalar) :
    unclaimed policy (positioned references) (positioned candidates) =
      (surplus policy references candidates, surplus policy candidates references) := by
  have first : ∀ {items others : List Value}, (∀ item ∈ items, item.isScalar) →
      (∀ item ∈ others, item.isScalar) →
      (unclaimed policy (positioned items) (positioned others)).1 =
        surplus policy items others := by
    intro items others scalars scalarsToo
    have late : (unclaimed policy (positionedFrom 0 items) (positioned others)).1 = _ :=
      fst_unclaimed_positionedFrom scalars fun entry member =>
        scalarsToo _ (mem_of_mem_positioned member)
    exact late.trans (by
      rw [show (positioned others).map Prod.snd = others from map_snd_positionedFrom 0 others]
      rfl)
  have commutes : ∀ reference ∈ positioned references, ∀ candidate ∈ positioned candidates,
      policy.scalarsEqual reference.2 candidate.2 = policy.scalarsEqual candidate.2 reference.2 :=
    fun reference member candidate memberToo =>
      policy.scalarsEqual_comm (scalars _ (mem_of_mem_positioned member))
        (scalarsToo _ (mem_of_mem_positioned memberToo))
  refine Prod.ext (first scalars scalarsToo) ?_
  rw [← first scalarsToo scalars, unclaimed_swap commutes]
  rfl

end Surplus

section Balance

variable {references candidates : List Value}

/-- Every item of two arrays equals itself, and equally many items of both. -/
def Balanced (policy : Policy) (references candidates : List Value) : Prop :=
  ∀ value ∈ references ++ candidates, policy.scalarsEqual value value = true ∧
    policy.countEqual value references = policy.countEqual value candidates

/-- The surplus of a class is what one array has more of it. -/
theorem countEqual_surplus (policy : Policy) (scalars : ∀ item ∈ references, item.isScalar)
    (scalarsToo : ∀ item ∈ candidates, item.isScalar) {value : Value} (scalar : value.isScalar) :
    policy.countEqual value ((surplus policy references candidates).map Prod.snd) =
      policy.countEqual value references - policy.countEqual value candidates := by
  have left := countEqual_unclaimed policy
    (fun entry member => scalars _ (mem_of_mem_positioned member))
    (fun entry member => scalarsToo _ (mem_of_mem_positioned member)) scalar
  have values : ∀ items : List Value, (positioned items).map Prod.snd = items :=
    map_snd_positionedFrom 0
  rwa [unclaimed_eq_surplus scalars scalarsToo, values, values] at left

/-- Neither of two arrays of scalars has a surplus exactly when they balance. -/
theorem surplus_eq_nil_iff_balanced (scalars : ∀ item ∈ references, item.isScalar)
    (scalarsToo : ∀ item ∈ candidates, item.isScalar) :
    surplus policy references candidates = [] ∧ surplus policy candidates references = [] ↔
      Balanced policy references candidates := by
  constructor
  · rintro ⟨noneLeft, noneRight⟩ value member
    have scalar : value.isScalar := (List.mem_append.1 member).elim (scalars _) (scalarsToo _)
    constructor
    · by_contra unequal
      rw [Bool.not_eq_true] at unequal
      rcases List.mem_append.1 member with known | known
      · obtain ⟨position, held⟩ := List.mem_iff_getElem?.1 known
        have late := mem_surplus_of_unequal_self scalarsToo scalar held unequal
        rw [noneLeft] at late
        cases late
      · obtain ⟨position, held⟩ := List.mem_iff_getElem?.1 known
        have late := mem_surplus_of_unequal_self scalars scalar held unequal
        rw [noneRight] at late
        cases late
    · have left := countEqual_surplus policy scalars scalarsToo scalar
      have right := countEqual_surplus policy scalarsToo scalars scalar
      rw [noneLeft] at left
      rw [noneRight] at right
      simp only [Policy.countEqual, List.map_nil, List.countP_nil] at left right ⊢
      omega
  · intro balanced
    have none : ∀ {items others : List Value}, (∀ value ∈ items,
        policy.scalarsEqual value value = true ∧
          policy.countEqual value items = policy.countEqual value others) →
        surplus policy items others = [] := by
      intro items others balanced
      refine List.eq_nil_iff_forall_not_mem.2 fun ⟨position, value⟩ late => ?_
      obtain ⟨held, beyond⟩ := mem_surplus_iff.1 late
      obtain ⟨equal, same⟩ := balanced value (List.mem_of_getElem? held)
      have inside := rank_le_countEqual held equal
      omega
    constructor
    · exact none fun value member => balanced value (List.mem_append_left _ member)
    · refine none fun value member => ?_
      obtain ⟨equal, same⟩ := balanced value (List.mem_append_right _ member)
      exact ⟨equal, same.symm⟩

/-- The order of the other array does not matter for the surplus of an array. -/
theorem surplus_perm (policy : Policy) {items others othersToo : List Value}
    (reordered : others.Perm othersToo) :
    surplus policy items othersToo = surplus policy items others := by
  refine List.filter_congr fun entry _ => ?_
  rw [policy.countEqual_perm entry.2 reordered]

/-- An array in another order has as many items in its surplus, altogether and of each class. -/
theorem surplus_perm_left (policy : Policy) {others : List Value}
    (scalars : ∀ item ∈ references, item.isScalar)
    (scalarsToo : ∀ item ∈ candidates, item.isScalar) (reordered : candidates.Perm others) :
    (surplus policy others references).length = (surplus policy candidates references).length ∧
      ∀ value : Value, value.isScalar →
        policy.countEqual value ((surplus policy others references).map Prod.snd) =
          policy.countEqual value ((surplus policy candidates references).map Prod.snd) := by
  have scalarsThen : ∀ item ∈ others, item.isScalar :=
    fun item member => scalarsToo item (reordered.mem_iff.2 member)
  constructor
  · have before := length_unclaimed policy (positioned references)
      (positioned candidates)
    have after := length_unclaimed policy (positioned references) (positioned others)
    rw [unclaimed_eq_surplus scalars scalarsToo] at before
    rw [unclaimed_eq_surplus scalars scalarsThen, surplus_perm policy reordered] at after
    have lengths := reordered.length_eq
    simp only [positioned, List.length_map, List.length_zipIdx] at before after
    omega
  · intro value scalar
    rw [countEqual_surplus policy scalarsThen scalars scalar,
      countEqual_surplus policy scalarsToo scalars scalar, policy.countEqual_perm value reordered]

end Balance

end Pairing

/-! ## What is recorded of the surplus -/

namespace Path

/-- The path of the item at a position of an array, counted from zero. -/
def toItem (path : Path) (position : Nat) : Path :=
  ⟨path.segments ++ [.plain (Pairing.positionStep position)]⟩

/-- The step to an item leads to the path of the item. -/
theorem join_positionStep (path : Path) (position : Nat) :
    path.join (Pairing.positionStep position) = .ok (path.toItem position) :=
  join_eq_ok_iff.2 ⟨_, Pairing.read_positionStep position, rfl⟩

end Path

namespace Trace

/-- Differences that come up one after another. -/
theorem sequence_map_found (differences : List Difference) :
    sequence (differences.map found) = ⟨differences, none⟩ := by
  induction differences with
  | nil => rfl
  | cons difference differences ih =>
    rw [List.map_cons, sequence_cons, ih, append_of_complete rfl]
    rfl

/-- Without a limit, all that comes up in a complete trace is recorded. -/
theorem exists_of_recordInto {trace : Trace} (complete : trace.failure = none)
    {findings : Findings} (unlimited : findings.limit = none) :
    ∃ reached, trace.recordInto findings = .ok reached ∧
      reached.items = findings.items ++ trace.differences := by
  obtain ⟨accepted, items⟩ := Findings.recordAll_of_unlimited unlimited trace.differences
  rcases recorded : findings.recordAll trace.differences with ⟨reached, stopped⟩
  simp only [recorded] at accepted items
  subst accepted
  exact ⟨reached, by simp only [recordInto, recorded, complete], items⟩

end Trace

namespace Comparison

open Pairing

variable {policy : Policy} {path : Path}

/-- The difference at an item that only the reference has. -/
def missingAt (path : Path) (entry : Nat × Value) : Difference :=
  ⟨.missing, (path.toItem entry.1).text, some entry.2, none⟩

/-- The difference at an item that only the candidate has. -/
def extraAt (path : Path) (entry : Nat × Value) : Difference :=
  ⟨.extra, (path.toItem entry.1).text, none, some entry.2⟩

/-- Two arrays are compared without a failure, and what is recorded are the items that one
array has left over, and then those of the other. -/
def RecordsLeftOver (policy : Policy) (path : Path) (references candidates : List Value)
    (unmatched left : Positioned) : Prop :=
  ∀ findings : Findings, findings.limit = none → ∃ reached,
    record policy path (.array references) (.array candidates) findings = .ok reached ∧
      reached.items = findings.items ++ (unmatched.map (missingAt path) ++ left.map (extraAt path))

/-- A comparison by value records the surplus of both arrays. -/
theorem recordsLeftOver_surplus (shown : policy.excludes path = false)
    (unkeyed : policy.keyFor path = .ok none) (paired : policy.matchesByValue path = true)
    {references candidates : List Value}
    (scalars : ∀ item ∈ references, item.isScalar) (scalarsToo : ∀ item ∈ candidates, item.isScalar)
    (children : ∀ position, position < references.length ∨ position < candidates.length →
      policy.excludes (path.toItem position) = false) :
    RecordsLeftOver policy path references candidates (surplus policy references candidates)
      (surplus policy candidates references) := by
  have allScalars : (references.all Value.isScalar && candidates.all Value.isScalar) = true := by
    rw [Bool.and_eq_true, List.all_eq_true, List.all_eq_true]
    exact ⟨scalars, scalarsToo⟩
  have planned : plan policy path (.array references) (.array candidates) =
      .descend ((surplus policy references candidates).map
          (fun entry => .missing (positionStep entry.1) entry.2) ++
        (surplus policy candidates references).map
          (fun entry => .extra (positionStep entry.1) entry.2)) := by
    simp only [plan, ofItems, unkeyed, paired, byValue, allScalars, if_true,
      unclaimed_eq_surplus scalars scalarsToo]
  have inside : ∀ {items others : List Value} {entry : Nat × Value},
      entry ∈ surplus policy items others → entry.1 < items.length := fun member =>
    (List.getElem?_eq_some_iff.1 (mem_surplus_iff.1 member).1).1
  have missing : (surplus policy references candidates).map
      (visit policy path ∘ fun entry => .missing (positionStep entry.1) entry.2) =
        (surplus policy references candidates).map (Trace.found ∘ missingAt path) := by
    refine List.map_congr_left fun entry member => ?_
    have joined : path.join (Pairing.missing (positionStep entry.1) entry.2).step =
        .ok (path.toItem entry.1) := path.join_positionStep entry.1
    rw [Function.comp_apply, visit_missing joined, oneSided, children entry.1 (.inl (inside member))]
    rfl
  have extra : (surplus policy candidates references).map
      (visit policy path ∘ fun entry => .extra (positionStep entry.1) entry.2) =
        (surplus policy candidates references).map (Trace.found ∘ extraAt path) := by
    refine List.map_congr_left fun entry member => ?_
    have joined : path.join (Pairing.extra (positionStep entry.1) entry.2).step =
        .ok (path.toItem entry.1) := path.join_positionStep entry.1
    rw [Function.comp_apply, visit_extra joined, oneSided, children entry.1 (.inr (inside member))]
    rfl
  have walked : walk policy path (.array references) (.array candidates) =
      ⟨(surplus policy references candidates).map (missingAt path) ++
        (surplus policy candidates references).map (extraAt path), none⟩ := by
    rw [walk_of_descend shown planned, ← Trace.sequence_map_found, List.map_append, List.map_append,
      List.map_map, List.map_map, List.map_map, List.map_map, missing, extra]
  intro findings unlimited
  rw [record_eq_recordInto, walked]
  exact Trace.exists_of_recordInto rfl unlimited

/-- When the items of two arrays of scalars are paired by value, what is recorded is the
surplus of each side over the other: first, by position, the items of the reference whose
rank in their class exceeds the size of the class in the candidate, then those of the
candidate. So nothing is recorded exactly when the arrays balance. What stands for no number
is in the surplus of its side, and a reordered candidate leaves the surplus of the reference
as it is and that of every class as large. -/
theorem record_byValue_surplus (shown : policy.excludes path = false)
    (unkeyed : policy.keyFor path = .ok none) (paired : policy.matchesByValue path = true)
    {references candidates : List Value}
    (scalars : ∀ item ∈ references, item.isScalar) (scalarsToo : ∀ item ∈ candidates, item.isScalar)
    (children : ∀ position, position < references.length ∨ position < candidates.length →
      policy.excludes (path.toItem position) = false) :
    RecordsLeftOver policy path references candidates (surplus policy references candidates)
        (surplus policy candidates references) ∧
      ((surplus policy references candidates).Pairwise fun earlier later => earlier.1 < later.1) ∧
      ((surplus policy candidates references).Pairwise fun earlier later => earlier.1 < later.1) ∧
      (surplus policy references candidates ++ surplus policy candidates references = [] ↔
        Balanced policy references candidates) ∧
      (policy.indifferentValues = false → ∀ position number, Binary64.isNaN number = true →
        (references[position]? = some (.number (.float number)) →
          (position, .number (.float number)) ∈ surplus policy references candidates) ∧
        (candidates[position]? = some (.number (.float number)) →
          (position, .number (.float number)) ∈ surplus policy candidates references)) ∧
      ∀ others, candidates.Perm others → ∃ left,
        RecordsLeftOver policy path references others (surplus policy references candidates) left ∧
        left.length = (surplus policy candidates references).length ∧
        ∀ value : Value, value.isScalar →
          policy.countEqual value (left.map Prod.snd) =
            policy.countEqual value ((surplus policy candidates references).map Prod.snd) := by
  refine ⟨recordsLeftOver_surplus shown unkeyed paired scalars scalarsToo children,
    pairwise_surplus _ _, pairwise_surplus _ _, ?balanced, ?noValue, ?reordered⟩
  case balanced =>
    rw [List.append_eq_nil_iff]
    exact surplus_eq_nil_iff_balanced scalars scalarsToo
  case noValue =>
    intro byValue position number isNaN
    exact ⟨mem_surplus_of_isNaN byValue scalarsToo isNaN,
      mem_surplus_of_isNaN byValue scalars isNaN⟩
  case reordered =>
    intro others reordered
    have scalarsThen : ∀ item ∈ others, item.isScalar :=
      fun item member => scalarsToo item (reordered.mem_iff.2 member)
    rw [reordered.length_eq] at children
    obtain ⟨many, counts⟩ := surplus_perm_left policy scalars scalarsToo reordered
    refine ⟨surplus policy others references, ?_, many, counts⟩
    rw [← surplus_perm policy reordered]
    exact recordsLeftOver_surplus shown unkeyed paired scalars scalarsThen children

/-- Terms that pair the items of the whole document by value. -/
def pairedByValue : Policy :=
  { Policy.default with matchByValue := [.root] }

/-- Items of which two are one value in different forms, and one stands for no number. -/
def surplusItems : List Value :=
  [.number (.int 1), .text "a", .number (.uint 1), .number (.float ⟨0x7ff8000000000000⟩)]

/-- Items that have one of these values once, in a third form. -/
def fewerItems : List Value :=
  [.text "b", .number (.float ⟨0x3ff0000000000000⟩), .number (.float ⟨0x7ff8000000000000⟩)]

/-- The second item of the value that both have is left over, and so are the items that stand
for no number and those that only one side has. -/
theorem record_byValue_surplus_repeated :
    RecordsLeftOver pairedByValue .root surplusItems fewerItems
      [(1, .text "a"), (2, .number (.uint 1)), (3, .number (.float ⟨0x7ff8000000000000⟩))]
      [(0, .text "b"), (2, .number (.float ⟨0x7ff8000000000000⟩))] ∧
    ¬ Balanced pairedByValue surplusItems fewerItems := by
  have scalars : ∀ item ∈ surplusItems, item.isScalar := by
    simp [surplusItems, Value.isScalar, Value.shape]
  have scalarsToo : ∀ item ∈ fewerItems, item.isScalar := by
    simp [fewerItems, Value.isScalar, Value.shape]
  have byValue : pairedByValue.matchesByValue .root = true := by cbv
  obtain ⟨recorded, -, -, balanced, -⟩ := record_byValue_surplus rfl rfl byValue scalars scalarsToo
    fun _ _ => rfl
  have left : surplus pairedByValue surplusItems fewerItems =
      [(1, .text "a"), (2, .number (.uint 1)), (3, .number (.float ⟨0x7ff8000000000000⟩))] := by
    rw [surplus, show positioned surplusItems = [(0, _), (1, _), (2, _), (3, _)] from rfl,
      List.filter_cons_of_neg (by decide +kernel), List.filter_cons_of_pos (by decide +kernel),
      List.filter_cons_of_pos (by decide +kernel), List.filter_cons_of_pos (by decide +kernel),
      List.filter_nil]
  have right : surplus pairedByValue fewerItems surplusItems =
      [(0, .text "b"), (2, .number (.float ⟨0x7ff8000000000000⟩))] := by
    rw [surplus, show positioned fewerItems = [(0, _), (1, _), (2, _)] from rfl,
      List.filter_cons_of_pos (by decide +kernel), List.filter_cons_of_neg (by decide +kernel),
      List.filter_cons_of_pos (by decide +kernel), List.filter_nil]
  rw [left, right] at recorded balanced
  exact ⟨recorded, fun none => absurd (balanced.2 none) (by simp)⟩

end Comparison

end StructuralDiff
