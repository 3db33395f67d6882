import Mathlib
import StructuralDiff.Proofs.Disagreement
import StructuralDiff.Proofs.Equality
import StructuralDiff.Proofs.Indexing
import StructuralDiff.Proofs.KeyText

/-!
# Pairings with the sides exchanged

When the two containers change places, their pairings do, up to the order in which they
come. Entries and items at positions are paired by what the containers have at each
step, indexed items by what the indexes have under each identity. Pairing by value is
greedy from the side of the reference, and still the same items are left over from the
other side: every item claims the first free equal one, and is claimed by it
(`Pairing.unclaimed_swap`).
-/

namespace StructuralDiff

/-! ## Equality does not depend on the side -/

namespace Binary64

theorem equal_comm (x y : Binary64) : x.equal y = y.equal x := by
  simp only [equal, Bool.beq_comm (a := x.bits), Bool.and_comm x.isZero,
    Bool.and_comm (!x.isNaN)]

end Binary64

namespace Number

theorem equal_comm (left right : Number) : left.equal right = right.equal left := by
  unfold equal
  cases left.wholeValue <;> cases right.wholeValue <;>
    simp [Binary64.equal_comm left.toBinary64, Bool.beq_comm]

end Number

namespace Pairing

/-- The pairing with its sides exchanged. -/
def swap : Pairing → Pairing
  | .missing step value => .extra step value
  | .both step left right => .both step right left
  | .extra step value => .missing step value

@[simp] theorem step_swap (pairing : Pairing) : pairing.swap.step = pairing.step := by
  cases pairing <;> rfl

theorem between_swap (reference candidate : Value) (step : Position.Step) :
    between candidate reference step = (between reference candidate step).map swap := by
  unfold between
  cases reference.child? step <;> cases candidate.child? step <;> rfl

/-- Enumerated pairings change sides when the containers do. -/
theorem Enumerated.perm_swap {reference candidate : Value} {steps stepsToo : List Position.Step}
    {pairings pairingsToo : List Pairing}
    (enumerated : Enumerated reference candidate steps pairings)
    (enumeratedToo : Enumerated candidate reference stepsToo pairingsToo) :
    pairingsToo.Perm (pairings.map swap) := by
  have reordered : stepsToo.Perm steps := by
    refine (List.perm_ext_iff_of_nodup enumeratedToo.distinct enumerated.distinct).2 fun step => ?_
    rw [enumerated.mem_iff, enumeratedToo.mem_iff, or_comm]
  rw [enumerated.eq_filterMap, enumeratedToo.eq_filterMap, List.map_filterMap]
  have sides : between candidate reference = fun step =>
      (between reference candidate step).map swap := by
    funext step
    exact between_swap reference candidate step
  rw [sides]
  exact reordered.filterMap _

/-- The pairings of entries change sides when the objects do. -/
theorem ofEntries_perm_swap {references candidates : Entries Key Value}
    (distinct : references.keys.Nodup) (distinctToo : candidates.keys.Nodup) :
    (ofEntries candidates references).Perm ((ofEntries references candidates).map swap) := by
  exact (enumerated_ofEntries distinct distinctToo).perm_swap
    (enumerated_ofEntries distinctToo distinct)

/-- The pairings by position change sides when the arrays do. -/
theorem byPosition_perm_swap (references candidates : List Value) :
    (byPosition candidates references).Perm ((byPosition references candidates).map swap) := by
  exact (enumerated_byPosition references candidates).perm_swap
    (enumerated_byPosition candidates references)

/-- A pairing agrees when it agrees with its sides exchanged, if equality of the values in
it does not depend on the side. -/
theorem agrees_swap_iff {references candidates : List Value}
    (commutes : ∀ left ∈ references, ∀ right ∈ candidates, left.equal right = right.equal left)
    {pairing : Pairing} (within : pairing.Within references candidates) :
    pairing.swap.Agrees ↔ pairing.Agrees := by
  cases pairing with
  | missing step value => exact Iff.rfl
  | both step left right =>
    simp only [swap, Agrees]
    rw [commutes left within.1 right within.2]
  | extra step value => exact Iff.rfl

/-- All pairings agree when all of them agree with their sides exchanged. -/
theorem forall_agrees_iff_of_perm_swap {references candidates : List Value}
    (commutes : ∀ left ∈ references, ∀ right ∈ candidates, left.equal right = right.equal left)
    {pairings others : List Pairing} (mirrored : others.Perm (pairings.map swap))
    (within : ∀ pairing ∈ pairings, pairing.Within references candidates) :
    (∀ pairing ∈ others, pairing.Agrees) ↔ ∀ pairing ∈ pairings, pairing.Agrees := by
  simp only [mirrored.mem_iff, List.forall_mem_map]
  exact forall₂_congr fun pairing member => agrees_swap_iff commutes (within pairing member)

end Pairing

namespace Value

/-- Equality of well-formed values does not depend on the side. -/
theorem equal_comm {left right : Value} (wellFormed : left.WellFormed)
    (wellFormedToo : right.WellFormed) : left.equal right = right.equal left := by
  induction left using parts_induction generalizing right with
  | whole left ih =>
    have commutes : ∀ part ∈ left.parts, ∀ other ∈ right.parts,
        part.equal other = other.equal part := fun part member other memberToo =>
      ih part member (wellFormed.of_mem_parts member) (wellFormedToo.of_mem_parts memberToo)
    cases left, right using casesPair with
    | objects references candidates =>
      rw [Bool.eq_iff_iff, Pairing.equal_object_iff_agrees wellFormed.1 wellFormedToo.1,
        Pairing.equal_object_iff_agrees wellFormedToo.1 wellFormed.1]
      exact (Pairing.forall_agrees_iff_of_perm_swap commutes
        (Pairing.ofEntries_perm_swap wellFormed.1 wellFormedToo.1)
        fun pairing member => Pairing.within_of_mem_ofEntries member).symm
    | arrays references candidates =>
      rw [Bool.eq_iff_iff, equal, equal, Pairing.equalItems_iff_agrees 0,
        Pairing.equalItems_iff_agrees 0]
      exact (Pairing.forall_agrees_iff_of_perm_swap commutes
        (Pairing.byPosition_perm_swap references candidates)
        fun pairing member => Pairing.within_of_mem_byPositionFrom member).symm
    | scalars left right scalar scalarToo =>
      cases left <;> cases right <;> first
        | cases scalar; done
        | cases scalarToo; done
        | simp [equal, Bool.beq_comm, Number.equal_comm]
    | shapes left right different =>
      rw [equal_eq_false_of_shape_ne different, equal_eq_false_of_shape_ne different.symm]

/-- A scalar is well formed. -/
theorem wellFormed_of_isScalar {value : Value} (scalar : value.isScalar) : value.WellFormed := by
  cases value with
  | array items => cases scalar
  | object entries => cases scalar
  | _ => trivial

theorem isScalar_canonicalScalar {value : Value} (scalar : value.isScalar) :
    value.canonicalScalar.isScalar := by
  cases value <;> exact scalar

/-- Equality of scalars does not depend on the side. -/
theorem equal_comm_of_isScalar {left right : Value} (scalar : left.isScalar)
    (scalarToo : right.isScalar) : left.equal right = right.equal left :=
  equal_comm (wellFormed_of_isScalar scalar) (wellFormed_of_isScalar scalarToo)

/-- What is found under a key has the numbers of the object only. -/
theorem EveryNumber.of_lookUp {policy : Policy} {property : Number → Prop}
    {entries : Entries Key Value} (everyNumber : (object entries).EveryNumber property)
    {key : String} {value : Value} (found : policy.lookUp entries key = some value) :
    value.EveryNumber property :=
  everyNumber.of_mem_parts (Policy.mem_of_lookUp found)

end Value

/-- Whether two scalars are one value does not depend on the side. -/
theorem Policy.scalarsEqual_comm (policy : Policy) {left right : Value} (scalar : left.isScalar)
    (scalarToo : right.isScalar) :
    policy.scalarsEqual left right = policy.scalarsEqual right left := by
  unfold scalarsEqual
  split
  · exact Value.equal_comm_of_isScalar (Value.isScalar_canonicalScalar scalar)
      (Value.isScalar_canonicalScalar scalarToo)
  · exact Value.equal_comm_of_isScalar scalar scalarToo

namespace Pairing

variable {policy : Policy} {path : Path} {key : String}

section ByValue

/-- A value claims nothing where nothing equals it. -/
theorem claim?_eq_none_iff {value : Value} {candidates : Positioned} :
    claim? policy value candidates = none ↔
      ∀ candidate ∈ candidates, policy.scalarsEqual value candidate.2 = false := by
  induction candidates with
  | nil => simp [claim?]
  | cons candidate candidates ih =>
    obtain ⟨position, other⟩ := candidate
    cases equal : policy.scalarsEqual value other <;> simp [claim?, equal, ih]

/-- A value claims the first candidate that equals it. -/
theorem exists_of_claim?_eq_some {value : Value} {candidates rest : Positioned}
    (claimed : claim? policy value candidates = some rest) :
    ∃ before candidate after, candidates = before ++ candidate :: after ∧
      rest = before ++ after ∧ policy.scalarsEqual value candidate.2 = true ∧
      ∀ earlier ∈ before, policy.scalarsEqual value earlier.2 = false := by
  induction candidates generalizing rest with
  | nil => cases claimed
  | cons candidate candidates ih =>
    obtain ⟨position, other⟩ := candidate
    unfold claim? at claimed
    split at claimed
    · rename_i equal
      cases claimed
      exact ⟨[], (position, other), candidates, rfl, rfl, equal, by simp⟩
    · rename_i unequal
      obtain ⟨left, inner, rfl⟩ := Option.map_eq_some_iff.1 claimed
      obtain ⟨before, candidate, after, rfl, rfl, equal, distinct⟩ := ih inner
      refine ⟨(position, other) :: before, candidate, after, rfl, rfl, equal, ?_⟩
      simpa [unequal] using distinct

/-- A first candidate that nobody equals stays, and the others are claimed without it. -/
theorem unclaimed_cons_of_unequal {references candidates : Positioned} {candidate : Nat × Value}
    (unequal : ∀ reference ∈ references, policy.scalarsEqual reference.2 candidate.2 = false) :
    unclaimed policy references (candidate :: candidates) =
      ((unclaimed policy references candidates).1,
        candidate :: (unclaimed policy references candidates).2) := by
  induction references generalizing candidates with
  | nil => rfl
  | cons reference references ih =>
    obtain ⟨position, value⟩ := reference
    have unequalHere : policy.scalarsEqual value candidate.2 = false :=
      unequal _ List.mem_cons_self
    have unequalLater : ∀ other ∈ references, policy.scalarsEqual other.2 candidate.2 = false :=
      fun other member => unequal other (List.mem_cons_of_mem _ member)
    simp only [unclaimed, claim?, unequalHere, Bool.false_eq_true, if_false]
    cases claim? policy value candidates with
    | none => simp only [Option.map_none, ih unequalLater]
    | some rest => simp only [Option.map_some, ih unequalLater]

/-- A first candidate is claimed by the first item that equals it, and the others are
claimed without the two. -/
theorem unclaimed_append_cons_of_equal {before after candidates : Positioned}
    {reference candidate : Nat × Value}
    (equal : policy.scalarsEqual reference.2 candidate.2 = true)
    (unequal : ∀ earlier ∈ before, policy.scalarsEqual earlier.2 candidate.2 = false) :
    unclaimed policy (before ++ reference :: after) (candidate :: candidates) =
      unclaimed policy (before ++ after) candidates := by
  induction before generalizing candidates with
  | nil => simp only [List.nil_append, unclaimed, claim?, equal, if_true]
  | cons earlier before ih =>
    obtain ⟨position, value⟩ := earlier
    have unequalHere : policy.scalarsEqual value candidate.2 = false :=
      unequal _ List.mem_cons_self
    have unequalLater : ∀ other ∈ before, policy.scalarsEqual other.2 candidate.2 = false :=
      fun other member => unequal other (List.mem_cons_of_mem _ member)
    simp only [List.cons_append, unclaimed, claim?, unequalHere, Bool.false_eq_true, if_false]
    cases claim? policy value candidates with
    | none => simp only [Option.map_none, ih unequalLater]
    | some rest => simp only [Option.map_some, ih unequalLater]

/-- The same items stay unclaimed whichever side claims. By induction on the side that
claims: where its first item claims another, the other would have claimed it, since nothing
before the one and nothing before the other comes into question. -/
theorem unclaimed_swap {references candidates : Positioned}
    (commutes : ∀ reference ∈ references, ∀ candidate ∈ candidates,
      policy.scalarsEqual reference.2 candidate.2 = policy.scalarsEqual candidate.2 reference.2) :
    unclaimed policy candidates references = (unclaimed policy references candidates).swap := by
  induction references generalizing candidates with
  | nil =>
    induction candidates with
    | nil => rfl
    | cons candidate candidates ih =>
      have rest := ih (by simp)
      simp only [unclaimed, claim?, Prod.swap] at rest ⊢
      rw [rest]
  | cons reference references ih =>
    obtain ⟨position, value⟩ := reference
    have here := commutes _ List.mem_cons_self
    have later : ∀ {others : Positioned}, others.Sublist candidates →
        unclaimed policy others references = (unclaimed policy references others).swap :=
      fun among => ih fun other member candidate known =>
        commutes other (List.mem_cons_of_mem _ member) candidate (among.mem known)
    cases claimed : claim? policy value candidates with
    | none =>
      have unequal : ∀ candidate ∈ candidates,
          policy.scalarsEqual candidate.2 value = false := fun candidate member =>
        (here candidate member).symm.trans (claim?_eq_none_iff.1 claimed candidate member)
      rw [unclaimed_cons_of_unequal unequal, later (List.Sublist.refl _)]
      simp only [unclaimed, claimed, Prod.swap]
    | some rest =>
      have among := claim?_sublist claimed
      obtain ⟨before, candidate, after, rfl, rfl, equal, unequal⟩ :=
        exists_of_claim?_eq_some claimed
      have equalToo : policy.scalarsEqual candidate.2 value = true :=
        (here candidate (by simp)).symm.trans equal
      have unequalToo : ∀ earlier ∈ before, policy.scalarsEqual earlier.2 value = false :=
        fun earlier member =>
          (here earlier (List.mem_append_left _ member)).symm.trans (unequal earlier member)
      rw [unclaimed_append_cons_of_equal equalToo unequalToo, later among]
      simp only [unclaimed, claimed]

/-- The pairings by value change sides when the arrays do. -/
theorem byValue_swap {references candidates : List Value} {pairings : List Pairing}
    (paired : byValue policy path references candidates = .ok pairings) :
    ∃ mirrored, byValue policy path candidates references = .ok mirrored ∧
      mirrored.Perm (pairings.map swap) := by
  unfold byValue at paired ⊢
  split at paired
  · rename_i scalars
    cases paired
    rw [Bool.and_comm] at scalars
    simp only [scalars, if_true]
    rw [Bool.and_eq_true, List.all_eq_true, List.all_eq_true] at scalars
    have commutes : ∀ reference ∈ positioned references, ∀ candidate ∈ positioned candidates,
        policy.scalarsEqual reference.2 candidate.2 =
          policy.scalarsEqual candidate.2 reference.2 := fun reference member candidate memberToo =>
      policy.scalarsEqual_comm (scalars.2 _ (mem_of_mem_positioned member))
        (scalars.1 _ (mem_of_mem_positioned memberToo))
    refine ⟨_, rfl, ?_⟩
    rw [unclaimed_swap commutes, List.map_append, List.map_map, List.map_map]
    exact List.perm_append_comm
  · cases paired

end ByValue

section ByKey

variable {references candidates : List Keyed}

/-- What two sides have under an identity changes sides when they do. -/
theorem ofKeyed_swap (key : String) (references candidates : List Keyed) (keyed : Keyed) :
    ofKeyed key candidates references keyed = (ofKeyed key references candidates keyed).map swap := by
  unfold ofKeyed
  cases findKeyed keyed.identity references <;> cases findKeyed keyed.identity candidates <;> rfl

/-- The union of two indexes has the identities of both. -/
theorem mem_identity_union_iff {identity : String} :
    identity ∈ (union references candidates).map Keyed.identity ↔
      identity ∈ references.map Keyed.identity ∨ identity ∈ candidates.map Keyed.identity := by
  rw [((union_perm references candidates).map _).mem_iff, List.map_append, List.mem_append]
  refine or_congr_right' fun absent => ?_
  simp only [List.mem_map, List.mem_filter, Option.isNone_iff_eq_none, findKeyed_eq_none_iff]
  constructor
  · rintro ⟨keyed, ⟨member, -⟩, same⟩
    exact ⟨keyed, member, same⟩
  · rintro ⟨keyed, member, rfl⟩
    exact ⟨keyed, ⟨member, by simpa using absent⟩, rfl⟩

/-- What is read off the identities of indexed items is the same for other items with the
same identities. -/
theorem filterMap_perm_of_identity {items others : List Keyed} {shown : Keyed → Option Pairing}
    (distinct : (items.map Keyed.identity).Nodup) (distinctToo : (others.map Keyed.identity).Nodup)
    (identities : ∀ identity,
      identity ∈ items.map Keyed.identity ↔ identity ∈ others.map Keyed.identity)
    (alike : ∀ first ∈ items, ∀ second ∈ others,
      first.identity = second.identity → shown first = shown second) :
    (items.filterMap shown).Perm (others.filterMap shown) := by
  -- Both lists are read off their identities by what the second shows under each of them.
  let under (identity : String) : Option Pairing := (findKeyed identity others).bind shown
  have ofOthers : ∀ second ∈ others, shown second = under second.identity := by
    intro second member
    have found := (findKeyed_eq_some_iff distinctToo).2 ⟨member, rfl⟩
    simp only [under, found, Option.bind_some]
  have ofItems : ∀ first ∈ items, shown first = under first.identity := by
    intro first member
    obtain ⟨second, memberToo, same⟩ := List.mem_map.1 ((identities _).1 (List.mem_map_of_mem member))
    rw [alike first member second memberToo same.symm, ofOthers second memberToo, same]
  have reordered : (items.map Keyed.identity).Perm (others.map Keyed.identity) :=
    (List.perm_ext_iff_of_nodup distinct distinctToo).2 identities
  have throughIdentities := reordered.filterMap under
  rw [List.filterMap_map, List.filterMap_map] at throughIdentities
  rwa [List.filterMap_congr ofItems, List.filterMap_congr ofOthers]

/-- The key values of finite items are finite. -/
theorem finite_of_mem_keyedItems {items : List Value}
    (finite : ∀ item ∈ items, item.EveryNumber Number.IsFinite) {keyed : Keyed}
    (member : keyed ∈ keyedItems policy key items) :
    keyed.keyValue.EveryNumber Number.IsFinite := by
  obtain ⟨item, known, found⟩ := List.mem_filterMap.1 member
  obtain ⟨entries, rfl, looked, -, -⟩ := keyed?_eq_some_iff.1 found
  exact (finite _ known).of_lookUp looked

/-- The pairings by a key change sides when the arrays do. The step of a pairing is written
with the key value of one side, and the key values of both have one text. -/
theorem byKey_swap {references candidates : List Value} {pairings : List Pairing}
    (finite : ∀ item ∈ references, item.EveryNumber Number.IsFinite)
    (finiteToo : ∀ item ∈ candidates, item.EveryNumber Number.IsFinite)
    (paired : byKey policy path key references candidates = .ok pairings) :
    ∃ mirrored, byKey policy path key candidates references = .ok mirrored ∧
      mirrored.Perm (pairings.map swap) := by
  obtain ⟨indexable, indexableToo, rfl⟩ := byKey_eq_ok_iff.1 paired
  refine ⟨_, byKey_eq_ok_iff.2 ⟨indexableToo, indexable, rfl⟩, ?_⟩
  have known : ∀ keyed, (keyed ∈ keyedItems policy key references ∨
      keyed ∈ keyedItems policy key candidates) →
      keyed.identity = policy.identity keyed.keyValue ∧
        keyed.keyValue.EveryNumber Number.IsFinite := by
    rintro keyed (member | member)
    · exact ⟨identity_of_mem_keyedItems member, finite_of_mem_keyedItems finite member⟩
    · exact ⟨identity_of_mem_keyedItems member, finite_of_mem_keyedItems finiteToo member⟩
  have sides : ofKeyed key (keyedItems policy key candidates) (keyedItems policy key references) =
      fun keyed => (ofKeyed key (keyedItems policy key references)
        (keyedItems policy key candidates) keyed).map swap :=
    funext (ofKeyed_swap key _ _)
  rw [List.map_filterMap, sides]
  refine filterMap_perm_of_identity
    (nodup_identity_union indexableToo.distinct indexable.distinct)
    (nodup_identity_union indexable.distinct indexableToo.distinct)
    (fun identity => by rw [mem_identity_union_iff, mem_identity_union_iff, or_comm]) ?_
  intro first member second memberToo same
  obtain ⟨firstIdentity, firstFinite⟩ := known first (mem_or_mem_of_mem_union member).symm
  obtain ⟨secondIdentity, secondFinite⟩ := known second (mem_or_mem_of_mem_union memberToo)
  have text : first.keyValue.segmentText = second.keyValue.segmentText := by
    refine policy.segmentText_eq_of_identity_eq firstFinite secondFinite ?_
    rw [← firstIdentity, ← secondIdentity, same]
  simp only [ofKeyed, keyStep, same, text]

end ByKey

/-- The pairings of items change sides when the arrays do. -/
theorem ofItems_swap {references candidates : List Value} {pairings : List Pairing}
    (finite : ∀ item ∈ references, item.EveryNumber Number.IsFinite)
    (finiteToo : ∀ item ∈ candidates, item.EveryNumber Number.IsFinite)
    (paired : ofItems policy path references candidates = .ok pairings) :
    ∃ mirrored, ofItems policy path candidates references = .ok mirrored ∧
      mirrored.Perm (pairings.map swap) := by
  unfold ofItems at paired ⊢
  cases keyed : policy.keyFor path with
  | error cause => simp [keyed] at paired
  | ok found =>
    simp only [keyed] at paired ⊢
    cases found with
    | some key => exact byKey_swap finite finiteToo paired
    | none =>
      by_cases byValues : policy.matchesByValue path = true
      · simp only [byValues, if_true] at paired ⊢
        exact byValue_swap paired
      · simp only [byValues] at paired ⊢
        cases paired
        exact ⟨_, rfl, byPosition_perm_swap references candidates⟩

end Pairing

end StructuralDiff
