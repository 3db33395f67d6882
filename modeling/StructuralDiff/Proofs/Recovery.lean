import Mathlib
import StructuralDiff.Proofs.Disagreement
import StructuralDiff.Proofs.SwappedPairing

/-!
# The candidate can be told from the differences

On default terms, two candidates that differ from one reference by the same differences are
equal. A difference shows what the candidate has at its position, and where the reference
is reached and nothing differs, the candidate has containers alike or an equal scalar. So
the candidates agree position by position. That a difference tells its position rests on
plain keys: the reference decides whether a name is a key or the number of an item.
-/

namespace StructuralDiff

/-- What is in the first of two related lists is related to something in the second. -/
theorem exists_of_mem_forall₂ {α β : Type} {related : α → β → Prop} {first : List α}
    {second : List β} (lists : List.Forall₂ related first second) {item : α}
    (member : item ∈ first) : ∃ other ∈ second, related item other := by
  induction lists with
  | nil => cases member
  | cons here _ ih =>
    rcases List.mem_cons.1 member with rfl | later
    · exact ⟨_, List.mem_cons_self, here⟩
    · obtain ⟨other, known, alike⟩ := ih later
      exact ⟨other, List.mem_cons_of_mem _ known, alike⟩

/-! ## What containers have at their steps -/

namespace Pairing

variable {reference candidate : Value} {step : Position.Step}

/-- At each of the steps, a pairing holds what the containers have. -/
theorem Enumerated.exists_opens {steps : List Position.Step} {pairings : List Pairing}
    (enumerated : Enumerated reference candidate steps pairings) (known : step ∈ steps) :
    ∃ pairing ∈ pairings, Opens reference candidate step pairing := by
  exact exists_of_mem_forall₂ enumerated.opens known

/-- Where both containers have a value, the pairing holds both. -/
theorem Opens.eq_both {pairing : Pairing} (opened : Opens reference candidate step pairing)
    {left right : Value} (leftThere : reference.child? step = some left)
    (rightThere : candidate.child? step = some right) : pairing = .both step.name left right := by
  have shown := opened.between_eq
  simp only [between, leftThere, rightThere, Option.some.injEq] at shown
  exact shown.symm

end Pairing

/-! ## Equality of scalars is transitive -/

namespace Binary64

theorem equal_trans {first second third : Binary64} (left : first.equal second = true)
    (right : second.equal third = true) : first.equal third = true := by
  have zeroAlike : ∀ {x y : Binary64}, x.bits = y.bits → x.isZero = y.isZero := by
    rintro ⟨bits⟩ ⟨_⟩ rfl
    rfl
  simp only [equal, Bool.and_eq_true, Bool.or_eq_true, beq_iff_eq, Bool.not_eq_true']
    at left right ⊢
  refine ⟨⟨left.1.1, right.1.2⟩, ?_⟩
  rcases left.2 with same | ⟨zero, zeroSecond⟩
  · rcases right.2 with sameToo | ⟨zeroToo, zeroThird⟩
    · exact .inl (same.trans sameToo)
    · exact .inr ⟨(zeroAlike same).trans zeroToo, zeroThird⟩
  · rcases right.2 with sameToo | ⟨-, zeroThird⟩
    · exact .inr ⟨zero, (zeroAlike sameToo).symm.trans zeroSecond⟩
    · exact .inr ⟨zero, zeroThird⟩

end Binary64

namespace Number

theorem equal_trans {first second third : Number} (left : first.equal second = true)
    (right : second.equal third = true) : first.equal third = true := by
  obtain ⟨same, ifNone⟩ := equal_iff.1 left
  obtain ⟨sameToo, ifNoneToo⟩ := equal_iff.1 right
  refine equal_iff.2 ⟨same.trans sameToo, fun none => ?_⟩
  exact Binary64.equal_trans (ifNone none) (ifNoneToo (same.symm.trans none))

end Number

namespace Value

/-- Scalars that equal the same scalar equal each other. -/
theorem equal_trans_of_isScalar {first second third : Value} (scalar : first.isScalar)
    (left : first.equal second = true) (right : second.equal third = true) :
    first.equal third = true := by
  cases first with
  | array items => cases scalar
  | object entries => cases scalar
  | number number =>
    cases second with
    | number other =>
      cases third with
      | number another => exact Number.equal_trans left right
      | _ => cases right
    | _ => cases left
  | _ =>
    -- Any other scalar equals only itself.
    cases second <;> cases third <;> simp_all [equal]

/-- Containers alike are equal when they have equal values at every step. -/
theorem equal_of_children {left right : Value} (wellFormed : left.WellFormed)
    (wellFormedToo : right.WellFormed) (alike : left.SameContainer right)
    (children : ∀ step, Option.Rel (fun first second => first.equal second = true)
      (left.child? step) (right.child? step)) : left.equal right = true := by
  have agree : ∀ {steps pairings}, Pairing.Enumerated left right steps pairings →
      ∀ pairing ∈ pairings, pairing.Agrees := by
    intro steps pairings enumerated pairing member
    rw [enumerated.eq_filterMap] at member
    obtain ⟨step, -, shown⟩ := List.mem_filterMap.1 member
    have child := children step
    unfold Pairing.between at shown
    cases first : left.child? step <;> cases second : right.child? step <;>
      rw [first, second] at child <;> simp only [first, second] at shown <;> cases child
    · cases shown
    · rename_i equal
      cases shown
      exact equal
  cases left, right using casesPair with
  | objects references candidates =>
    exact (Pairing.equal_object_iff_agrees wellFormed.1 wellFormedToo.1).2
      (agree (Pairing.enumerated_ofEntries wellFormed.1 wellFormedToo.1))
  | arrays references candidates =>
    rw [equal, Pairing.equalItems_iff_agrees 0]
    exact agree (Pairing.enumerated_byPosition references candidates)
  | scalars left right scalar scalarToo =>
    exact absurd (by simpa [isScalar] using scalar) alike.2
  | shapes left right different => exact absurd alike.1 different

end Value

/-! ## The position of a difference -/

/-- What has a value under a key is an object. -/
theorem Value.shape_of_child?_entry {value : Value} {key : Key}
    (there : (value.child? (.entry key)).isSome) : value.shape = .object := by
  cases value with
  | object entries => rfl
  | _ => cases there

/-- What has an item is an array. -/
theorem Value.shape_of_child?_item {value : Value} {number : Nat}
    (there : (value.child? (.item number)).isSome) : value.shape = .array := by
  cases value with
  | array items => rfl
  | _ => cases there

/-- A plain key is told by its name. -/
theorem Value.EveryKey.eq_text_name {value : Value} (plain : value.EveryKey Key.IsPlain) {key : Key}
    (there : (value.child? (.entry key)).isSome) : key = .text key.name := by
  cases value with
  | object entries =>
    obtain ⟨child, found⟩ := Option.isSome_iff_exists.1 there
    obtain ⟨name, rfl, -⟩ := plain.of_mem (Entries.mem_of_find? found)
    rfl
  | _ => cases there

namespace Position

/-- Of values of one shape, the name of a step inside tells the step. -/
theorem Step.eq_of_name_eq {left right : Value} (alike : left.shape = right.shape)
    (plain : left.EveryKey Key.IsPlain) (plainToo : right.EveryKey Key.IsPlain)
    {step other : Step} (there : (left.child? step).isSome) (thereToo : (right.child? other).isSome)
    (same : step.name = other.name) : step = other := by
  cases step with
  | entry key =>
    cases other with
    | entry otherKey =>
      rw [Step.name_entry, Step.name_entry] at same
      rw [plain.eq_text_name there, plainToo.eq_text_name thereToo, same]
    | item number =>
      rw [Value.shape_of_child?_entry there, Value.shape_of_child?_item thereToo] at alike
      cases alike
  | item number =>
    cases other with
    | entry key =>
      rw [Value.shape_of_child?_item there, Value.shape_of_child?_entry thereToo] at alike
      cases alike
    | item otherNumber =>
      rw [Step.name_item, Step.name_item] at same
      rw [Decimal.naturalText_inj same]

end Position

/-- Positions of one written form have the same names on the way, where they lead to paths. -/
theorem Position.LeadsTo.map_name_eq {position other : Position} {path pathToo : Path}
    (leads : position.LeadsTo path) (leadsToo : other.LeadsTo pathToo)
    (same : position.text = other.text) : position.map Step.name = other.map Step.name := by
  rw [leads.text_eq, leadsToo.text_eq] at same
  rw [← leads.names, ← leadsToo.names, leads.legible.eq_of_text_eq leadsToo.legible same]

/-- One of two documents has a value at a position. -/
def Occupied (reference candidate : Value) (position : Position) : Prop :=
  (reference.at? position).isSome ∨ (candidate.at? position).isSome

/-- The first step to an occupied position is occupied. -/
theorem Occupied.first {reference candidate : Value} {step : Position.Step} {rest : Position}
    (occupied : Occupied reference candidate (step :: rest)) :
    (reference.child? step).isSome ∨ (candidate.child? step).isSome := by
  have onward : ∀ {value : Value}, (value.at? (step :: rest)).isSome →
      (value.child? step).isSome := by
    intro value there
    rw [Value.at?_cons] at there
    exact Option.isSome_of_isSome_bind there
  exact occupied.imp onward onward

/-- Inside values at a step, what is occupied below the step is occupied. -/
theorem Occupied.inside {reference candidate left right : Value} {step : Position.Step}
    {rest : Position} (occupied : Occupied reference candidate (step :: rest))
    (leftThere : reference.child? step = some left)
    (rightThere : candidate.child? step = some right) : Occupied left right rest := by
  simpa only [Occupied, Value.at?_cons, leftThere, rightThere, Option.bind_some] using occupied

/-- Below one reference, the names on the way to an occupied position tell the position,
whatever the candidate. By induction along the position: the reference decides whether the
names at one level are keys or numbers of items. -/
theorem Position.eq_of_map_name_eq {reference first second : Value}
    (plain : reference.EveryKey Key.IsPlain) (plainFirst : first.EveryKey Key.IsPlain)
    (plainSecond : second.EveryKey Key.IsPlain) {position other : Position}
    (reached : Reached reference first position) (reachedToo : Reached reference second other)
    (occupied : Occupied reference first position) (occupiedToo : Occupied reference second other)
    (same : position.map Step.name = other.map Step.name) : position = other := by
  induction position generalizing reference first second other with
  | nil =>
    rw [List.map_nil, eq_comm, List.map_eq_nil_iff] at same
    exact same.symm
  | cons step rest ih =>
    cases other with
    | nil => cases same
    | cons otherStep otherRest =>
      obtain ⟨sameStep, sameRest⟩ := List.cons.inj same
      obtain ⟨alike, inside⟩ := reached_cons_iff.1 reached
      obtain ⟨alikeToo, insideToo⟩ := reached_cons_iff.1 reachedToo
      have steps : step = otherStep := by
        rcases occupied.first with there | there <;>
          rcases occupiedToo.first with thereToo | thereToo
        · exact Step.eq_of_name_eq rfl plain plain there thereToo sameStep
        · exact Step.eq_of_name_eq alikeToo.1 plain plainSecond there thereToo sameStep
        · exact Step.eq_of_name_eq alike.1.symm plainFirst plain there thereToo sameStep
        · exact Step.eq_of_name_eq (alike.1.symm.trans alikeToo.1) plainFirst plainSecond there
            thereToo sameStep
      subst steps
      rcases inside with rfl | ⟨left, right, leftThere, rightThere, inner⟩
      · rw [List.map_nil, eq_comm, List.map_eq_nil_iff] at sameRest
        rw [sameRest]
      · rcases insideToo with rfl | ⟨leftToo, rightToo, leftThereToo, rightThereToo, innerToo⟩
        · rw [List.map_nil, List.map_eq_nil_iff] at sameRest
          rw [sameRest]
        · cases leftThere.symm.trans leftThereToo
          rw [ih (plain.of_mem_parts (Value.mem_parts_of_child? leftThere))
            (plainFirst.of_mem_parts (Value.mem_parts_of_child? rightThere))
            (plainSecond.of_mem_parts (Value.mem_parts_of_child? rightThereToo)) inner innerToo
            (occupied.inside leftThere rightThere) (occupiedToo.inside leftThereToo rightThereToo)
            sameRest]

namespace Comparison

variable {policy : Policy} {base : Position} {path : Path} {reference candidate : Value}

/-- A complete walk of two documents with plain keys leads by paths to all positions that
are reached and occupied. -/
theorem exists_leadsTo (unfiltered : policy.Unfiltered) (positional : policy.Positional)
    (leads : base.LeadsTo path) (wellFormed : reference.WellFormed)
    (wellFormedToo : candidate.WellFormed) (plain : reference.EveryKey Key.IsPlain)
    (plainToo : candidate.EveryKey Key.IsPlain)
    (complete : (walk policy path reference candidate).failure = none) {position : Position}
    (reached : Reached reference candidate position)
    (occupied : Occupied reference candidate position) :
    ∃ place, Position.LeadsTo (base ++ position) place := by
  induction position generalizing base path reference candidate with
  | nil => exact ⟨path, by simpa using leads⟩
  | cons step rest ih =>
    obtain ⟨alike, inside⟩ := reached_cons_iff.1 reached
    obtain ⟨pairings, planned, enumerated⟩ :=
      positional.exists_plan path wellFormed.distinctKeys wellFormedToo.distinctKeys alike
    obtain ⟨visited, -⟩ := complete_of_descend (unfiltered.excludes_eq_false path) planned complete
    have stepPlain : step.IsPlain := occupied.first.elim
      (Position.Step.isPlain_of_child? plain) (Position.Step.isPlain_of_child? plainToo)
    obtain ⟨pairing, member, opened⟩ := enumerated.exists_opens
      ((enumerated.mem_iff step).2 occupied.first)
    obtain ⟨child, joined⟩ := exists_child_of_complete (visited pairing member)
    have onward := leads.join stepPlain (opened.step_eq ▸ joined)
    rcases inside with rfl | ⟨left, right, leftThere, rightThere, inner⟩
    · exact ⟨child, onward⟩
    · have both : pairing = .both step.name left right := opened.eq_both leftThere rightThere
      subst both
      have completeInside := visited _ member
      rw [visit_both joined] at completeInside
      obtain ⟨place, found⟩ := ih onward
        (wellFormed.of_mem_parts (Value.mem_parts_of_child? leftThere))
        (wellFormedToo.of_mem_parts (Value.mem_parts_of_child? rightThere))
        (plain.of_mem_parts (Value.mem_parts_of_child? leftThere))
        (plainToo.of_mem_parts (Value.mem_parts_of_child? rightThere)) completeInside inner
        (occupied.inside leftThere rightThere)
      exact ⟨place, by simpa using found⟩

end Comparison

/-! ## Equal differences come from equal candidates -/

/-- Two values are equal, or there is neither. -/
abbrev EqualIfAny : Option Value → Option Value → Prop :=
  Option.Rel fun left right => left.equal right = true

/-- Two differences are equal: of one kind, at one path, with equal values on both sides. -/
structure Difference.Equals (first second : Difference) : Prop where
  kind : first.kind = second.kind
  path : first.path = second.path
  reference : EqualIfAny first.reference second.reference
  candidate : EqualIfAny first.candidate second.candidate

namespace Policy

variable {policy : Policy} {position : Position} {left right : Option Value}
  {difference : Difference}

/-- A difference shows what the candidate has. -/
theorem candidate_of_disagreement
    (differs : policy.disagreement position left right = some difference) :
    difference.candidate = right := by
  unfold disagreement at differs
  grind

/-- A difference is at the path of its position. -/
theorem path_of_disagreement
    (differs : policy.disagreement position left right = some difference) :
    difference.path = position.text := by
  unfold disagreement at differs
  grind

/-- A difference is where one of the sides has a value. -/
theorem isSome_of_disagreement
    (differs : policy.disagreement position left right = some difference) :
    left.isSome ∨ right.isSome := by
  unfold disagreement at differs
  grind

/-- On default terms, values that do not differ themselves are of one shape, and scalars
among them are equal. -/
theorem alike_of_disagreement_default {first second : Value}
    (alike : Policy.default.disagreement position (some first) (some second) = none) :
    first.shape = second.shape ∧ (first.isScalar → first.equal second = true) := by
  have untouched : ∀ value, Policy.default.comparedAt position value = value := by
    intro value
    have noNormalizer : Policy.default.normalizerAt position = none := by
      unfold normalizerAt
      cases (Path.read position.text).toOption <;> rfl
    rw [comparedAt, noNormalizer]
    rfl
  simp only [disagreement, untouched] at alike
  grind

/-- Sides that do not differ are both there or both not. -/
theorem isSome_eq_of_disagreement_eq_none
    (alike : policy.disagreement position left right = none) : left.isSome = right.isSome := by
  cases left <;> cases right <;> simp_all [disagreement]

end Policy

/-- The difference on default terms between what two values have at a position, when the
values themselves stand at a base. -/
def differenceBelow (base : Position) (reference candidate : Value) (position : Position) :
    Option Difference :=
  Policy.default.disagreement (base ++ position) (reference.at? position) (candidate.at? position)

/-- Inside values at a step, the difference is that of the values. -/
theorem differenceBelow_cons {base : Position} {reference candidate left right : Value}
    {step : Position.Step} (leftThere : reference.child? step = some left)
    (rightThere : candidate.child? step = some right) (rest : Position) :
    differenceBelow base reference candidate (step :: rest) =
      differenceBelow (base ++ [step]) left right rest := by
  simp [differenceBelow, Value.at?_cons, leftThere, rightThere]

/-- Wherever the first candidate differs from the reference, the second one does so by a
related difference. -/
def Recurs (related : Difference → Difference → Prop) (base : Position)
    (reference first second : Value) : Prop :=
  ∀ position difference, Reached reference first position →
    differenceBelow base reference first position = some difference →
    Reached reference second position ∧ ∃ other,
      differenceBelow base reference second position = some other ∧ related difference other

namespace Recurs

variable {related : Difference → Difference → Prop} {base : Position}
  {reference first second : Value} {position : Position} {step : Position.Step}

/-- What recurs in two documents recurs in what they have at a step. -/
theorem inside {part left right : Value} (recurs : Recurs related base reference first second)
    (alike : reference.SameContainer first) (there : reference.child? step = some part)
    (thereFirst : first.child? step = some left) (thereSecond : second.child? step = some right) :
    Recurs related (base ++ [step]) part left right := by
  intro position difference reached differs
  have below := (reached_inside_iff alike there thereFirst).2 reached
  obtain ⟨reachedToo, other, differsToo, same⟩ := recurs (step :: position) difference below
    ((differenceBelow_cons there thereFirst position).trans differs)
  rw [differenceBelow_cons there thereSecond] at differsToo
  have alikeToo := (reached_cons_iff.1 reachedToo).1
  exact ⟨(reached_inside_iff alikeToo there thereSecond).1 reachedToo, other, differsToo, same⟩

/-- Where the first candidate differs, both candidates show the same. -/
theorem equalIfAny (recurs : Recurs Difference.Equals base reference first second)
    (reached : Reached reference first position) {difference : Difference}
    (differs : differenceBelow base reference first position = some difference) :
    EqualIfAny (first.at? position) (second.at? position) := by
  obtain ⟨-, other, differsToo, same⟩ := recurs position difference reached differs
  rw [← Policy.candidate_of_disagreement differs, ← Policy.candidate_of_disagreement differsToo]
  exact same.candidate

/-- Where the second candidate does not differ, the first one does not either. -/
theorem eq_none (recurs : Recurs related base reference first second)
    (reached : Reached reference first position)
    (alike : differenceBelow base reference second position = none) :
    differenceBelow base reference first position = none := by
  by_contra differs
  obtain ⟨difference, differs⟩ := Option.ne_none_iff_exists'.1 differs
  obtain ⟨-, other, differsToo, -⟩ := recurs position difference reached differs
  cases alike.symm.trans differsToo

/-- Two candidates that are containers like the reference have equal values at a step, when
this is so inside what all three have there. -/
theorem equalIfAny_child? (recurs : Recurs Difference.Equals base reference first second)
    (recursBack : Recurs (flip Difference.Equals) base reference second first)
    (alike : reference.SameContainer first) (alikeToo : reference.SameContainer second)
    (step : Position.Step)
    (inside : ∀ {part left right}, reference.child? step = some part →
      first.child? step = some left → second.child? step = some right →
      left.equal right = true) :
    EqualIfAny (first.child? step) (second.child? step) := by
  have reached : Reached reference first [step] := reached_cons_iff.2 ⟨alike, .inl rfl⟩
  have reachedToo : Reached reference second [step] := reached_cons_iff.2 ⟨alikeToo, .inl rfl⟩
  rw [← Value.at?_singleton, ← Value.at?_singleton]
  cases differs : differenceBelow base reference first [step] with
  | some difference => exact recurs.equalIfAny reached differs
  | none =>
    have present := Policy.isSome_eq_of_disagreement_eq_none differs
    have presentToo :=
      Policy.isSome_eq_of_disagreement_eq_none (recursBack.eq_none reachedToo differs)
    simp only [Value.at?_singleton] at present presentToo ⊢
    cases there : reference.child? step <;> cases thereFirst : first.child? step <;>
      cases thereSecond : second.child? step <;>
      simp [there, thereFirst, thereSecond] at present presentToo
    · exact .none
    · exact .some (inside there thereFirst thereSecond)

end Recurs

/-- Candidates that differ from one reference at the same positions and show the same there
are equal. By induction on the reference: where the candidates show nothing, they are
containers alike or scalars that equal the reference. -/
theorem equal_of_recurs {base : Position} {reference first second : Value}
    (wellFormed : first.WellFormed) (wellFormedToo : second.WellFormed)
    (recurs : Recurs Difference.Equals base reference first second)
    (recursBack : Recurs (flip Difference.Equals) base reference second first) :
    first.equal second = true := by
  induction reference using Value.parts_induction generalizing base first second with
  | whole reference ih =>
    cases differs : differenceBelow base reference first [] with
    | some difference =>
      obtain ⟨equal⟩ : EqualIfAny (some first) (some second) :=
        recurs.equalIfAny (reached_nil reference first) differs
      exact equal
    | none =>
      obtain ⟨shape, scalar⟩ := Policy.alike_of_disagreement_default differs
      obtain ⟨shapeToo, scalarToo⟩ := Policy.alike_of_disagreement_default
        (recursBack.eq_none (reached_nil reference second) differs)
      cases isScalar : reference.isScalar with
      | true =>
        have isScalarFirst : first.isScalar := by rwa [Value.isScalar, ← shape]
        have back : first.equal reference = true := by
          rw [Value.equal_comm_of_isScalar isScalarFirst isScalar, scalar isScalar]
        exact Value.equal_trans_of_isScalar isScalarFirst back (scalarToo isScalar)
      | false =>
        have container : reference.shape ≠ .scalar := by simpa [Value.isScalar] using isScalar
        have alike : reference.SameContainer first := ⟨shape, container⟩
        have alikeToo : reference.SameContainer second := ⟨shapeToo, container⟩
        refine Value.equal_of_children wellFormed wellFormedToo
          ⟨shape.symm.trans shapeToo, shape ▸ container⟩ fun step => ?_
        refine recurs.equalIfAny_child? recursBack alike alikeToo step ?_
        intro part left right there thereFirst thereSecond
        exact ih part (Value.mem_parts_of_child? there)
          (wellFormed.of_mem_parts (Value.mem_parts_of_child? thereFirst))
          (wellFormedToo.of_mem_parts (Value.mem_parts_of_child? thereSecond))
          (recurs.inside alike there thereFirst thereSecond)
          (recursBack.inside alikeToo there thereSecond thereFirst)

namespace Comparison

/-- The findings on default terms are the differences at the positions that are reached. -/
theorem mem_items_diff_iff {reference candidate : Value} (wellFormed : reference.WellFormed)
    (wellFormedToo : candidate.WellFormed) (plain : reference.EveryKey Key.IsPlain)
    (plainToo : candidate.EveryKey Key.IsPlain) {findings : Findings}
    (done : diff reference candidate = .ok findings) {difference : Difference} :
    difference ∈ findings.items ↔ ∃ position, Reached reference candidate position ∧
      differenceBelow [] reference candidate position = some difference := by
  obtain ⟨complete, items⟩ := complete_of_perform (show Policy.default.cutoff = none from rfl) done
  obtain ⟨positions, covers⟩ := walk_covers ⟨rfl, rfl, rfl⟩ ⟨rfl, rfl, rfl⟩ Position.LeadsTo.root
    wellFormed wellFormedToo plain plainToo complete
  have shown : difference ∈ findings.items ↔
      some difference ∈ positions.map (differenceBelow [] reference candidate) := by
    rw [items, ← List.mem_map_of_injective (Option.some_injective _), covers.shown]
    rfl
  rw [shown, List.mem_map]
  refine exists_congr fun position => and_congr_left fun differs => ?_
  have there : (Policy.default.disagreement ([] ++ position) (reference.at? position)
      (candidate.at? position)).isSome := Option.isSome_iff_exists.2 ⟨difference, differs⟩
  rw [covers.mem_iff]
  exact ⟨fun facts => facts.2.1, fun reached => ⟨trivial, reached, there⟩⟩

/-- A position with a difference on default terms leads to a path. -/
theorem exists_leadsTo_of_diff {reference candidate : Value} (wellFormed : reference.WellFormed)
    (wellFormedToo : candidate.WellFormed) (plain : reference.EveryKey Key.IsPlain)
    (plainToo : candidate.EveryKey Key.IsPlain) {findings : Findings}
    (done : diff reference candidate = .ok findings) {position : Position}
    (reached : Reached reference candidate position)
    (occupied : Occupied reference candidate position) : ∃ place, position.LeadsTo place := by
  obtain ⟨complete, -⟩ := complete_of_perform (show Policy.default.cutoff = none from rfl) done
  exact exists_leadsTo ⟨rfl, rfl, rfl⟩ ⟨rfl, rfl, rfl⟩ Position.LeadsTo.root wellFormed
    wellFormedToo plain plainToo complete reached occupied

/-- What is found for one candidate and, related, for another one recurs at the same
positions. -/
theorem recurs_of_forall₂ {related : Difference → Difference → Prop}
    (samePath : ∀ {difference other}, related difference other → difference.path = other.path)
    {reference first second : Value} (wellFormed : reference.WellFormed)
    (wellFormedFirst : first.WellFormed) (wellFormedSecond : second.WellFormed)
    (plain : reference.EveryKey Key.IsPlain) (plainFirst : first.EveryKey Key.IsPlain)
    (plainSecond : second.EveryKey Key.IsPlain) {found foundToo : Findings}
    (done : diff reference first = .ok found) (doneToo : diff reference second = .ok foundToo)
    (same : List.Forall₂ related found.items foundToo.items) :
    Recurs related [] reference first second := by
  intro position difference reached differs
  have listed := (mem_items_diff_iff wellFormed wellFormedFirst plain plainFirst done).2
    ⟨position, reached, differs⟩
  obtain ⟨other, listedToo, alike⟩ := exists_of_mem_forall₂ same listed
  obtain ⟨place, reachedToo, differsToo⟩ :=
    (mem_items_diff_iff wellFormed wellFormedSecond plain plainSecond doneToo).1 listedToo
  have occupied : Occupied reference first position := Policy.isSome_of_disagreement differs
  have occupiedToo : Occupied reference second place := Policy.isSome_of_disagreement differsToo
  obtain ⟨path, leads⟩ :=
    exists_leadsTo_of_diff wellFormed wellFormedFirst plain plainFirst done reached occupied
  obtain ⟨pathToo, leadsToo⟩ :=
    exists_leadsTo_of_diff wellFormed wellFormedSecond plain plainSecond doneToo reachedToo
      occupiedToo
  have texts : position.text = place.text :=
    calc
      position.text = difference.path := (Policy.path_of_disagreement differs).symm
      _ = other.path := samePath alike
      _ = place.text := Policy.path_of_disagreement differsToo
  have positions := Position.eq_of_map_name_eq plain plainFirst plainSecond reached reachedToo
    occupied occupiedToo (leads.map_name_eq leadsToo texts)
  subst positions
  exact ⟨reachedToo, other, differsToo, alike⟩

/-- The list of differences loses nothing of the candidate: on default terms, candidates
with plain keys that differ from one reference by equal differences in the same order are
equal. -/
theorem equal_of_diff_equals {reference first second : Value} (wellFormed : reference.WellFormed)
    (wellFormedFirst : first.WellFormed) (wellFormedSecond : second.WellFormed)
    (plain : reference.EveryKey Key.IsPlain) (plainFirst : first.EveryKey Key.IsPlain)
    (plainSecond : second.EveryKey Key.IsPlain) {found foundToo : Findings}
    (done : diff reference first = .ok found) (doneToo : diff reference second = .ok foundToo)
    (same : List.Forall₂ Difference.Equals found.items foundToo.items) :
    first.equal second = true := by
  have recurs := recurs_of_forall₂ (fun alike => alike.path) wellFormed wellFormedFirst
    wellFormedSecond plain plainFirst plainSecond done doneToo same
  have recursBack : Recurs (flip Difference.Equals) [] reference second first :=
    recurs_of_forall₂ (fun alike => alike.path.symm) wellFormed wellFormedSecond wellFormedFirst
      plain plainSecond plainFirst doneToo done same.flip
  exact equal_of_recurs wellFormedFirst wellFormedSecond recurs recursBack

/-- An object with a number, a list and a key of its own. -/
def numberListAndKey : Value :=
  .object [(.text "a", .number (.int 1)), (.text "b", .array [.bool true, .text "x"]),
    (.text "c", .null)]

/-- A candidate with a shorter list and another key. -/
def shorterList : Value :=
  .object [(.text "b", .array [.bool true]), (.text "d", .object [(.text "e", .number (.int 2))]),
    (.text "a", .number (.int 1))]

/-- The candidate with its keys in another order and its numbers in another form. -/
def shorterListRewritten : Value :=
  .object [(.text "a", .number (.uint 1)), (.text "d", .object [(.text "e", .number (.uint 2))]),
    (.text "b", .array [.bool true])]

/-- Three differences that are equal for two candidates, which are equal but not the same. -/
theorem equal_of_diff_equals_shorterList :
    ∃ found foundToo, diff numberListAndKey shorterList = .ok found ∧
      diff numberListAndKey shorterListRewritten = .ok foundToo ∧
      found.items.map Difference.path = ["/c", "/b/2", "/d"] ∧
      List.Forall₂ Difference.Equals found.items foundToo.items ∧
      shorterList.equal shorterListRewritten = true := by
  have done : diff numberListAndKey shorterList = .ok {
      items := [⟨.missing, "/c", some .null, none⟩, ⟨.missing, "/b/2", some (.text "x"), none⟩,
        ⟨.extra, "/d", none, some (.object [(.text "e", .number (.int 2))])⟩]
      positions := [("/c", 0), ("/b/2", 1), ("/d", 2)]
      limit := none } := by
    cbv
  have doneToo : diff numberListAndKey shorterListRewritten = .ok {
      items := [⟨.missing, "/c", some .null, none⟩, ⟨.missing, "/b/2", some (.text "x"), none⟩,
        ⟨.extra, "/d", none, some (.object [(.text "e", .number (.uint 2))])⟩]
      positions := [("/c", 0), ("/b/2", 1), ("/d", 2)]
      limit := none } := by
    cbv
  have wellFormed : numberListAndKey.WellFormed ∧ shorterList.WellFormed ∧
      shorterListRewritten.WellFormed := by
    simp [numberListAndKey, shorterList, shorterListRewritten, Value.WellFormed,
      Value.WellFormedItems, Value.WellFormedEntries, Entries.keys]
  have plain : numberListAndKey.EveryKey Key.IsPlain ∧ shorterList.EveryKey Key.IsPlain ∧
      shorterListRewritten.EveryKey Key.IsPlain := by
    have letters : ∀ name ∈ ["a", "b", "c", "d", "e"], (Key.text name).IsPlain := by
      intro name letter
      refine ⟨name, rfl, ?_⟩
      simp only [List.mem_cons, List.not_mem_nil, or_false] at letter
      rcases letter with rfl | rfl | rfl | rfl | rfl <;> exact ⟨by decide, by cbv⟩
    simp [numberListAndKey, shorterList, shorterListRewritten, Value.EveryKey,
      Value.EveryKeyOfItems, Value.EveryKeyOfEntries, letters]
  have same : List.Forall₂ Difference.Equals
      [⟨.missing, "/c", some .null, none⟩, ⟨.missing, "/b/2", some (.text "x"), none⟩,
        ⟨.extra, "/d", none, some (.object [(.text "e", .number (.int 2))])⟩]
      [⟨.missing, "/c", some .null, none⟩, ⟨.missing, "/b/2", some (.text "x"), none⟩,
        ⟨.extra, "/d", none, some (.object [(.text "e", .number (.uint 2))])⟩] := by
    refine .cons ⟨rfl, rfl, .some rfl, .none⟩ (.cons ⟨rfl, rfl, .some rfl, .none⟩
      (.cons ⟨rfl, rfl, .none, .some ?_⟩ .nil))
    rfl
  exact ⟨_, _, done, doneToo, rfl, same, equal_of_diff_equals wellFormed.1 wellFormed.2.1
    wellFormed.2.2 plain.1 plain.2.1 plain.2.2 done doneToo same⟩

end Comparison

end StructuralDiff
