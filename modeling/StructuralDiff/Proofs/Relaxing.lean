import Mathlib
import StructuralDiff.Proofs.KeyText
import StructuralDiff.Proofs.Meeting
import StructuralDiff.Proofs.PlainPolicies

/-!
# Comparing scalars by their texts

When truth values and numbers are compared by their texts, `1` and `"1"` are one value.
Where nothing else depends on the values, this only takes differences away, as long as
equal numbers have one text (`perform_byText_sublist`). They have, except for an unsigned
integer above the signed range and a floating number of its value: the integer is written
with all its digits, the floating number with the fewest that tell it.
-/

namespace StructuralDiff

namespace Number

open Binary64

/-- An unsigned integer above the signed range and a floating number have one value and
different digits. -/
structure SpelledApart (integer : UInt64) (value : Binary64) : Prop where
  great : isSigned integer.toNat = false
  whole : (Number.float value).wholeValue = some (integer.toNat : Int)
  digits : value.plainText ≠ Decimal.naturalText integer.toNat

/-- Two numbers are an unsigned integer above the signed range and a floating number of one
value and different digits. -/
def WrittenApart : Number → Number → Prop
  | .uint integer, .float value => SpelledApart integer value
  | .float value, .uint integer => SpelledApart integer value
  | _, _ => False

/-- Equal numbers are the same floating number or have one exact value. -/
theorem exact_eq_of_equal {left right : Number} (equal : left.equal right = true) :
    left.exact = right.exact := by
  obtain ⟨same, ifNone⟩ := equal_iff.1 equal
  cases whole : left.wholeValue with
  | some integer => rw [exact_of_wholeValue whole, exact_of_wholeValue (same ▸ whole)]
  | none =>
    have wholeToo : right.wholeValue = none := same ▸ whole
    cases left with
    | int value => cases whole
    | uint value => cases whole
    | float value =>
      cases right with
      | int other => cases wholeToo
      | uint other => cases wholeToo
      | float other =>
        -- The two are no zeros, which are whole.
        have positive := magnitude_pos_of_wholeValue_eq_none whole
        have bits := ifNone whole
        simp only [toBinary64, Binary64.equal, isZero, Nat.ne_of_gt positive, beq_iff_eq,
          Bool.and_eq_true, Bool.or_eq_true, false_and, or_false] at bits
        cases value
        cases other
        cases bits.2
        rfl

/-- A floating number above the signed range is not written as an integer. -/
theorem text_of_great {value : Binary64} {integer : Int} (great : isSigned integer = false)
    (whole : (Number.float value).wholeValue = some integer) :
    (Number.float value).text = value.plainText := by
  have truncated : value.truncate = integer := by
    rw [wholeValue] at whole
    split at whole
    · exact Option.some.inj whole
    · cases whole
  have noInteger : value.toInteger? = none := by simp [toInteger?, truncated, great]
  rw [text, noInteger]

/-- Equal numbers have one text unless they are written apart. -/
theorem text_eq_iff_of_equal {left right : Number} (equal : left.equal right = true) :
    left.text = right.text ↔ ¬ left.WrittenApart right := by
  obtain ⟨same, -⟩ := equal_iff.1 equal
  constructor
  · intro alike apart
    cases left <;> cases right <;> first | exact apart | skip
    case uint.float integer value =>
      rw [text_of_great apart.great apart.whole] at alike
      exact apart.digits alike.symm
    case float.uint value integer =>
      rw [text_of_great apart.great apart.whole] at alike
      exact apart.digits alike
  · intro notApart
    rcases written_alike_or_mixed (exact_eq_of_equal equal) with
      ⟨alike, -⟩ | ⟨integer, value, mixed⟩
    · exact alike
    · rcases mixed.sides with ⟨rfl, rfl⟩ | ⟨rfl, rfl⟩
      · rw [text_of_great mixed.great same.symm]
        by_contra digits
        exact notApart ⟨mixed.great, same.symm, Ne.symm digits⟩
      · rw [text_of_great mixed.great same]
        by_contra digits
        exact notApart ⟨mixed.great, same, digits⟩

end Number

namespace Value

/-- Two values are numbers that are written apart. -/
def WrittenApart (left right : Value) : Prop :=
  ∃ number other, left = .number number ∧ right = .number other ∧ number.WrittenApart other

/-- Equal scalars have one canonical form unless they are written apart. -/
theorem canonicalScalar_eq_iff_of_equal {left right : Value} (scalar : left.isScalar)
    (equal : left.equal right = true) :
    left.canonicalScalar = right.canonicalScalar ↔ ¬ left.WrittenApart right := by
  cases left <;> cases right <;> first | cases equal; done | cases scalar; done | skip
  case number number other =>
    have numbers : number.equal other = true := equal
    simpa [canonicalScalar, WrittenApart] using Number.text_eq_iff_of_equal numbers
  all_goals simp_all [canonicalScalar, WrittenApart, Value.equal]

/-- The canonical form of a scalar equals itself, also where the scalar does not. -/
theorem canonicalScalar_equal_self {value : Value} (scalar : value.isScalar) :
    value.canonicalScalar.equal value.canonicalScalar = true := by
  cases value with
  | array items => cases scalar
  | object entries => cases scalar
  | _ => simp [canonicalScalar, equal]

end Value

namespace Trace

/-- A trace fails as another one does, and comes upon some of its differences in their
order. -/
structure Relaxes (relaxed strict : Trace) : Prop where
  failure : relaxed.failure = strict.failure
  differences : relaxed.differences.Sublist strict.differences

namespace Relaxes

theorem refl (trace : Trace) : trace.Relaxes trace := ⟨rfl, List.Sublist.refl _⟩

/-- Nothing relaxes one difference. -/
theorem clean_found (difference : Difference) : Trace.clean.Relaxes (.found difference) :=
  ⟨rfl, List.nil_sublist _⟩

/-- Traces after each other are relaxed one by one. -/
theorem append {relaxed strict relaxedToo strictToo : Trace} (first : relaxed.Relaxes strict)
    (second : relaxedToo.Relaxes strictToo) :
    (relaxed ++ relaxedToo).Relaxes (strict ++ strictToo) := by
  cases failure : strict.failure with
  | some error =>
    rw [append_of_failed failure, append_of_failed (first.failure.trans failure)]
    exact first
  | none =>
    rw [append_of_complete failure, append_of_complete (first.failure.trans failure)]
    exact ⟨second.failure, first.differences.append second.differences⟩

/-- Traces of pairings are relaxed one by one. -/
theorem sequence {relaxed strict : Pairing → Trace} {pairings : List Pairing}
    (each : ∀ pairing ∈ pairings, (relaxed pairing).Relaxes (strict pairing)) :
    (Trace.sequence (pairings.map relaxed)).Relaxes (Trace.sequence (pairings.map strict)) := by
  induction pairings with
  | nil => exact refl _
  | cons pairing pairings ih =>
    have first := each pairing List.mem_cons_self
    have others := ih fun other member => each other (List.mem_cons_of_mem _ member)
    exact first.append others

end Relaxes

end Trace

namespace Policy

/-- The policy with truth values and numbers compared by their texts. -/
def byText (policy : Policy) : Policy :=
  { policy with indifferentValues := true }

end Policy

namespace Comparison

variable {policy : Policy} {reference candidate : Value}

/-- Without rules of pairing, containers are paired without regard to the values. -/
theorem plan_byText (noKeys : policy.matchByKey = []) (noValues : policy.matchByValue = [])
    (path : Path) (left right : Value) :
    plan policy.byText path left right = plan policy path left right := by
  cases left, right using Value.casesPair with
  | objects references candidates => rfl
  | arrays references candidates =>
    rw [Policy.plan_array_of_noRules noKeys noValues]
    have noKeysToo : policy.byText.matchByKey = [] := noKeys
    exact Policy.plan_array_of_noRules noKeysToo noValues path _ _
  | scalars left right scalar scalarToo =>
    rw [plan_of_scalars _ path scalar scalarToo, plan_of_scalars _ path scalar scalarToo]
  | shapes left right different =>
    rw [plan_of_shape_ne _ path different, plan_of_shape_ne _ path different]

/-- Scalars that are equal have equal texts, unless they are written apart. -/
theorem compareScalars_byText (noNormalizers : policy.normalizers = []) (path : Path)
    {left right : Value} (scalar : left.isScalar) (scalarToo : right.isScalar)
    (notApart : ¬ left.WrittenApart right) :
    (compareScalars policy.byText path left right).Relaxes
      (compareScalars policy path left right) := by
  have plain : ∀ value, prepared policy path value =
      if policy.indifferentValues then value.canonicalScalar else value := by
    intro value
    simp [prepared, Policy.normalizerFor, noNormalizers]
  have byText : ∀ value, prepared policy.byText path value = value.canonicalScalar := by
    intro value
    simp [prepared, Policy.normalizerFor, Policy.byText, noNormalizers]
  cases already : policy.indifferentValues with
  | true =>
    have same : compareScalars policy.byText path left right =
        compareScalars policy path left right := by
      simp [compareScalars, plain, byText, already]
    rw [same]
    exact .refl _
  | false =>
    simp only [compareScalars, plain, byText, already, Bool.false_eq_true, if_false]
    cases equal : left.equal right with
    | true =>
      have texts := (Value.canonicalScalar_eq_iff_of_equal scalar equal).2 notApart
      rw [texts, Value.canonicalScalar_equal_self scalarToo]
      exact .refl _
    | false =>
      split
      · exact .clean_found _
      · exact .refl _

/-- Comparing by texts relaxes a walk, when no two numbers that stand for each other are
written apart. By induction along the walk: both walks have one plan. -/
theorem walk_byText (noKeys : policy.matchByKey = []) (noValues : policy.matchByValue = [])
    (noNormalizers : policy.normalizers = [])
    (alike : ∀ path left right, Meets policy reference candidate path left right →
      ¬ left.WrittenApart right) {path : Path} {left right : Value}
    (meets : Meets policy reference candidate path left right) :
    (walk policy.byText path left right).Relaxes (walk policy path left right) := by
  induction path, left, right using walk_induction policy with
  | visited path left right ih =>
    have sameFilter : policy.byText.excludes path = policy.excludes path := rfl
    have same := plan_byText noKeys noValues path left right
    refine walk_cases (motive := fun trace => (walk policy.byText path left right).Relaxes trace)
      ?leftOut ?fails ?differs ?compares ?descends
    case leftOut =>
      intro leftOut
      rw [walk_of_excluded (sameFilter.trans leftOut)]
      exact .refl _
    case fails =>
      intro error shown planned
      rw [walk_of_fail (sameFilter.trans shown) (same.trans planned)]
      exact .refl _
    case differs =>
      intro shown planned
      rw [walk_of_differInShape (sameFilter.trans shown) (same.trans planned)]
      exact .refl _
    case compares =>
      intro shown planned
      rw [walk_of_compareScalars (sameFilter.trans shown) (same.trans planned)]
      obtain ⟨scalar, scalarToo⟩ := isScalar_of_compareScalars planned
      exact compareScalars_byText noNormalizers path scalar scalarToo (alike path left right meets)
    case descends =>
      intro pairings shown planned
      rw [walk_of_descend (sameFilter.trans shown) (same.trans planned)]
      refine .sequence fun pairing member => ?_
      cases joined : path.join pairing.step with
      | error cause =>
        rw [visit_of_error joined, visit_of_error joined]
        exact .refl _
      | ok child =>
        cases pairing with
        | missing step value =>
          rw [visit_missing joined, visit_missing joined]
          exact .refl _
        | extra step value =>
          rw [visit_extra joined, visit_extra joined]
          exact .refl _
        | both step first second =>
          rw [visit_both joined, visit_both joined]
          exact ih planned member joined (meets.onward shown planned member joined)

/-- Where no number is an unsigned integer above the signed range, none that stand for each
other are written apart. -/
theorem Meets.not_writtenApart
    (references : reference.EveryNumber fun number =>
      ∀ integer, number = .uint integer → Number.isSigned integer.toNat = true)
    (candidates : candidate.EveryNumber fun number =>
      ∀ integer, number = .uint integer → Number.isSigned integer.toNat = true)
    {path : Path} {left right : Value} (meets : Meets policy reference candidate path left right) :
    ¬ left.WrittenApart right := by
  obtain ⟨lefts, rights⟩ := meets.of_parts
    (fun value everyNumber part inside => Value.EveryNumber.of_mem_parts everyNumber inside)
    references candidates
  rintro ⟨number, other, rfl, rfl, apart⟩
  cases number <;> cases other <;> first | exact apart | skip
  case uint.float integer value =>
    have signed := lefts integer rfl
    rw [apart.great] at signed
    cases signed
  case float.uint value integer =>
    have signed := rights integer rfl
    rw [apart.great] at signed
    cases signed

/-- When nothing but equality depends on the values, comparing scalars by their texts finds
some of the differences in their order, as long as no two numbers that stand for each other
are written apart; and equal scalars have one canonical form except where they are numbers
that are written apart. -/
theorem perform_byText_sublist {policy : Policy} (noKeys : policy.matchByKey = [])
    (noValues : policy.matchByValue = []) (noNormalizers : policy.normalizers = [])
    (unlimited : policy.cutoff = none) {reference candidate : Value}
    (alike : ∀ path left right, Meets policy reference candidate path left right →
      ¬ left.WrittenApart right) {findings : Findings}
    (done : perform policy reference candidate = .ok findings) :
    (∃ relaxed, perform policy.byText reference candidate = .ok relaxed ∧
      relaxed.items.Sublist findings.items) ∧
    ∀ left right : Value, left.isScalar → right.isScalar → left.equal right = true →
      (left.canonicalScalar = right.canonicalScalar ↔ ¬ left.WrittenApart right) := by
  refine ⟨?_, fun left right scalar _ equal => Value.canonicalScalar_eq_iff_of_equal scalar equal⟩
  obtain ⟨complete, items⟩ := complete_of_perform unlimited done
  have relaxes := walk_byText noKeys noValues noNormalizers alike .start
  have unlimitedToo : policy.byText.cutoff = none := unlimited
  obtain ⟨relaxed, doneToo, itemsToo⟩ :=
    exists_findings_of_complete unlimitedToo (relaxes.failure.trans complete)
  refine ⟨relaxed, doneToo, ?_⟩
  rw [items, itemsToo]
  exact relaxes.differences

/-- A record with a switch and a number. -/
def switchAndNumber : Value :=
  .object [(.text "on", .bool true), (.text "n", .number (.int 1))]

/-- The record with texts, one of which is that of the switch. -/
def switchAndNumberAsTexts : Value :=
  .object [(.text "on", .text "true"), (.text "n", .text "2")]

/-- By their texts, only the numbers of the two records differ. -/
theorem perform_byText_sublist_switchAndNumber :
    ∃ findings relaxed,
      perform .default switchAndNumber switchAndNumberAsTexts = .ok findings ∧
      findings.items.map Difference.path = ["/on", "/n"] ∧
      perform Policy.default.byText switchAndNumber switchAndNumberAsTexts = .ok relaxed ∧
      relaxed.items.length = 1 ∧ relaxed.items.Sublist findings.items := by
  have done : perform .default switchAndNumber switchAndNumberAsTexts = .ok {
      items := [⟨.mismatch, "/on", some (.bool true), some (.text "true")⟩,
        ⟨.mismatch, "/n", some (.number (.int 1)), some (.text "2")⟩]
      positions := [("/on", 0), ("/n", 1)]
      limit := none } := by
    cbv
  have relaxedDone : perform Policy.default.byText switchAndNumber switchAndNumberAsTexts = .ok {
      items := [⟨.mismatch, "/n", some (.number (.int 1)), some (.text "2")⟩]
      positions := [("/n", 0)]
      limit := none } := by
    cbv
  have alike : ∀ path left right,
      Meets .default switchAndNumber switchAndNumberAsTexts path left right →
        ¬ left.WrittenApart right := by
    intro path left right meets
    refine meets.not_writtenApart ?_ ?_ <;>
      simp [switchAndNumber, switchAndNumberAsTexts, Value.EveryNumber,
        Value.EveryNumberOfEntries]
  obtain ⟨⟨relaxed, again, sublist⟩, -⟩ := perform_byText_sublist rfl rfl rfl rfl alike done
  rw [relaxedDone] at again
  cases again
  exact ⟨_, _, done, rfl, relaxedDone, rfl, sublist⟩

/-- The least unsigned integer above the signed range. -/
def greatInteger : Value := .number (.uint 0x8000000000000000)

/-- The floating number of its value. -/
def greatFloat : Value := .number (.float ⟨0x43e0000000000000⟩)

/-- The two great numbers are equal, and nothing is found; by their texts, they differ. -/
theorem perform_byText_adds :
    ∃ findings relaxed,
      greatInteger.equal greatFloat = true ∧
      greatInteger.canonicalScalar = .text "9223372036854775808" ∧
      greatFloat.canonicalScalar = .text "9223372036854776000" ∧
      perform .default greatInteger greatFloat = .ok findings ∧ findings.items = [] ∧
      perform Policy.default.byText greatInteger greatFloat = .ok relaxed ∧
      relaxed.items.map Difference.path = ["/"] ∧ ¬ relaxed.items.Sublist findings.items := by
  have equal : greatInteger.equal greatFloat = true := by
    rw [greatInteger, greatFloat, Value.equal]
    decide +kernel
  have integerText : greatInteger.canonicalScalar = .text "9223372036854775808" := by
    rw [greatInteger, Value.canonicalScalar, Value.text.injEq]
    decide +kernel
  have floatText : greatFloat.canonicalScalar = .text "9223372036854776000" := by
    rw [greatFloat, Value.canonicalScalar, Value.text.injEq]
    decide +kernel
  have done : perform .default greatInteger greatFloat = .ok (.empty none) := by
    have walked : walk .default .root greatInteger greatFloat = .clean := by
      rw [walk_of_compareScalars rfl (plan_of_scalars _ _ rfl rfl)]
      simp [compareScalars, prepared, Policy.normalizerFor, Policy.default, equal]
    rw [perform, record_eq_recordInto, walked]
    rfl
  have relaxedDone : perform Policy.default.byText greatInteger greatFloat = .ok {
      items := [⟨.mismatch, "/", some greatInteger, some greatFloat⟩]
      positions := [("/", 0)]
      limit := none } := by
    have walked : walk Policy.default.byText .root greatInteger greatFloat =
        .found ⟨.mismatch, "/", some greatInteger, some greatFloat⟩ := by
      rw [walk_of_compareScalars rfl (plan_of_scalars _ _ rfl rfl)]
      simp [compareScalars, prepared, Policy.normalizerFor, Policy.byText, Policy.default,
        integerText, floatText, Value.equal, Path.text, Path.root]
    rw [perform, record_eq_recordInto, walked]
    rfl
  exact ⟨_, _, equal, integerText, floatText, done, rfl, relaxedDone, rfl, by simp [Findings.empty]⟩

end Comparison

end StructuralDiff
