import Mathlib
import StructuralDiff.Policy.Draft
import StructuralDiff.Proofs.Legible

/-!
# What a policy leaves out

A policy leaves out a path below the root for one of three reasons (`Policy.excludes_iff`): it
is too deep, it is on or under a rejected path, or paths are selected and it is on or under
none of them. What lies under a path is as deep at least, and on or under every pattern that
the path is on or under (`Path.onOrUnder_of_prefix`); so the first two reasons are handed down,
and so is selection, which is the opposite of the third. A tighter policy has the same reasons
and more (`Policy.Tightens`).
-/

namespace StructuralDiff

namespace Path

variable {path below : Path} {patterns others : List Path}

/-- What is under a path is on or under every pattern that the path is on or under. -/
theorem onOrUnder_of_prefix (starts : path.segments <+: below.segments)
    (covered : path.onOrUnder patterns = true) : below.onOrUnder patterns = true := by
  obtain ⟨pattern, known, start, above, accepted⟩ := onOrUnder_iff.1 covered
  exact onOrUnder_iff.2 ⟨pattern, known, start, above.trans starts, accepted⟩

/-- More patterns cover more paths. -/
theorem onOrUnder_of_subset (more : patterns ⊆ others) (covered : path.onOrUnder patterns = true) :
    path.onOrUnder others = true := by
  obtain ⟨pattern, known, start, above, accepted⟩ := onOrUnder_iff.1 covered
  exact onOrUnder_iff.2 ⟨pattern, more known, start, above, accepted⟩

/-- What is under a path is as deep at least. -/
theorem depth_le_of_prefix (starts : path.segments <+: below.segments) :
    path.depth ≤ below.depth :=
  Nat.succ_le_succ starts.length_le

/-- Only the root has the root under it. -/
theorem isRoot_of_prefix (starts : path.segments <+: below.segments)
    (notRoot : path.isRoot = false) : below.isRoot = false := by
  rw [isRoot, List.isEmpty_eq_false_iff] at notRoot ⊢
  rintro none
  rw [none, List.prefix_nil] at starts
  exact notRoot starts

end Path

namespace Policy

variable {policy tighter : Policy} {path below : Path}

/-- The path is deeper than the policy compares. -/
def cutsOff (policy : Policy) (path : Path) : Bool :=
  policy.maxDepth.any (· < path.depth)

/-- The path is on or under a rejected one. -/
def rejects (policy : Policy) (path : Path) : Bool :=
  path.onOrUnder policy.rejectPaths

/-- The path is on or under a selected one. -/
def selects (policy : Policy) (path : Path) : Bool :=
  path.onOrUnder policy.selectPaths

/-- A policy leaves out a path that is not the root when it cuts it off, rejects it, or selects
others. -/
theorem excludes_iff : policy.excludes path = true ↔ path.isRoot = false ∧
    (policy.cutsOff path = true ∨ policy.rejects path = true ∨
      policy.selectPaths ≠ [] ∧ policy.selects path = false) := by
  rw [excludes, cutsOff, rejects, selects]
  simp only [Bool.and_eq_true, Bool.or_eq_true, Bool.not_eq_true', or_assoc,
    List.isEmpty_eq_false_iff]

/-- A path is cut off when it is deeper than the limit that is set. -/
theorem cutsOff_iff : policy.cutsOff path = true ↔
    ∃ limit, policy.maxDepth = some limit ∧ limit < path.depth := by
  rw [cutsOff]
  cases policy.maxDepth <;> simp

/-- A policy that is as strict as another one or stricter: it compares no deeper, rejects at
least as much, and selects no more. It may select where the other one does not select at all. -/
structure Tightens (policy tighter : Policy) : Prop where
  depth : ∀ limit, policy.maxDepth = some limit →
    ∃ lower, tighter.maxDepth = some lower ∧ lower ≤ limit
  rejected : policy.rejectPaths ⊆ tighter.rejectPaths
  selected : policy.selectPaths ≠ [] →
    tighter.selectPaths ≠ [] ∧ tighter.selectPaths ⊆ policy.selectPaths

namespace Tightens

variable (tightens : policy.Tightens tighter)
include tightens

/-- A tighter policy cuts off what the policy cuts off. -/
theorem cutsOff (cut : policy.cutsOff path = true) : tighter.cutsOff path = true := by
  obtain ⟨limit, known, deeper⟩ := cutsOff_iff.1 cut
  obtain ⟨lower, knownToo, low⟩ := tightens.depth limit known
  exact cutsOff_iff.2 ⟨lower, knownToo, Nat.lt_of_le_of_lt low deeper⟩

/-- A tighter policy rejects what the policy rejects. -/
theorem rejects (rejected : policy.rejects path = true) : tighter.rejects path = true :=
  Path.onOrUnder_of_subset tightens.rejected rejected

/-- A tighter policy selects nothing that the policy passes over. -/
theorem passesOver (some : policy.selectPaths ≠ []) (passed : policy.selects path = false) :
    tighter.selectPaths ≠ [] ∧ tighter.selects path = false := by
  obtain ⟨someToo, fewer⟩ := tightens.selected some
  refine ⟨someToo, Bool.eq_false_iff.2 fun selected => ?_⟩
  have selectedBefore : policy.selects path = true := Path.onOrUnder_of_subset fewer selected
  rw [passed] at selectedBefore
  cases selectedBefore

/-- A tighter policy leaves out what the policy leaves out. -/
theorem excludes (leftOut : policy.excludes path = true) : tighter.excludes path = true := by
  obtain ⟨notRoot, reason⟩ := excludes_iff.1 leftOut
  refine excludes_iff.2 ⟨notRoot, ?_⟩
  rcases reason with cut | rejected | ⟨some, passed⟩
  · exact .inl (tightens.cutsOff cut)
  · exact .inr (.inl (tightens.rejects rejected))
  · exact .inr (.inr (tightens.passesOver some passed))

end Tightens

section Under

variable (starts : path.segments <+: below.segments)
include starts

/-- What is under a path that is cut off is left out. -/
theorem excludes_of_cutsOff (notRoot : path.isRoot = false) (cut : policy.cutsOff path = true) :
    policy.excludes below = true := by
  obtain ⟨limit, known, deeper⟩ := cutsOff_iff.1 cut
  have deeperToo : limit < below.depth :=
    Nat.lt_of_lt_of_le deeper (Path.depth_le_of_prefix starts)
  exact excludes_iff.2 ⟨Path.isRoot_of_prefix starts notRoot,
    .inl (cutsOff_iff.2 ⟨limit, known, deeperToo⟩)⟩

/-- What is under a path that is rejected is left out. -/
theorem excludes_of_rejects (notRoot : path.isRoot = false) (rejected : policy.rejects path = true) :
    policy.excludes below = true :=
  excludes_iff.2 ⟨Path.isRoot_of_prefix starts notRoot,
    .inr (.inl (Path.onOrUnder_of_prefix starts rejected))⟩

/-- What is under a path that is selected is selected. -/
theorem selects_of_prefix (selected : policy.selects path = true) : policy.selects below = true :=
  Path.onOrUnder_of_prefix starts selected

end Under

/-- One step below a path that is cut off or rejected nothing is compared, and one step below a
path that is selected everything is selected, whatever name the step has. A tighter policy
leaves out at least as much, and no policy leaves out the root. -/
theorem excludes_inherited_and_tightened :
    (∀ (policy : Policy) (path child : Path) (name : String),
      path.isRoot = false → path.join name = .ok child →
      (policy.cutsOff path = true → policy.excludes child = true) ∧
      (policy.rejects path = true → policy.excludes child = true) ∧
      (policy.selectPaths ≠ [] → policy.selects path = true → policy.selects child = true)) ∧
    (∀ policy tighter : Policy, policy.Tightens tighter →
      ∀ path, policy.excludes path = true → tighter.excludes path = true) ∧
    ∀ policy : Policy, policy.excludes .root = false := by
  refine ⟨fun policy path child name notRoot joined => ?_, ?_, excludes_root⟩
  · obtain ⟨segment, -, rfl⟩ := Path.join_eq_ok_iff.1 joined
    have starts : path.segments <+: path.segments ++ [segment] := List.prefix_append _ _
    exact ⟨excludes_of_cutsOff starts notRoot, excludes_of_rejects starts notRoot,
      fun _ selected => selects_of_prefix starts selected⟩
  · exact fun policy tighter tightens path leftOut => tightens.excludes leftOut

/-- An item that a key expression rejects or selects hands this on to what is in it, under a
name that holds a separator too. What is passed over under two selected paths is passed over
under one of them and a limit of the depth. -/
theorem excludes_inherited_and_tightened_items :
    ∃ item inside rejecting selecting narrow,
      Path.read "/list/id=7" = .ok item ∧ item.isRoot = false ∧
      item.join "a/b" = .ok inside ∧
      Draft.build { Draft.empty with
        maxDepth := some (.int 2), rejectPaths := [.text "/list/:id"] } = .ok rejecting ∧
      rejecting.cutsOff item = true ∧ rejecting.rejects item = true ∧
      rejecting.excludes inside = true ∧
      Draft.build { Draft.empty with selectPaths := [.text "/list/:id", .text "/meta"] } =
        .ok selecting ∧
      selecting.selects item = true ∧ selecting.selects inside = true ∧
      Draft.build { Draft.empty with
        maxDepth := some (.int 2), selectPaths := [.text "/meta"] } = .ok narrow ∧
      selecting.Tightens narrow ∧
      selecting.excludes ⟨[.plain "other"]⟩ = true ∧ narrow.excludes ⟨[.plain "other"]⟩ = true := by
  have read : Path.read "/list/id=7" = .ok ⟨[.plain "list", .keyValue "id" "7"]⟩ := by cbv
  have joined : Path.join ⟨[.plain "list", .keyValue "id" "7"]⟩ "a/b" =
      .ok ⟨[.plain "list", .keyValue "id" "7", .plain "a/b"]⟩ := by cbv
  have rejecting : Draft.build { Draft.empty with
      maxDepth := some (.int 2), rejectPaths := [.text "/list/:id"] } = .ok { Policy.default with
        maxDepth := some 2, rejectPaths := [⟨[.plain "list", .keyExpression "id"]⟩] } := by cbv
  have selecting :
      Draft.build { Draft.empty with selectPaths := [.text "/list/:id", .text "/meta"] } =
        .ok { Policy.default with
          selectPaths := [⟨[.plain "list", .keyExpression "id"]⟩, ⟨[.plain "meta"]⟩] } := by cbv
  have narrowing : Draft.build { Draft.empty with
      maxDepth := some (.int 2), selectPaths := [.text "/meta"] } = .ok { Policy.default with
        maxDepth := some 2, selectPaths := [⟨[.plain "meta"]⟩] } := by cbv
  obtain ⟨inherited, tightened, -⟩ := excludes_inherited_and_tightened
  obtain ⟨-, rejects, -⟩ := inherited _ _ _ _ rfl joined
  obtain ⟨-, -, selects⟩ := inherited _ _ _ _ rfl joined
  have tightens : Tightens
      { Policy.default with
        selectPaths := [⟨[.plain "list", .keyExpression "id"]⟩, ⟨[.plain "meta"]⟩] }
      { Policy.default with maxDepth := some 2, selectPaths := [⟨[.plain "meta"]⟩] } :=
    ⟨fun _ known => absurd known.symm (Option.some_ne_none _), List.Subset.refl _,
      fun _ => ⟨List.cons_ne_nil _ _, List.subset_cons_self _ _⟩⟩
  exact ⟨_, _, _, _, _, read, rfl, joined, rejecting, by cbv, by cbv, rejects (by cbv), selecting,
    by cbv, selects (List.cons_ne_nil _ _) (by cbv), narrowing, tightens, by cbv,
    tightened _ _ tightens _ (by cbv)⟩

end Policy

end StructuralDiff
