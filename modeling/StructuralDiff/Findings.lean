import StructuralDiff.Difference
import StructuralDiff.Policy.Basic

/-!
# Findings

Differences in the order in which they were recorded, with a look-up by path and a
limit. A difference that would go beyond the limit is refused, and nothing changes.
-/

namespace StructuralDiff

/-- Recorded differences. -/
structure Findings where
  items : List Difference
  /-- The position of the last difference at each path. -/
  positions : Entries String Nat
  limit : Option Nat

namespace Findings

/-- Nothing found yet, under a limit or none. -/
def empty (limit : Option Nat) : Findings where
  items := []
  positions := []
  limit := limit

/-- Nothing found yet, under the limit that a policy sets. -/
def forPolicy (policy : Policy) : Findings :=
  empty policy.cutoff

/-- The limit is reached. -/
def isFull (findings : Findings) : Bool :=
  findings.limit.any (· ≤ findings.items.length)

/-- Record a difference, unless the limit is reached. -/
def record? (findings : Findings) (difference : Difference) : Option Findings :=
  if findings.isFull then none
  else some { findings with
    items := findings.items ++ [difference]
    positions := findings.positions.set difference.path findings.items.length }

/-- Record differences up to the first that is refused; the second component says
whether one was. -/
def recordAll (findings : Findings) : List Difference → Findings × Bool
  | [] => (findings, false)
  | difference :: differences =>
    match findings.record? difference with
    | some findings => findings.recordAll differences
    | none => (findings, true)

/-- The number of differences. -/
def size (findings : Findings) : Nat := findings.items.length

/-- Nothing was found. -/
def isEmpty (findings : Findings) : Bool := findings.items.isEmpty

/-- The difference recorded at a position, counted from zero. -/
def get? (findings : Findings) (position : Nat) : Option Difference :=
  findings.items[position]?

/-- The difference recorded last at a path. -/
def atPath? (findings : Findings) (path : String) : Option Difference :=
  (findings.positions.find? path).bind findings.get?

/-- The number of differences of one kind. -/
def count (findings : Findings) (kind : DifferenceKind) : Nat :=
  (findings.items.filter fun difference => difference.kind = kind).length

/-- The message when nothing was recorded at a path. -/
def notFoundMessage (path : String) : String :=
  "No diff recorded at path '" ++ path ++ "'"

/-- Recording goes on after some differences unless one of them was refused. -/
theorem recordAll_append (findings : Findings) (first second : List Difference) :
    findings.recordAll (first ++ second) =
      match findings.recordAll first with
      | (reached, true) => (reached, true)
      | (reached, false) => reached.recordAll second := by
  induction first generalizing findings with
  | nil => rfl
  | cons difference differences ih =>
    simp only [List.cons_append, recordAll]
    cases findings.record? difference with
    | none => rfl
    | some reached => exact ih reached

/-- Without a limit, everything is recorded. -/
theorem recordAll_of_unlimited {findings : Findings} (unlimited : findings.limit = none)
    (differences : List Difference) :
    (findings.recordAll differences).2 = false ∧
      (findings.recordAll differences).1.items = findings.items ++ differences := by
  induction differences generalizing findings with
  | nil => simp [recordAll]
  | cons difference differences ih =>
    have room : findings.isFull = false := by simp [isFull, unlimited]
    simp only [recordAll, record?, room, Bool.false_eq_true, if_false]
    obtain ⟨accepted, items⟩ := ih (show ({ findings with
      items := findings.items ++ [difference]
      positions := findings.positions.set difference.path findings.items.length } :
        Findings).limit = none from unlimited)
    exact ⟨accepted, by simpa using items⟩

/-- Under a limit, as many differences as it allows are recorded, and one is refused
exactly when there are more. -/
theorem recordAll_of_limited {findings : Findings} {limit : Nat}
    (limited : findings.limit = some limit) (room : findings.items.length ≤ limit)
    (differences : List Difference) :
    (findings.recordAll differences).2 =
        decide (limit < findings.items.length + differences.length) ∧
      (findings.recordAll differences).1.items = (findings.items ++ differences).take limit := by
  induction differences generalizing findings with
  | nil =>
    have whole : findings.items.take limit = findings.items := List.take_of_length_le room
    simp [recordAll, whole]
    omega
  | cons difference differences ih =>
    by_cases full : limit ≤ findings.items.length
    · have same : findings.items.length = limit := Nat.le_antisymm room full
      have isFull : findings.isFull = true := by simp [isFull, limited, full]
      simp only [recordAll, record?, isFull, if_true]
      constructor
      · simp [same]
      · rw [List.take_append_of_le_length full, List.take_of_length_le room]
    · have isFull : findings.isFull = false := by simp [isFull, limited]; omega
      simp only [recordAll, record?, isFull, Bool.false_eq_true, if_false]
      have rest := ih (show ({ findings with
        items := findings.items ++ [difference]
        positions := findings.positions.set difference.path findings.items.length } :
          Findings).limit = some limit from limited) (by simp; omega)
      simpa [Nat.add_assoc, Nat.add_comm 1] using rest

end Findings

end StructuralDiff
