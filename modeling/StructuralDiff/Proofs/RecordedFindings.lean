import Mathlib
import StructuralDiff.Proofs.UniquePaths

/-!
# Findings after calls

Differences are submitted one by one, by their parts or as they are, and a call that is refused
does not keep the next one from being made. Whatever the calls are, the findings are the first
of the submitted differences, as many as the limit allows, and the look-up by path finds the
last one of them that is at the path (`Findings.accounts_submitAll`). What a single call
preserves is `Findings.Keeps`.
-/

namespace StructuralDiff

namespace Findings

/-- A call that submits a difference: by its parts, at a path, or as it is. -/
inductive Call where
  | record (kind : DifferenceKind) (path : Path) (reference candidate : Option Value)
  | push (difference : Difference)

/-- The difference that a call submits. -/
def Call.difference : Call → Difference
  | .record kind path reference candidate => ⟨kind, path.text, reference, candidate⟩
  | .push difference => difference

/-- Make one call; the second component says whether it was refused. -/
def submit (findings : Findings) (call : Call) : Findings × Bool :=
  findings.recordAll [call.difference]

/-- The findings after calls, whether these were refused or not. -/
def submitAll (findings : Findings) (calls : List Call) : Findings :=
  calls.foldl (fun findings call => (findings.submit call).1) findings

/-- As many of a number of differences as a limit allows. -/
def allowed : Option Nat → Nat → Nat
  | none, number => number
  | some limit, number => min limit number

/-- The last of some differences that is at a path. -/
def lastAt? (differences : List Difference) (path : String) : Option Difference :=
  differences.reverse.find? fun difference => decide (difference.path = path)

/-- Findings account for submitted differences under a limit. -/
structure Accounts (findings : Findings) (limit : Option Nat) (submitted : List Difference) :
    Prop where
  items : findings.items = submitted.take (allowed limit submitted.length)
  refused : ∀ call, (findings.submit call).2 = true ↔ limit = some findings.items.length
  unchanged : ∀ call, (findings.submit call).2 = true →
    (findings.submit call).1.items = findings.items ∧
      ∀ path, (findings.submit call).1.atPath? path = findings.atPath? path
  /-- A difference is found at a path when it is there and none after it is. -/
  found : ∀ path difference, findings.atPath? path = some difference ↔
    ∃ before after, findings.items = before ++ difference :: after ∧ difference.path = path ∧
      ∀ later ∈ after, later.path ≠ path
  notFound : ∀ path, findings.atPath? path = none ↔
    ∀ difference ∈ findings.items, difference.path ≠ path
  /-- No position that is looked up is beyond the differences. -/
  inRange : ∀ path position, findings.positions.find? path = some position →
    position < findings.items.length

/-- What calls preserve: the limit, the first of the submitted differences, and the position of
the last difference at every path. -/
structure Keeps (findings : Findings) (limit : Option Nat) (submitted : List Difference) :
    Prop where
  limited : findings.limit = limit
  items : findings.items = submitted.take (allowed limit submitted.length)
  indexed : findings.Indexed
  atPath : ∀ path, findings.atPath? path = lastAt? findings.items path

/-- The last difference at a path is there, and none after it is. -/
theorem lastAt?_eq_some_iff {differences : List Difference} {path : String}
    {difference : Difference} :
    lastAt? differences path = some difference ↔
      ∃ before after, differences = before ++ difference :: after ∧ difference.path = path ∧
        ∀ later ∈ after, later.path ≠ path := by
  rw [lastAt?, List.find?_eq_some_iff_append]
  simp only [decide_eq_true_eq, Bool.not_eq_true', decide_eq_false_iff_not]
  constructor
  · rintro ⟨here, after, before, split, others⟩
    refine ⟨before.reverse, after.reverse, ?_, here, fun later member => ?_⟩
    · rw [← List.reverse_reverse differences, split]
      simp
    · exact others later (List.mem_reverse.1 member)
  · rintro ⟨before, after, rfl, here, others⟩
    refine ⟨here, after.reverse, before.reverse, by simp, fun later member => ?_⟩
    exact others later (List.mem_reverse.1 member)

theorem lastAt?_eq_none_iff {differences : List Difference} {path : String} :
    lastAt? differences path = none ↔ ∀ difference ∈ differences, difference.path ≠ path := by
  simp [lastAt?]

/-- One more difference is the last one at its path. -/
theorem lastAt?_append_singleton (differences : List Difference) (difference : Difference)
    (path : String) :
    lastAt? (differences ++ [difference]) path =
      if difference.path = path then some difference else lastAt? differences path := by
  rw [lastAt?, List.reverse_append, List.reverse_singleton, List.singleton_append,
    List.find?_cons, lastAt?]
  by_cases here : difference.path = path <;> simp [here]

/-- Recording a difference changes the look-up at its path only. -/
theorem atPath?_of_record? {findings reached : Findings} (indexed : findings.Indexed)
    {difference : Difference} (recorded : findings.record? difference = some reached)
    (path : String) :
    reached.atPath? path =
      if difference.path = path then some difference else findings.atPath? path := by
  unfold record? at recorded
  split at recorded
  · cases recorded
  · cases recorded
    rw [atPath?, Entries.find?_set]
    split
    · simp [get?]
    · rw [atPath?]
      cases known : findings.positions.find? path with
      | none => rfl
      | some position =>
        -- the position is one of the old differences, which one more does not move
        obtain ⟨other, held, -⟩ := indexed.there path position known
        have inside := (List.getElem?_eq_some_iff.1 held).1
        simp [get?, List.getElem?_append_left inside]

/-- A call records its difference. One that is refused leaves the findings as they are. -/
theorem submit_eq (findings : Findings) (call : Call) :
    findings.submit call =
      match findings.record? call.difference with
      | some reached => (reached, false)
      | none => (findings, true) := by
  rw [submit, recordAll]
  cases findings.record? call.difference <;> rfl

/-- As many differences as a limit allows are what a limit leaves of them. -/
theorem take_allowed (limit : Nat) (submitted : List Difference) :
    submitted.take (allowed (some limit) submitted.length) = submitted.take limit := by
  rw [allowed, List.take_eq_take_iff]
  omega

namespace Keeps

variable {findings : Findings} {limit : Option Nat} {submitted : List Difference}

theorem empty (limit : Option Nat) : (Findings.empty limit).Keeps limit [] where
  limited := rfl
  items := List.take_nil.symm
  indexed := .empty limit
  atPath _ := rfl

/-- Findings are full when they hold as many differences as the limit allows. -/
theorem isFull_iff (keeps : findings.Keeps limit submitted) :
    findings.isFull = true ↔ limit = some findings.items.length := by
  rw [isFull, keeps.limited]
  cases limit with
  | none => simp
  | some limit =>
    have most : findings.items.length ≤ limit := by
      rw [keeps.items, take_allowed]
      exact List.length_take_le limit submitted
    simp only [Option.any_some, decide_eq_true_eq, Option.some.injEq]
    omega

/-- One more difference is kept unless the findings are full. -/
theorem take_append_singleton (keeps : findings.Keeps limit submitted) (difference : Difference) :
    (submitted ++ [difference]).take (allowed limit (submitted ++ [difference]).length) =
      if findings.isFull then findings.items else findings.items ++ [difference] := by
  have items := keeps.items
  cases limit with
  | none =>
    have room : findings.isFull = false := by simp [isFull, keeps.limited]
    simp [room, items, allowed]
  | some limit =>
    rw [take_allowed] at items ⊢
    by_cases full : findings.isFull = true
    · have reached := Option.some.inj (keeps.isFull_iff.1 full)
      have many : limit ≤ submitted.length := by
        rw [items, List.length_take] at reached
        omega
      rw [if_pos full, items, List.take_append_of_le_length many]
    · have few : submitted.length < limit := by
        have room := mt keeps.isFull_iff.2 full
        rw [items, List.length_take, Option.some.injEq] at room
        omega
      rw [if_neg full, items, List.take_of_length_le few.le, List.take_of_length_le]
      simpa using few

/-- One call keeps what is said of the findings. -/
theorem submit (keeps : findings.Keeps limit submitted) (call : Call) :
    (findings.submit call).1.Keeps limit (submitted ++ [call.difference]) := by
  rw [submit_eq]
  have items := keeps.take_append_singleton call.difference
  cases recorded : findings.record? call.difference with
  | none =>
    have full : findings.isFull = true := by
      simpa [record?] using recorded
    rw [if_pos full] at items
    exact { keeps with items := items.symm }
  | some reached =>
    have room : ¬ findings.isFull = true := by
      intro full
      simp [record?, full] at recorded
    have indexed := keeps.indexed.record? recorded
    have atPath := atPath?_of_record? keeps.indexed recorded
    rw [if_neg room] at items
    rw [record?, if_neg room] at recorded
    cases recorded
    refine ⟨keeps.limited, items.symm, indexed, fun path => ?_⟩
    rw [atPath, keeps.atPath, lastAt?_append_singleton]

/-- All calls keep what is said of the findings. -/
theorem submitAll (keeps : findings.Keeps limit submitted) (calls : List Call) :
    (findings.submitAll calls).Keeps limit (submitted ++ calls.map Call.difference) := by
  induction calls generalizing findings submitted with
  | nil => simpa [Findings.submitAll] using keeps
  | cons call calls ih =>
    have rest := ih (keeps.submit call)
    rwa [List.append_assoc, List.singleton_append] at rest

/-- Findings of which this is kept account for what was submitted. -/
theorem accounts (keeps : findings.Keeps limit submitted) : findings.Accounts limit submitted := by
  have refused : ∀ call, (findings.submit call).2 = true ↔ findings.isFull = true := by
    intro call
    rw [submit_eq, record?]
    cases findings.isFull <;> simp
  refine
    { items := keeps.items
      refused := fun call => (refused call).trans keeps.isFull_iff
      unchanged := fun call refusal => ?_
      found := fun path difference => ?_
      notFound := fun path => ?_
      inRange := fun path position known => ?_ }
  · have same : (findings.submit call).1 = findings := by
      rw [submit_eq, record?, if_pos ((refused call).1 refusal)]
    rw [same]
    exact ⟨rfl, fun _ => rfl⟩
  · rw [keeps.atPath, lastAt?_eq_some_iff]
  · rw [keeps.atPath, lastAt?_eq_none_iff]
  · obtain ⟨difference, held, -⟩ := keeps.indexed.there path position known
    exact (List.getElem?_eq_some_iff.1 held).1

end Keeps

/-- After any calls, the findings account for the differences that were submitted, under the
limit that a policy sets or under none. -/
theorem accounts_submitAll (calls : List Call) :
    (∀ policy, ((forPolicy policy).submitAll calls).Accounts policy.cutoff
      (calls.map Call.difference)) ∧
    ((empty none).submitAll calls).Accounts none (calls.map Call.difference) :=
  ⟨fun policy => ((Keeps.empty policy.cutoff).submitAll calls).accounts,
    ((Keeps.empty none).submitAll calls).accounts⟩

/-- The last difference at a path is found, unless it was refused. -/
example :
    let calls : List Call := [.push ⟨.missing, "/2", none, none⟩, .push ⟨.extra, "/2", none, none⟩,
      .push ⟨.mismatch, "/2", none, none⟩]
    (((empty (some 2)).submitAll calls).atPath? "/2").map Difference.kind = some .extra ∧
      (((empty none).submitAll calls).atPath? "/2").map Difference.kind = some .mismatch := by
  decide

end Findings

end StructuralDiff
