import Mathlib
import StructuralDiff.Proofs.LikePolicies

/-!
# Comparisons that stop early

A limit cuts the findings short and changes nothing else: what a limited comparison
records is a prefix of what the comparison without the limit records, and it
overlooks a failure only when it has recorded as much as it may.
-/

namespace StructuralDiff

namespace Policy

/-- A policy that records at most a number of differences and is otherwise like
another one. To stop at the first difference is a limit of one. -/
inductive Limits (policy : Policy) : Nat → Policy → Prop where
  | byCount (limit : Nat) (positive : 1 ≤ limit) :
      Limits policy limit { policy with maxDiffs := some limit }
  | byFirst (count : Option Nat) :
      Limits policy 1 { policy with failFast := true, maxDiffs := count }

namespace Limits

variable {policy limited : Policy} {limit : Nat}

/-- The limit is the number of differences after which recording stops. -/
theorem cutoff_eq (limits : policy.Limits limit limited) (patient : policy.failFast = false) :
    limited.cutoff = some limit := by
  cases limits with
  | byCount limit => simp [cutoff, patient]
  | byFirst count => simp [cutoff]

/-- A limit does not change the walk. -/
theorem walk_eq (limits : policy.Limits limit limited) :
    Comparison.walk limited = Comparison.walk policy := by
  have alike : limited.ComparesAlike policy := by
    cases limits <;> exact ⟨⟨rfl, rfl, rfl, rfl⟩, rfl⟩
  have leftOut : limited.excludes = policy.excludes := by
    cases limits <;> rfl
  funext path reference candidate
  exact alike.walk_eq leftOut path reference candidate

/-- A limited comparison ends as the walk without the limit and the limit say. -/
theorem perform_ends (limits : policy.Limits limit limited) (patient : policy.failFast = false)
    (reference candidate : Value) :
    Comparison.Ends (Comparison.walk policy .root reference candidate) (some limit)
      (Comparison.perform limited reference candidate) := by
  rw [← limits.cutoff_eq patient, ← limits.walk_eq]
  exact Comparison.perform_ends limited reference candidate

end Limits

end Policy

namespace Comparison

variable {trace : Trace} {limit : Nat} {full cut : Except ComparisonError Findings}

/-- A complete comparison is cut to its first differences. -/
theorem Ends.take_of_ok {findings : Findings} (whole : Ends trace none (.ok findings))
    (limited : Ends trace (some limit) cut) :
    ∃ kept, cut = .ok kept ∧ kept.items = findings.items.take limit := by
  cases whole with
  | cut impossible => cases impossible
  | complete complete _ items =>
    cases limited with
    | complete _ within kept =>
      refine ⟨_, rfl, ?_⟩
      rw [kept, items, List.take_of_length_le (within limit rfl)]
    | cut limited _ kept =>
      cases limited
      exact ⟨_, rfl, by rw [kept, items]⟩
    | failed failure => simp [complete] at failure

/-- A comparison that fails without a limit fails alike under one, unless it has
recorded as much as it may before. -/
theorem Ends.error_or_full {error : ComparisonError} (failing : Ends trace none (.error error))
    (limited : Ends trace (some limit) cut) :
    cut = .error error ∨ ∃ kept, cut = .ok kept ∧ kept.items.length = limit := by
  cases failing with
  | failed failure =>
    cases limited with
    | complete whole => simp [failure] at whole
    | cut limited beyond kept =>
      cases limited
      refine .inr ⟨_, rfl, ?_⟩
      rw [kept, List.length_take]
      omega
    | failed same =>
      left
      rw [failure] at same
      cases same
      rfl

/-- A lower limit cuts what a higher one leaves. -/
theorem Ends.take_of_le {findings : Findings} {lower : Nat} (low : lower ≤ limit)
    (higher : Ends trace (some limit) (.ok findings)) (limited : Ends trace (some lower) cut) :
    ∃ kept, cut = .ok kept ∧ kept.items = findings.items.take lower := by
  cases higher with
  | complete whole _ items =>
    exact Ends.take_of_ok (.complete whole (by simp) items) limited
  | cut same beyond items =>
    cases same
    cases limited with
    | complete _ within => have := within lower rfl; omega
    | cut same _ kept =>
      cases same
      refine ⟨_, rfl, ?_⟩
      rw [kept, items, List.take_take, Nat.min_eq_left low]
    | failed _ within => have := within lower rfl; omega

/-- A limited comparison yields a prefix of the comparison without the limit. -/
theorem perform_limited_take {policy : Policy} (unlimited : policy.maxDiffs = none)
    (patient : policy.failFast = false) {limited : Policy} (limits : policy.Limits limit limited)
    (reference candidate : Value) :
    (∀ findings, perform policy reference candidate = .ok findings →
      ∃ kept, perform limited reference candidate = .ok kept ∧
        kept.items = findings.items.take (min limit findings.items.length)) ∧
    (∀ error, perform policy reference candidate = .error error →
      perform limited reference candidate = .error error ∨
        ∃ kept, perform limited reference candidate = .ok kept ∧ kept.items.length = limit) ∧
    (∀ findings, perform limited reference candidate = .ok findings →
      ∀ lower tighter, lower ≤ limit → policy.Limits lower tighter →
        ∃ kept, perform tighter reference candidate = .ok kept ∧
          kept.items = findings.items.take (min lower findings.items.length)) := by
  have whole := perform_ends policy reference candidate
  have noCutoff : policy.cutoff = none := by simp [Policy.cutoff, unlimited, patient]
  rw [noCutoff] at whole
  have some := limits.perform_ends patient reference candidate
  refine ⟨?_, ?_, ?_⟩
  · intro findings done
    obtain ⟨kept, cut, items⟩ := Ends.take_of_ok (done ▸ whole) some
    exact ⟨kept, cut, by rw [items, List.take_eq_take_min]⟩
  · intro error failing
    exact Ends.error_or_full (failing ▸ whole) some
  · intro findings done lower tighter low tightens
    obtain ⟨kept, cut, items⟩ :=
      Ends.take_of_le low (done ▸ some) (tightens.perform_ends patient reference candidate)
    exact ⟨kept, cut, by rw [items, List.take_eq_take_min]⟩

/-- The comparison that stops at the first difference finds the one that is found first. -/
theorem perform_limited_at_first :
    ∃ findings kept,
      perform .default (.array [.bool true, .null]) (.array [.bool false, .text "a"]) =
        .ok findings ∧
      findings.items.map Difference.path = ["/1", "/2"] ∧
      perform { Policy.default with failFast := true, maxDiffs := some 5 }
        (.array [.bool true, .null]) (.array [.bool false, .text "a"]) = .ok kept ∧
      kept.items.map Difference.path = ["/1"] := by
  have done : perform .default (.array [.bool true, .null]) (.array [.bool false, .text "a"]) =
      .ok {
        items := [⟨.mismatch, "/1", some (.bool true), some (.bool false)⟩,
          ⟨.mismatch, "/2", some .null, some (.text "a")⟩]
        positions := [("/1", 0), ("/2", 1)]
        limit := none } := by
    cbv
  obtain ⟨kept, doneToo, items⟩ :=
    (perform_limited_take rfl rfl (.byFirst (some 5)) _ _).1 _ done
  refine ⟨_, kept, done, rfl, doneToo, ?_⟩
  rw [items]
  rfl

end Comparison

end StructuralDiff
