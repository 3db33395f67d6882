/-!
# Outcomes that may be errors

When steps that may fail follow each other, the whole succeeds only if every step
does, and its error is the first one of a step. These lemmas take an outcome apart into
its steps.
-/

namespace StructuralDiff

namespace Outcome

variable {ε α β : Type}

/-- Two steps succeed when the first does and the second does with what it yields. -/
theorem bind_eq_ok_iff {first : Except ε α} {next : α → Except ε β} {result : β} :
    (first >>= next) = .ok result ↔ ∃ value, first = .ok value ∧ next value = .ok result := by
  cases first <;> simp [bind, Except.bind]

/-- What is made of an outcome is a success when the outcome is. -/
theorem map_eq_ok_iff {first : Except ε α} {change : α → β} {result : β} :
    first.map change = .ok result ↔ ∃ value, first = .ok value ∧ change value = result := by
  cases first <;> simp [Except.map]

/-- A step that cannot fail yields its value. -/
theorem pure_eq_ok_iff {value result : α} :
    (pure value : Except ε α) = .ok result ↔ value = result := by
  simp [pure, Except.pure]

/-- The error of an outcome that is one. -/
def error? : Except ε α → Option ε
  | .ok _ => none
  | .error error => some error

theorem error?_eq_some_iff {outcome : Except ε α} {error : ε} :
    error? outcome = some error ↔ outcome = .error error := by
  cases outcome <;> simp [error?]

theorem error?_eq_none_iff {outcome : Except ε α} :
    error? outcome = none ↔ ∃ value, outcome = .ok value := by
  cases outcome <;> simp [error?]

/-- What is made of a success is no error. -/
theorem error?_map (outcome : Except ε α) (change : α → β) :
    error? (outcome.map change) = error? outcome := by
  cases outcome <;> rfl

/-- Of two steps the first error counts. -/
theorem error?_bind {first : Except ε α} {next : α → Except ε β} {rest : Option ε}
    (onward : ∀ value, first = .ok value → error? (next value) = rest) :
    error? (first >>= next) = (error? first).or rest := by
  cases first with
  | error error => rfl
  | ok value => exact onward value rfl

/-- Of a step for every item the first error counts. -/
theorem error?_mapM (act : α → Except ε β) (items : List α) :
    error? (items.mapM act) = items.findSome? fun item => error? (act item) := by
  induction items with
  | nil => rfl
  | cons item items ih =>
    have others : ∀ value, act item = .ok value →
        error? (items.mapM act >>= fun values => pure (value :: values)) =
          error? (items.mapM act) := by
      intro value _
      cases items.mapM act <;> rfl
    rw [List.mapM_cons, List.findSome?_cons, error?_bind others, ih]
    cases error? (act item) <;> rfl

end Outcome

end StructuralDiff
