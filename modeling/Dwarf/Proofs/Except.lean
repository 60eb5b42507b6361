/-!
# Results that may be errors

A computation of several parts succeeds exactly when its parts do, and fails with the error of the
first part that fails.
-/

namespace Dwarf

variable {ε α β : Type}

theorem bind_eq_ok_iff {first : Except ε α} {second : α → Except ε β} {value : β} :
    (first >>= second) = .ok value ↔ ∃ inner, first = .ok inner ∧ second inner = .ok value := by
  cases first with
  | error error => simp [bind, Except.bind]
  | ok inner => simp [bind, Except.bind]

theorem bind_eq_error_iff {first : Except ε α} {second : α → Except ε β} {error : ε} :
    (first >>= second) = .error error ↔
      first = .error error ∨ ∃ inner, first = .ok inner ∧ second inner = .error error := by
  cases first with
  | error error => simp [bind, Except.bind]
  | ok inner => simp [bind, Except.bind]

theorem map_eq_ok_iff {result : Except ε α} {f : α → β} {value : β} :
    result.map f = .ok value ↔ ∃ inner, result = .ok inner ∧ f inner = value := by
  cases result with
  | error error => simp [Except.map]
  | ok inner => simp [Except.map]

theorem ok_bind (value : α) (second : α → Except ε β) :
    ((.ok value : Except ε α) >>= second) = second value :=
  rfl

theorem mapError_error {φ : Type} (error : ε) (restate : ε → φ) :
    (.error error : Except ε α).mapError restate = .error (restate error) :=
  rfl

theorem mapError_ok {φ : Type} (value : α) (restate : ε → φ) :
    (.ok value : Except ε α).mapError restate = .ok value :=
  rfl

theorem mapError_eq_error_iff {φ : Type} {result : Except ε α} {restate : ε → φ} {restated : φ} :
    result.mapError restate = .error restated ↔
      ∃ error, result = .error error ∧ restate error = restated := by
  cases result with
  | error error => simp [mapError_error]
  | ok inner => simp [mapError_ok]

theorem toOption_eq_some_iff {result : Except ε α} {value : α} :
    result.toOption = some value ↔ result = .ok value := by
  cases result with
  | error error => simp [Except.toOption]
  | ok inner => simp [Except.toOption]

end Dwarf
