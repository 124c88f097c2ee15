import EntryLint.Traced
import Mathlib.Tactic.Common

/-!
# Outcomes of traced computations

How the outcome of a computation is put together from those of its parts, one step at a time.
-/

namespace EntryLint.Traced

variable {τ ε α β : Type}

@[simp] lemma outcome_ofExcept (r : Except ε α) : (ofExcept r : Traced τ ε α).outcome = r := rfl

lemma ofExcept_ok_bind (a : α) (f : α → Traced τ ε β) :
    ((ofExcept (.ok a) : Traced τ ε α) >>= f) = f a := rfl

/-- A computation goes on with the value of its first part. -/
lemma outcome_bind_ok {x : Traced τ ε α} {a : α} (h : x.outcome = .ok a)
    (f : α → Traced τ ε β) : (x >>= f).outcome = (f a).outcome := by
  rw [outcome_bind, h]
  rfl

/-- A computation fails with its first part. -/
lemma outcome_bind_error {x : Traced τ ε α} {e : ε} (h : x.outcome = .error e)
    (f : α → Traced τ ε β) : (x >>= f).outcome = .error e := by
  rw [outcome_bind, h]
  rfl

lemma outcome_bind_eq_ok_iff {x : Traced τ ε α} {f : α → Traced τ ε β} {b : β} :
    (x >>= f).outcome = .ok b ↔ ∃ a, x.outcome = .ok a ∧ (f a).outcome = .ok b := by
  cases hx : x.outcome with
  | error e =>
    rw [outcome_bind_error hx]
    simp
  | ok a =>
    rw [outcome_bind_ok hx]
    simp

lemma outcome_bind_eq_error_iff {x : Traced τ ε α} {f : α → Traced τ ε β} {e : ε} :
    (x >>= f).outcome = .error e ↔
      x.outcome = .error e ∨ ∃ a, x.outcome = .ok a ∧ (f a).outcome = .error e := by
  cases hx : x.outcome with
  | error e' =>
    rw [outcome_bind_error hx]
    simp
  | ok a =>
    rw [outcome_bind_ok hx]
    simp

lemma outcome_mapError_eq_ok_iff {ε' : Type} {x : Traced τ ε α} {f : ε → ε'} {a : α} :
    (x.mapError f).outcome = .ok a ↔ x.outcome = .ok a := by
  rw [outcome_mapError]
  cases x.outcome with
  | error e => simp [Except.mapError]
  | ok b => simp [Except.mapError]

lemma outcome_mapError_eq_error_iff {ε' : Type} {x : Traced τ ε α} {f : ε → ε'} {e : ε'} :
    (x.mapError f).outcome = .error e ↔ ∃ e', x.outcome = .error e' ∧ f e' = e := by
  rw [outcome_mapError]
  cases x.outcome with
  | error e' => simp [Except.mapError]
  | ok b => simp [Except.mapError]

end EntryLint.Traced
