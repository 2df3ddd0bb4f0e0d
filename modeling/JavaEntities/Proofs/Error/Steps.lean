import JavaEntities.Error

/-!
# Steps that may fail

What is known of a step whose result is passed on: to a function that cannot fail, or to another
step that can.
-/

namespace JavaEntities

variable {ε α β : Type} {r : Except ε α}

/-- A mapped result is that of a success. -/
theorem map_eq_ok_iff {f : α → β} {b : β} : r.map f = .ok b ↔ ∃ a, r = .ok a ∧ f a = b := by
  cases r with
  | error e => simp [Except.map]
  | ok a => simp [Except.map]

/-- Mapping keeps the errors. -/
theorem map_eq_error_iff {f : α → β} {e : ε} : r.map f = .error e ↔ r = .error e := by
  cases r with
  | error e' => simp [Except.map]
  | ok a => simp [Except.map]

/-- An error of two steps is one of the first, or of the second after what the first gave. -/
theorem bind_eq_error {f : α → Except ε β} {e : ε} (h : (r >>= f) = .error e) :
    r = .error e ∨ ∃ a, f a = .error e := by
  cases r with
  | error e' => exact .inl (congrArg Except.error (Except.error.inj h))
  | ok a => exact .inr ⟨a, h⟩

end JavaEntities
