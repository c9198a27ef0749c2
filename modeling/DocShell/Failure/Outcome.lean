/-!
# Outcomes

What the outcome of two steps tells about the outcome of each.
-/

namespace DocShell.Outcome

variable {ε α β γ : Type} {first : Except ε α} {second : Except ε β}

theorem map_eq_ok_iff {f : α → β} {y : β} :
    first.map f = .ok y ↔ ∃ x, first = .ok x ∧ f x = y := by
  cases first <;> simp [Except.map]

theorem map_eq_error {f : α → β} {failure : ε} :
    first.map f = .error failure ↔ first = .error failure := by
  cases first <;> simp [Except.map]

theorem map_eq_error_iff {f : α → β} :
    (∃ failure, first.map f = .error failure) ↔ ∃ failure, first = .error failure :=
  exists_congr fun _ => map_eq_error

theorem bind_map_eq_ok_iff {f : α → β → γ} {z : γ} :
    (first.bind fun x => second.map (f x)) = .ok z ↔
      ∃ x y, first = .ok x ∧ second = .ok y ∧ f x y = z := by
  cases first <;> cases second <;> simp [Except.bind, Except.map]

theorem bind_map_eq_error_iff {f : α → β → γ} :
    (∃ failure, (first.bind fun x => second.map (f x)) = .error failure) ↔
      (∃ failure, first = .error failure) ∨ ∃ failure, second = .error failure := by
  cases first <;> cases second <;> simp [Except.bind, Except.map]

end DocShell.Outcome
