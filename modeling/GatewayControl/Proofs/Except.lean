/-!
# `GatewayControl.Proofs.Except` -- results of checks in sequence
-/

namespace GatewayControl.Except

variable {ε α β : Type} {result : Except ε α} {b : β}

/-- What was checked is passed on. -/
theorem ok_bind (a : α) (next : α → Except ε β) : (Except.ok a >>= next) = next a := rfl

/-- What comes out of a sequence of checks came through all of them. -/
theorem bind_eq_ok {next : α → Except ε β} :
    (result >>= next) = .ok b ↔ ∃ a, result = .ok a ∧ next a = .ok b := by
  cases result with
  | error e => simp [bind, Except.bind]
  | ok a => simp [bind, Except.bind]

/-- What is made of a result was a result before. -/
theorem map_eq_ok {f : α → β} : result.map f = .ok b ↔ ∃ a, result = .ok a ∧ f a = b := by
  cases result with
  | error e => simp [Except.map]
  | ok a => simp [Except.map]

end GatewayControl.Except
