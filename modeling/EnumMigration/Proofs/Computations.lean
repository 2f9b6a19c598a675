/-!
# Computations

What holds of every computation that carries a state, and of every result that may be an
error.
-/

namespace EnumMigration

/-- A computation goes on with the value and in the state that its first step ends with. -/
theorem run_bind_of_run_eq {σ α β : Type} {action : StateM σ α} {rest : α → StateM σ β}
    {state next : σ} {value : α} (h : action.run state = (value, next)) :
    (action >>= rest).run state = (rest value).run next := by
  rw [StateT.run_bind, h]
  rfl

/-- A result of which something is known is no error. -/
theorem exists_ok_of_toOption_map {ε α β : Type} {result : Except ε α} {f : α → β} {value : β}
    (h : result.toOption.map f = some value) : ∃ a, result = .ok a ∧ f a = value := by
  cases result with
  | error e => cases h
  | ok a => exact ⟨a, rfl, Option.some.inj h⟩

end EnumMigration
