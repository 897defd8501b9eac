import Mathlib.Data.List.Basic

/-!
# Iterators that may panic

What an iterator gives until it ends, where every call of `next` may also panic.
-/

namespace Iteration

variable {σ β : Type*} {next : σ → Option (Option (β × σ))}

/-- The calls of `next` give these items, then the end, and none of them panics. -/
inductive Yields (next : σ → Option (Option (β × σ))) : σ → List β → Prop
  | finished {state : σ} (stop : next state = some none) : Yields next state []
  | item {state rest : σ} {value : β} {values : List β}
      (found : next state = some (some (value, rest))) (later : Yields next rest values) :
      Yields next state (value :: values)

theorem not_yields_of_panic {state : σ} {values : List β} (panics : next state = none) :
    ¬Yields next state values := by
  intro yields
  cases yields with
  | finished stop =>
      rw [panics] at stop
      cases stop
  | item found _ =>
      rw [panics] at found
      cases found

/-- After its first item an iterator gives the others. -/
theorem Yields.rest {state rest : σ} {value : β} {values : List β}
    (yields : Yields next state values) (found : next state = some (some (value, rest))) :
    ∃ later, values = value :: later ∧ Yields next rest later := by
  cases yields with
  | finished stop =>
      rw [found] at stop
      cases stop
  | item same later =>
      rw [found] at same
      cases same
      exact ⟨_, rfl, later⟩

end Iteration
