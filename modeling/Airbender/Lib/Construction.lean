import Mathlib.Data.List.Basic
import Mathlib.Data.Option.Basic
import Mathlib.Tactic.Common

/-!
# Fallible construction

A builder changes a state step by step and may stop.  A run of it that does not stop is taken
apart into the runs of its steps.
-/

/-- Steps that change a state and may stop. -/
abbrev Construction (State : Type) (Result : Type) := StateT State Option Result

namespace Construction

variable {State Result Next : Type}

/-- The step `step` leads from `state` to `result` and `state'`. -/
def Runs (step : Construction State Result) (state : State) (result : Result) (state' : State) :
    Prop :=
  step state = some (result, state')

theorem runs_bind {step : Construction State Result} {next : Result → Construction State Next}
    {state state' : State} {result : Next} (runs : Runs (step >>= next) state result state') :
    ∃ between stateBetween, Runs step state between stateBetween ∧
      Runs (next between) stateBetween result state' := by
  obtain ⟨⟨between, stateBetween⟩, first, second⟩ := Option.bind_eq_some_iff.mp runs
  exact ⟨between, stateBetween, first, second⟩

theorem runs_pure {result given : Result} {state state' : State}
    (runs : Runs (pure given) state result state') : result = given ∧ state' = state := by
  cases runs
  exact ⟨rfl, rfl⟩

/-- A step that does not touch the state. -/
def lift (result : Option Result) : Construction State Result := StateT.lift result

theorem runs_lift {given : Option Result} {result : Result} {state state' : State}
    (runs : Runs (lift given) state result state') : given = some result ∧ state' = state := by
  obtain ⟨value, isValue, same⟩ := Option.bind_eq_some_iff.mp runs
  cases same
  exact ⟨isValue, rfl⟩

/-- Stops unless the condition holds. -/
def require (condition : Prop) [Decidable condition] : Construction State Unit :=
  lift (guard condition)

theorem runs_require {condition : Prop} [Decidable condition] {answer : Unit}
    {state state' : State} (runs : Runs (require condition) state answer state') :
    condition ∧ state' = state := by
  obtain ⟨passes, same⟩ := runs_lift runs
  exact ⟨(Option.guard_eq_some' answer).mp passes, same⟩

/-- A loop that collects one result for each element.  What every step keeps, the loop keeps
element by element. -/
theorem map_of_mapM {Input Value : Type} {step : Input → Construction State Result}
    {ofInput : Input → Value} {ofResult : Result → Value}
    (keeps : ∀ {input : Input} {state state' : State} {result : Result},
      Runs (step input) state result state' → ofResult result = ofInput input)
    {inputs : List Input} {state state' : State} {results : List Result}
    (runs : Runs (inputs.mapM step) state results state') :
    results.map ofResult = inputs.map ofInput := by
  induction inputs generalizing state results with
  | nil =>
      rw [List.mapM_nil] at runs
      obtain ⟨rfl, -⟩ := runs_pure runs
      rfl
  | cons input rest inductionHypothesis =>
      rw [List.mapM_cons] at runs
      obtain ⟨first, state₁, firstRuns, runs⟩ := runs_bind runs
      obtain ⟨later, state₂, restRuns, runs⟩ := runs_bind runs
      obtain ⟨rfl, rfl⟩ := runs_pure runs
      rw [List.map_cons, List.map_cons, keeps firstRuns, inductionHypothesis restRuns]

theorem length_of_mapM {Input : Type} {step : Input → Construction State Result}
    {inputs : List Input} {state state' : State} {results : List Result}
    (runs : Runs (inputs.mapM step) state results state') : results.length = inputs.length := by
  have same : results.map (fun _ => ()) = inputs.map fun _ => () :=
    map_of_mapM (fun _ => rfl) runs
  simpa using congrArg List.length same

end Construction
