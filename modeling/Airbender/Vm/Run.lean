import Airbender.Vm.StepFacts

/-!
# Run loops of the executor

The two run loops over a snapshotter, the snapshotter that keeps the log for the
replayer, and the machines a loop passes through.
-/

namespace Airbender.Vm

open Bigint

/-! ## Snapshotters -/

/-- What a run loop tells its snapshotter. -/
class Snapshotter (S : Type) (C : outParam Type) where
  takeSnapshotIfNeeded : State C → S → Bool × S
  takeFinalSnapshot : State C → S → S
  appendArbitraryValue : U32 → S → S
  appendMemoryRead : U32 → U32 → TimestampScalar → TimestampScalar → S → S

/-- One report of a handler. -/
def Snapshotter.append {S C : Type} [Snapshotter S C] (snapshotter : S) :
    SnapshotEvent → S
  | .memoryRead address readValue readTimestamp writeTimestamp =>
      appendMemoryRead address readValue readTimestamp writeTimestamp snapshotter
  | .arbitraryValue value => appendArbitraryValue value snapshotter

/-! ## The loops -/

section Loops

variable {C : Type} [Counters C] {romBits : Nat} {ND : Type} [NonDeterminismCSRSource ND]
  [Ruint] {S : Type} [Snapshotter S C]

/-- One pass of a loop; the flag is what the loop returns, if it returns here. -/
def loopPass (tape : InstructionTape) (machine : Machine C romBits ND) (snapshotter : S) :
    Option (Option Bool × Machine C romBits ND × S) := do
  let pc := machine.state.pc
  let (machine, events) ← runCycle tape machine
  let snapshotter := events.foldl Snapshotter.append snapshotter
  if machine.state.pc = pc then
    some (some true, machine, Snapshotter.takeFinalSnapshot machine.state snapshotter)
  else
    let (stop, snapshotter) := Snapshotter.takeSnapshotIfNeeded machine.state snapshotter
    some (if stop then some false else none, machine, snapshotter)

def runBasicUnrolled (tape : InstructionTape) :
    Nat → Machine C romBits ND → S → Option (Bool × Machine C romBits ND × S)
  | 0, machine, snapshotter => some (false, machine, snapshotter)
  | cycleBound + 1, machine, snapshotter => do
      match ← loopPass tape machine snapshotter with
      | (some flag, machine, snapshotter) => some (flag, machine, snapshotter)
      | (none, machine, snapshotter) => runBasicUnrolled tape cycleBound machine snapshotter

theorem loopPass_eq_some
    {tape : InstructionTape} {machine machine' : Machine C romBits ND}
    {snapshotter snapshotter' : S} {returned : Option Bool}
    (pass : loopPass tape machine snapshotter = some (returned, machine', snapshotter')) :
    ∃ events,
      runCycle tape machine = some (machine', events) ∧
        let appended := events.foldl Snapshotter.append snapshotter
        (machine'.state.pc = machine.state.pc ∧ returned = some true ∧
            snapshotter' = Snapshotter.takeFinalSnapshot machine'.state appended) ∨
          (machine'.state.pc ≠ machine.state.pc ∧
            let taken := Snapshotter.takeSnapshotIfNeeded machine'.state appended
            returned = (if taken.1 then some false else none) ∧ snapshotter' = taken.2) := by
  simp only [loopPass, Option.bind_eq_bind, Option.bind_eq_some_iff, Prod.exists] at pass
  obtain ⟨cycled, events, cycle, returns⟩ := pass
  split at returns
  · next stays =>
      simp only [Option.some.injEq, Prod.mk.injEq] at returns
      obtain ⟨rfl, rfl, rfl⟩ := returns
      exact ⟨events, cycle, Or.inl ⟨stays, rfl, rfl⟩⟩
  · next moves =>
      simp only [Option.some.injEq, Prod.mk.injEq] at returns
      obtain ⟨rfl, rfl, rfl⟩ := returns
      exact ⟨events, cycle, Or.inr ⟨moves, rfl, rfl⟩⟩

theorem loopPass_timestamp
    {tape : InstructionTape} {machine machine' : Machine C romBits ND}
    {snapshotter snapshotter' : S} {returned : Option Bool}
    (pass : loopPass tape machine snapshotter = some (returned, machine', snapshotter')) :
    machine.state.timestamp.toNat < machine'.state.timestamp.toNat := by
  obtain ⟨events, cycle, _⟩ := loopPass_eq_some pass
  have facts := (runCycle_facts cycle).1
  omega

/-- Every pass moves the time forward, so the loop ends. -/
def runByTimestampBound (tape : InstructionTape) (timestampBound : TimestampScalar)
    (machine : Machine C romBits ND) (snapshotter : S) :
    Option (Bool × Machine C romBits ND × S) :=
  if machine.state.timestamp < timestampBound then
    match _pass : loopPass tape machine snapshotter with
    | none => none
    | some (some flag, machine', snapshotter') => some (flag, machine', snapshotter')
    | some (none, machine', snapshotter') =>
        runByTimestampBound tape timestampBound machine' snapshotter'
  else
    some (false, machine, snapshotter)
termination_by timestampBound.toNat - machine.state.timestamp.toNat
decreasing_by
  have later := loopPass_timestamp _pass
  have early : machine.state.timestamp.toNat < timestampBound.toNat :=
    BitVec.lt_def.mp ‹machine.state.timestamp < timestampBound›
  omega

/-! ## Passes of a loop -/

/-- The passes after which a loop goes on. -/
inductive Passes (tape : InstructionTape) :
    Machine C romBits ND → S → Machine C romBits ND → S → Prop
  | refl (machine : Machine C romBits ND) (snapshotter : S) :
      Passes tape machine snapshotter machine snapshotter
  | tail {first last next : Machine C romBits ND} {before after final : S} :
      Passes tape first before last after →
      loopPass tape last after = some (none, next, final) →
      Passes tape first before next final

theorem Passes.head
    {tape : InstructionTape} {first next last : Machine C romBits ND} {before after final : S}
    (pass : loopPass tape first before = some (none, next, after))
    (rest : Passes tape next after last final) : Passes tape first before last final := by
  induction rest with
  | refl => exact (Passes.refl first before).tail pass
  | tail _ lastPass inductionHypothesis => exact (inductionHypothesis pass).tail lastPass

/-- A run of either loop: some passes, and then the end of the bound or a last pass. -/
structure Finishes (tape : InstructionTape) (machine : Machine C romBits ND) (snapshotter : S)
    (flag : Bool) (machine' : Machine C romBits ND) (snapshotter' : S) : Prop where
  cases :
    (flag = false ∧ Passes tape machine snapshotter machine' snapshotter') ∨
      ∃ last after, Passes tape machine snapshotter last after ∧
        loopPass tape last after = some (some flag, machine', snapshotter')

theorem Finishes.head
    {tape : InstructionTape} {machine next machine' : Machine C romBits ND}
    {snapshotter after snapshotter' : S} {flag : Bool}
    (pass : loopPass tape machine snapshotter = some (none, next, after))
    (rest : Finishes tape next after flag machine' snapshotter') :
    Finishes tape machine snapshotter flag machine' snapshotter' := by
  rcases rest.cases with ⟨stopped, passes⟩ | ⟨last, final, passes, lastPass⟩
  · exact ⟨Or.inl ⟨stopped, passes.head pass⟩⟩
  · exact ⟨Or.inr ⟨last, final, passes.head pass, lastPass⟩⟩

theorem runBasicUnrolled_finishes
    {tape : InstructionTape} {cycleBound : Nat} {machine machine' : Machine C romBits ND}
    {snapshotter snapshotter' : S} {flag : Bool}
    (run : runBasicUnrolled tape cycleBound machine snapshotter =
      some (flag, machine', snapshotter')) :
    Finishes tape machine snapshotter flag machine' snapshotter' := by
  induction cycleBound generalizing machine snapshotter with
  | zero =>
      simp only [runBasicUnrolled, Option.some.injEq, Prod.mk.injEq] at run
      obtain ⟨rfl, rfl, rfl⟩ := run
      exact ⟨Or.inl ⟨rfl, .refl machine snapshotter⟩⟩
  | succ cycleBound inductionHypothesis =>
      simp only [runBasicUnrolled, Option.bind_eq_bind, Option.bind_eq_some_iff] at run
      obtain ⟨⟨returned, next, after⟩, pass, rest⟩ := run
      cases returned with
      | some returnedFlag =>
          simp only [Option.some.injEq, Prod.mk.injEq] at rest
          obtain ⟨rfl, rfl, rfl⟩ := rest
          exact ⟨Or.inr ⟨machine, snapshotter, .refl machine snapshotter, pass⟩⟩
      | none => exact (inductionHypothesis rest).head pass

theorem runByTimestampBound_of_early
    {tape : InstructionTape} {timestampBound : TimestampScalar}
    {machine : Machine C romBits ND} {snapshotter : S}
    (early : machine.state.timestamp < timestampBound) :
    runByTimestampBound tape timestampBound machine snapshotter =
      (loopPass tape machine snapshotter).bind fun
        | (some flag, machine', snapshotter') => some (flag, machine', snapshotter')
        | (none, machine', snapshotter') =>
            runByTimestampBound tape timestampBound machine' snapshotter' := by
  rw [runByTimestampBound, if_pos early]
  split
  · next pass => rw [pass, Option.bind_none]
  · next pass => rw [pass, Option.bind_some]
  · next pass => rw [pass, Option.bind_some]

theorem runByTimestampBound_finishes
    {tape : InstructionTape} {timestampBound : TimestampScalar}
    {machine machine' : Machine C romBits ND} {snapshotter snapshotter' : S} {flag : Bool}
    (run : runByTimestampBound tape timestampBound machine snapshotter =
      some (flag, machine', snapshotter')) :
    Finishes tape machine snapshotter flag machine' snapshotter' := by
  induction measure : timestampBound.toNat - machine.state.timestamp.toNat
    using Nat.strong_induction_on generalizing machine snapshotter with
  | h remaining inductionHypothesis =>
      by_cases early : machine.state.timestamp < timestampBound
      · rw [runByTimestampBound_of_early early] at run
        obtain ⟨⟨returned, next, after⟩, pass, rest⟩ := Option.bind_eq_some_iff.mp run
        cases returned with
        | some returnedFlag =>
            simp only [Option.some.injEq, Prod.mk.injEq] at rest
            obtain ⟨rfl, rfl, rfl⟩ := rest
            exact ⟨Or.inr ⟨machine, snapshotter, .refl machine snapshotter, pass⟩⟩
        | none =>
            have later := loopPass_timestamp pass
            have earlyNat := BitVec.lt_def.mp early
            have shorter :
                timestampBound.toNat - next.state.timestamp.toNat < remaining := by
              omega
            exact (inductionHypothesis _ shorter rest rfl).head pass
      · rw [runByTimestampBound, if_neg early] at run
        simp only [Option.some.injEq, Prod.mk.injEq] at run
        obtain ⟨rfl, rfl, rfl⟩ := run
        exact ⟨Or.inl ⟨rfl, .refl machine snapshotter⟩⟩

end Loops

end Airbender.Vm
