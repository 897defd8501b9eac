import Airbender.Delegations.Blake2sBatching
import Airbender.Vm.Counters
import Airbender.Vm.DelegationCalls

/-!
# The batched Blake2s call and its rounds

The executor's call against seven or ten applications of the round function.
-/

namespace Airbender.Vm

open Blake2s OfflineMemory

variable {C : Type} [Counters C] {romBits : Nat}

/-- The words at `x10` after a call are those the batch computes. -/
theorem BlakeCall.wordsAt_x10
    {state state' : State C} {ram ram' : RamWithRomRegion romBits}
    {events : List SnapshotEvent} {lastTimestamp registerTimestamp : TimestampScalar}
    {writes reads : List RamAccess}
    (call : BlakeCall state ram state' ram' events lastTimestamp registerTimestamp writes reads) :
    ram'.wordsAt (state.registers 10).value 24 = (blakeOutput state ram).toList := by
  have performs := call.performs
  rw [List.map_append, performs_append_iff] at performs
  obtain ⟨middle, written, read⟩ := performs
  obtain ⟨aligned, fits⟩ :=
    toNat_of_aligned (show 128 ∣ 2 ^ 32 by decide) (by decide) call.x10_aligned
  have keeps :
      ∀ access ∈ reads.map RamAccess.toAccess,
        access.after.value = access.before.value := by
    intro access member
    obtain ⟨ramAccess, inReads, rfl⟩ := List.mem_map.mp member
    rw [RamAccess.toAccess_after, call.reads_after ramAccess inReads]
    rfl
  have readKeeps := read.preserved Register.value keeps
  let middleRam : RamWithRomRegion romBits := ⟨middle, ram.len⟩
  have writtenRam :
      Performs ram.backing (writes.map RamAccess.toAccess) middleRam.backing := written
  have afterWrites :=
    RamWithRomRegion.wordsAt_of_performs (by omega) (by omega) writtenRam call.writes_address
  have values :
      (writes.map fun access => access.after.value) = (blakeOutput state ram).toList := by
    have afters := congrArg (List.map Register.value) call.writes_after
    rw [List.map_map, List.map_map] at afters
    exact afters.trans (List.map_id _)
  have keptWords :
      ram'.wordsAt (state.registers 10).value 24 =
        middleRam.wordsAt (state.registers 10).value 24 :=
    RamWithRomRegion.wordsAt_congr readKeeps _ _
  rw [keptWords, afterWrites, values]

/-- The batched call leaves the words and the control word that its rounds leave when
each is fed the words and the control word of the round before, and before each round
exactly the permutation bit of that round is set. -/
theorem blake2RoundFunctionCall_eq_roundCalls
    {state state' : State C} {ram ram' : RamWithRomRegion romBits}
    {events : List SnapshotEvent}
    (call : blake2RoundFunctionCall state ram = some (state', ram', events)) :
    let x10 := (state.registers 10).value
    let x12 := (state.registers 12).value
    let words := arrayOfWords 24 (ram.wordsAt x10 24)
    let input := arrayOfWords 16 (ram.wordsAt (state.registers 11).value 16)
    let count := if reducedRounds x12 then 7 else 10
    (∃ finalWords,
        roundCalls input words x12 count = some (finalWords, (state'.registers 12).value) ∧
          ram'.wordsAt x10 24 = finalWords.toList) ∧
      ∀ round < count,
        ∃ currentWords currentX12,
          roundCalls input words x12 round = some (currentWords, currentX12) ∧
            permutationBitmask currentX12 = (1 : U32) <<< round := by
  obtain ⟨lastTimestamp, registerTimestamp, writes, reads, spec⟩ :=
    blake2RoundFunctionCall_eq_some call
  have finalControl :
      (state'.registers 12).value = finalX12 (state.registers 12).value := by
    rw [spec.state_eq]
    rfl
  refine ⟨⟨blakeOutput state ram, ?_, spec.wordsAt_x10⟩, ?_⟩
  · rw [finalControl]
    exact roundCalls_numRounds spec.accepts _ _
  · intro round inBatch
    exact roundCalls_permutationBitmask spec.accepts _ _ inBatch

/-- Just above the ROM: a state window, an input window, and seven rounds to run. -/
def reducedRoundsState : State DelegationsCounters where
  registers := fun index =>
    if index = 10 then ⟨0, 0x400000⟩
    else if index = 11 then ⟨0, 0x400080⟩
    else if index = 12 then ⟨0, 0x90000⟩
    else ⟨0, 0⟩
  timestamp := initialTimestamp
  pc := 0
  counters := DelegationsCounters.zero

def zeroRam : RamWithRomRegion romSecondWordBits where
  backing := fun _ => ⟨0, 0⟩
  len := 0x200000

theorem blake2RoundFunctionCall_reducedRoundsState_isSome :
    (blake2RoundFunctionCall reducedRoundsState zeroRam).isSome = true := by
  decide +kernel

theorem blake2RoundFunctionCall_eq_roundCalls_reducedRoundsState :
    ∃ state' ram' events,
      blake2RoundFunctionCall reducedRoundsState zeroRam = some (state', ram', events) ∧
        let x10 := (reducedRoundsState.registers 10).value
        let x12 := (reducedRoundsState.registers 12).value
        let words := arrayOfWords 24 (zeroRam.wordsAt x10 24)
        let input := arrayOfWords 16 (zeroRam.wordsAt (reducedRoundsState.registers 11).value 16)
        let count := if reducedRounds x12 then 7 else 10
        (∃ finalWords,
            roundCalls input words x12 count =
                some (finalWords, (state'.registers 12).value) ∧
              ram'.wordsAt x10 24 = finalWords.toList) ∧
          ∀ round < count,
            ∃ currentWords currentX12,
              roundCalls input words x12 round = some (currentWords, currentX12) ∧
                permutationBitmask currentX12 = (1 : U32) <<< round := by
  obtain ⟨⟨state', ram', events⟩, call⟩ :=
    Option.isSome_iff_exists.mp blake2RoundFunctionCall_reducedRoundsState_isSome
  exact ⟨state', ram', events, call, blake2RoundFunctionCall_eq_roundCalls call⟩

end Airbender.Vm
