import Airbender.Delegations.Bigint
import Airbender.Delegations.Blake2s
import Airbender.Delegations.Keccak
import Airbender.Vm.Ram

/-!
# Delegation calls of the executor

The bigint call, and the Blake2s and Keccak calls that execute a whole batch of
delegations at once.  `none` stands for a failed assertion, an overflowing
timestamp or an access outside the RAM.
-/

namespace Airbender.Vm

open Bigint

variable {C : Type} [Counters C] {romBits : Nat}

/-- Words read from memory, as an array of the size the source fixes. -/
def arrayOfWords (size : Nat) (words : List U32) : Vector U32 size :=
  Vector.ofFn fun i => words.getD i 0

/-- The time between the first and the last of `numCalls` consecutive calls. -/
def batchDuration (numCalls : Nat) : TimestampScalar :=
  BitVec.ofNat 64 (numCalls - 1) * timestampStep

/-- The machine state after a batch; the cycle adds the last timestamp step. -/
def finishBatch (bump : Nat → C → C) (numCalls : Nat) (lastTimestamp : TimestampScalar)
    (state : State C) : State C :=
  let state := state.setTimestamp lastTimestamp
  let state := state.withCounters (bump numCalls state.counters)
  let state := state.setPc (state.pc + BitVec.ofNat 32 (4 * numCalls))
  state.incrementFamilyCounterBy .shiftBinaryCsr numCalls

/-! ## Bigint -/

def bigintCall [Ruint] (state : State C) (ram : RamWithRomRegion romBits) :
    Option (State C × RamWithRomRegion romBits × List SnapshotEvent) := do
  let state := state.touchX0 2
  let (x10, state) := state.readRegister 3 10
  let (x11, state) := state.readRegister 3 11
  let x12 := (state.registers 12).value
  guard (romByteSize ≤ x10)
  guard (romByteSize ≤ x11)
  guard (x10 ≠ x11)
  guard (x10 % 32 = 0)
  guard (x11 % 32 = 0)
  let writeTimestamp := state.timestamp ||| 3
  let aWords ← ram.peekWords x10 8
  let (bWords, ram, reads) ← ram.readWords writeTimestamp x11 8
  let (result, overflow) ← bigintImpl (limbsOfWords 4 aWords) (limbsOfWords 4 bWords) x12
  let flag : U32 := if overflow then 1 else 0
  let state := state.writeRegister 3 12 flag
  let (ram, writes) ←
    ram.writeBackWords x10 ((wordsOfLimbs result.toList).map fun word => (word, writeTimestamp))
  let state := state.withCounters (Counters.bumpBigint 1 state.counters)
  some (state.defaultIncreasePc.incrementFamilyCounter .shiftBinaryCsr, ram,
    reads ++ writes ++ [.arbitraryValue flag])

/-! ## Blake2s -/

def blake2RoundFunctionCall (state : State C) (ram : RamWithRomRegion romBits) :
    Option (State C × RamWithRomRegion romBits × List SnapshotEvent) := do
  let x10 := (state.registers 10).value
  let x11 := (state.registers 11).value
  let x12 := (state.registers 12).value
  guard (romByteSize ≤ x10)
  guard (romByteSize ≤ x11)
  guard (x10 ≠ x11)
  guard (x10 % 128 = 0)
  guard (x11 % 64 = 0)
  guard (Blake2s.acceptsControl x12 = true)
  let numRounds := Blake2s.numRounds x12
  let lastTimestamp ← checkedAdd state.timestamp (batchDuration numRounds)
  let registerTimestamp ← checkedAdd lastTimestamp 3
  let state := state.setRegister 10 ⟨registerTimestamp, x10⟩
  let state := state.setRegister 11 ⟨registerTimestamp, x11⟩
  let state := state.setRegister 12 ⟨registerTimestamp, Blake2s.finalX12 x12⟩
  let state := state.setRegister 0 { state.registers 0 with timestamp := lastTimestamp ||| 2 }
  let words ← ram.peekWords x10 24
  let input ← ram.peekWords x11 16
  let output := Blake2s.batchWords x12 (arrayOfWords 24 words) (arrayOfWords 16 input)
  let writeTimestamp := lastTimestamp ||| 3
  let (ram, writes) ←
    ram.writeBackWords x10 (output.toList.map fun word => (word, writeTimestamp))
  let (_, ram, reads) ← ram.readWords writeTimestamp x11 16
  some (finishBatch Counters.bumpBlake2RoundFunction numRounds lastTimestamp state, ram,
    writes ++ reads)

/-! ## Keccak -/

/-- The words to write back, each with the time of the last step that writes it. -/
def keccakWriteBack (writeTimestampBase : TimestampScalar) (lanes : Keccak.Words) :
    List (U32 × TimestampScalar) :=
  (List.finRange 31).flatMap fun i =>
    let writeTimestamp := writeTimestampBase + Keccak.finalTimestampOffsets.get i
    [(lowWord (lanes.get i), writeTimestamp), (highWord (lanes.get i), writeTimestamp)]

def keccakSpecial5Call (state : State C) (ram : RamWithRomRegion romBits) :
    Option (State C × RamWithRomRegion romBits × List SnapshotEvent) := do
  let x10 := (state.registers 10).value
  let x11 := (state.registers 11).value
  guard (romByteSize ≤ x11)
  guard (x10 < (1 : U32) <<< 11)
  guard (x11 % 256 = 0)
  guard (x10 = initialKeccakF1600ControlValue)
  let numCalls := numDelegationCallsForKeccakF1600
  let lastTimestamp ← checkedAdd state.timestamp (batchDuration numCalls)
  let registerTimestamp ← checkedAdd lastTimestamp 3
  let state := state.setRegister 10 ⟨registerTimestamp, finalKeccakF1600ControlValue⟩
  let state := state.setRegister 11 ⟨registerTimestamp, x11⟩
  let state := state.setRegister 0 { state.registers 0 with timestamp := lastTimestamp ||| 2 }
  let words ← ram.peekWords x11 62
  let lanes := Keccak.keccakF1600ImplExt (limbsOfWords 31 words)
  -- no offset exceeds the duration of the batch, so these additions do not overflow
  let (ram, writes) ← ram.writeBackWords x11 (keccakWriteBack (state.timestamp ||| 3) lanes)
  some (finishBatch Counters.bumpKeccakSpecial5 numCalls lastTimestamp state, ram, writes)

/-! ## Dispatch -/

/-- `call_delegation`; any other immediate is undefined behaviour. -/
def callDelegation [Ruint] (state : State C) (ram : RamWithRomRegion romBits)
    (instr : Instruction) :
    Option (State C × RamWithRomRegion romBits × List SnapshotEvent) :=
  if instr.imm = DelegationType.bigInt.code then
    bigintCall state ram
  else if instr.imm = DelegationType.blake.code then
    blake2RoundFunctionCall state ram
  else if instr.imm = DelegationType.keccak.code then
    keccakSpecial5Call state ram
  else
    none

end Airbender.Vm
