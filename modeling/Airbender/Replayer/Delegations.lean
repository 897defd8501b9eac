import Airbender.Delegations.KeccakBatching
import Airbender.Replayer.Instructions

/-!
# Delegation calls of the replayer

A call advances the machine like the executor's call does.  Depending on what the tracer
needs, it goes through the machine cycles and through the single delegations of a batch
one by one, or skips them.
-/

namespace Airbender.Replayer

open Bigint

variable {C : Type} {romBits : Nat} {T : Type} [WitnessTracer T]

/-! ## Machine cycles of a call -/

def stampRegister (offset : TimestampScalar) (index : RegisterIndex) (state : State C) :
    State C :=
  state.setRegister index { state.registers index with timestamp := state.timestamp ||| offset }

/-- One cycle with its row; all three accesses are to `x0`. -/
def delegationCycle (csr : BitVec 16) (state : State C) (tracer : T) : State C × T :=
  let nextPc := state.pc + 4
  let (x0Timestamp, state) := touchX0WithTs 2 state
  let tracedData :=
    nonMemoryRow state (0, x0Timestamp) (0, state.timestamp) (0, 0, state.timestamp ||| 1)
      nextPc csr
  (state.setPc nextPc, WitnessTracer.writeNonMemoryFamilyData .shiftBinaryCsr tracedData tracer)

/-- The time step between two cycles of a batch; after the last one the time stays. -/
def stepUnlessLast (remaining : Nat) (state : State C) : Option (State C) :=
  if remaining = 0 then some state else state.advance timestampStep

def delegationCycles (csr : BitVec 16) : Nat → State C → T → Option (State C × T)
  | 0, state, tracer => some (state, tracer)
  | remaining + 1, state, tracer => do
      let (state, tracer) := delegationCycle csr state tracer
      let state ← stepUnlessLast remaining state
      delegationCycles csr remaining state tracer

/-- The effect of the cycles of a batch, without rows. -/
def skipCycles (numCalls : Nat) (state : State C) : Option (State C) := do
  let state ← state.advance (Vm.batchDuration numCalls)
  let state := state.setPc (state.pc + BitVec.ofNat 32 (4 * numCalls))
  some (state.touchX0 2)

def cyclesOrSkip (needsCycleData : Bool) (csr : BitVec 16) (numCalls : Nat) (state : State C)
    (tracer : T) : Option (State C × T) :=
  if needsCycleData then
    delegationCycles csr numCalls state tracer
  else
    (skipCycles numCalls state).map fun state => (state, tracer)

/-! ## Bigint -/

def bigintCsr : BitVec 16 := bigintOpsWithControlCsrRegister.setWidth 16

/-- The registers of a call whose memory accesses are skipped. -/
def skipBigint (state : State C) (ram : ReplayerRam romBits) :
    Option (State C × ReplayerRam romBits) := do
  let ram ← ram.skipIfReplaying 16
  let ((ts, expectedOf), ram) ← ram.readWord
  guard (ts = 0)
  let (_, state) := readRegisterWithTs 3 10 state
  let (_, state) := readRegisterWithTs 3 11 state
  let (_, state) := writeRegisterWithTs 3 12 expectedOf state
  some (state, ram)

/-- Words as read, with the value left at each. -/
def readWriteData (words : List (TimestampScalar × U32)) (writeValues : List U32) :
    List RegisterOrIndirectReadWriteData :=
  List.zipWith (fun word writeValue => ⟨word.2, writeValue, .fromScalar word.1⟩) words
    writeValues

def readData (words : List (TimestampScalar × U32)) : List RegisterOrIndirectReadData :=
  words.map fun word => ⟨word.2, .fromScalar word.1⟩

def bigintDelegation [Ruint] (state : State C) (ram : ReplayerRam romBits) (tracer : T) :
    Option (State C × ReplayerRam romBits × T) := do
  let writeTs := state.timestamp ||| 3
  let ((x10, x10Ts), state) := readRegisterWithTs 3 10 state
  let ((x11, x11Ts), state) := readRegisterWithTs 3 11 state
  let x12 := (state.registers 12).value
  let (bWords, ram) ← ram.readWords 8
  let (aWords, ram) ← ram.readWords 8
  let ((ts, expectedOf), ram) ← ram.readWord
  guard (ts = 0)
  let (resultValue, overflow) ←
    bigintImpl (limbsOfWords 4 (aWords.map Prod.snd)) (limbsOfWords 4 (bWords.map Prod.snd)) x12
  let newX12 : U32 := if overflow then 1 else 0
  guard (expectedOf = newX12)
  let ((newX12, _, x12Ts), state) := writeRegisterWithTs 3 12 newX12 state
  let witness : DelegationWitness :=
    { writeTimestamp := writeTs
      regAccesses :=
        [⟨x10, x10, .fromScalar x10Ts⟩, ⟨x11, x11, .fromScalar x11Ts⟩,
          ⟨x12, newX12, .fromScalar x12Ts⟩]
      indirectReads := readData bWords
      indirectWrites := readWriteData aWords (wordsOfLimbs resultValue.toList)
      variablesOffsets := [] }
  some (state, ram, WitnessTracer.writeDelegation bigintCsr witness tracer)

/-- The one cycle of a call, with its row if the tracer needs it. -/
def cycleOrSkip (needsCycleData : Bool) (csr : BitVec 16) (state : State C) (tracer : T) :
    State C × T :=
  if needsCycleData then
    delegationCycle csr state tracer
  else
    ((state.setPc (state.pc + 4)).touchX0 2, tracer)

def bigintCall [Ruint] (state : State C) (ram : ReplayerRam romBits) (tracer : T) :
    Option (State C × ReplayerRam romBits × T) := do
  let needsCycleData :=
    WitnessTracer.needsTracingDataForCircuitFamily .shiftBinaryCsr tracer
  let needsDelegationData :=
    WitnessTracer.needsTracingDataForDelegationType bigintCsr tracer
  -- the source spells out the case where neither is needed, with the same effect
  let (state, tracer) := cycleOrSkip needsCycleData bigintCsr state tracer
  if needsDelegationData then
    bigintDelegation state ram tracer
  else
    (skipBigint state ram).map fun (state, ram) => (state, ram, tracer)

/-! ## Blake2s -/

def blakeCsr : BitVec 16 := blake2sDelegationCsrRegister.setWidth 16

/-- What the loop over the rounds carries along. -/
structure BlakeLoop where
  currentTimestamp : TimestampScalar
  controlFlowReg : U32
  x10Timestamp : TimestampScalar
  x11Timestamp : TimestampScalar
  x12Timestamp : TimestampScalar
  stateTimestamps : List TimestampScalar
  inputTimestamps : List TimestampScalar
  blakeState : Blake2s.FullState

/-- The row of one round and the loop after it.  From the second round on all words were
last accessed by the round before. -/
def blakeRound (x10 x11 x12 : U32) (input : Vector U32 16) (callRound : Nat)
    (loop : BlakeLoop) : DelegationWitness × BlakeLoop :=
  let shiftedPermutation :=
    Blake2s.truncatePermutation (Blake2s.permutationBitmask loop.controlFlowReg <<< 1)
  let updatedControlFlow :=
    Blake2s.packControl (Blake2s.controlBitmask x12) shiftedPermutation
  let writeTs := loop.currentTimestamp ||| 3
  let started :=
    if callRound = 0 then Blake2s.initExtendedState x12 loop.blakeState else loop.blakeState
  let updated := Blake2s.batchRound x12 input started callRound
  let witness : DelegationWitness :=
    { writeTimestamp := writeTs
      regAccesses :=
        [⟨x10, x10, .fromScalar loop.x10Timestamp⟩, ⟨x11, x11, .fromScalar loop.x11Timestamp⟩,
          ⟨loop.controlFlowReg, updatedControlFlow, .fromScalar loop.x12Timestamp⟩]
      indirectReads := readData (loop.inputTimestamps.zip input.toList)
      indirectWrites :=
        readWriteData (loop.stateTimestamps.zip loop.blakeState.toWords.toList)
          updated.toWords.toList
      variablesOffsets := [] }
  (witness,
    { currentTimestamp := loop.currentTimestamp + timestampStep
      controlFlowReg := updatedControlFlow
      x10Timestamp := writeTs
      x11Timestamp := writeTs
      x12Timestamp := writeTs
      stateTimestamps := List.replicate 24 writeTs
      inputTimestamps := List.replicate 16 writeTs
      blakeState := updated })

/-- The rounds from `callRound` on, `remaining` of them. -/
def blakeRounds (x10 x11 x12 : U32) (input : Vector U32 16) :
    Nat → Nat → BlakeLoop → T → BlakeLoop × T
  | 0, _, loop, tracer => (loop, tracer)
  | remaining + 1, callRound, loop, tracer =>
      let (witness, loop) := blakeRound x10 x11 x12 input callRound loop
      blakeRounds x10 x11 x12 input remaining (callRound + 1) loop
        (WitnessTracer.writeDelegation blakeCsr witness tracer)

def finishBlake (finalX12 : U32) (state : State C) : State C :=
  let state := stampRegister 3 10 state
  let state := stampRegister 3 11 state
  state.setRegister 12 ⟨state.timestamp ||| 3, finalX12⟩

/-- The loop before the first round. -/
def blakeStart (timestampOnEntry : TimestampScalar) (x12 : U32) (state : State C)
    (words inputWords : List (TimestampScalar × U32)) : BlakeLoop where
  currentTimestamp := timestampOnEntry
  controlFlowReg := x12
  x10Timestamp := (state.registers 10).timestamp
  x11Timestamp := (state.registers 11).timestamp
  x12Timestamp := (state.registers 12).timestamp
  stateTimestamps := words.map Prod.fst
  inputTimestamps := inputWords.map Prod.fst
  blakeState := .ofWords (Vm.arrayOfWords 24 (words.map Prod.snd))

/-- The rounds of a call one by one, after its cycles. -/
def blakeDelegations (timestampOnEntry : TimestampScalar) (x10 x11 x12 : U32)
    (state : State C) (ram : ReplayerRam romBits) (tracer : T) :
    Option (State C × ReplayerRam romBits × T) := do
  let (words, ram) ← ram.readWords 24
  let (inputWords, ram) ← ram.readWords 16
  let start := blakeStart timestampOnEntry x12 state words inputWords
  let input := Vm.arrayOfWords 16 (inputWords.map Prod.snd)
  let (loop, tracer) := blakeRounds x10 x11 x12 input (Blake2s.numRounds x12) 0 start tracer
  guard (loop.currentTimestamp - timestampStep = state.timestamp)
  some (finishBlake (Blake2s.finalX12 x12) state, ram, tracer)

def blake2RoundFunctionCall (state : State C) (ram : ReplayerRam romBits) (tracer : T) :
    Option (State C × ReplayerRam romBits × T) := do
  let needsCycleData :=
    WitnessTracer.needsTracingDataForCircuitFamily .shiftBinaryCsr tracer
  let needsDelegationData :=
    WitnessTracer.needsTracingDataForDelegationType blakeCsr tracer
  let x10 := (state.registers 10).value
  let x11 := (state.registers 11).value
  let x12 := (state.registers 12).value
  guard (romByteSize ≤ x10)
  guard (romByteSize ≤ x11)
  guard (x10 ≠ x11)
  guard (x10 % 128 = 0)
  guard (x11 % 64 = 0)
  guard (Blake2s.acceptsControl x12 = true)
  let numRounds := Blake2s.numRounds x12
  let timestampOnEntry := state.timestamp
  let (state, tracer) ← cyclesOrSkip needsCycleData blakeCsr numRounds state tracer
  if needsDelegationData then
    blakeDelegations timestampOnEntry x10 x11 x12 state ram tracer
  else
    let ram ← ram.skipIfReplaying (24 + 16)
    some (finishBlake (Blake2s.finalX12 x12) state, ram, tracer)

/-! ## Keccak -/

def keccakCsr : BitVec 16 := keccakSpecial5CsrRegister.setWidth 16

/-- What the loop over the single steps carries along. -/
structure KeccakLoop where
  currentTimestamp : TimestampScalar
  controlFlowReg : U32
  x10Timestamp : TimestampScalar
  x11Timestamp : TimestampScalar
  localState : Keccak.Words
  lowTimestamps : Vector TimestampScalar 31
  highTimestamps : Vector TimestampScalar 31

/-- The row of one step and the loop after it. -/
def keccakStep (x11 : U32) (loop : KeccakLoop) : Option (DelegationWitness × KeccakLoop) := do
  let writeTs := loop.currentTimestamp ||| 3
  let (precompile, iteration, round) := Keccak.decodeControl loop.controlFlowReg
  let nextControlReg ← Keccak.bumpControl precompile iteration round
  let stateIndexes ← Keccak.extractIndices precompile iteration round
  let positions ← Keccak.boundsCheck stateIndexes
  let stateInputs := fun j => loop.localState.get (positions j)
  let stateOutputs ← Keccak.computeOutputs precompile iteration round stateInputs
  let witness : DelegationWitness :=
    { writeTimestamp := writeTs
      regAccesses :=
        [⟨loop.controlFlowReg, nextControlReg, .fromScalar loop.x10Timestamp⟩,
          ⟨x11, x11, .fromScalar loop.x11Timestamp⟩]
      indirectReads := []
      indirectWrites := (List.finRange 6).flatMap fun j =>
        [⟨lowWord (stateInputs j), lowWord (stateOutputs j),
            .fromScalar (loop.lowTimestamps.get (positions j))⟩,
          ⟨highWord (stateInputs j), highWord (stateOutputs j),
            .fromScalar (loop.highTimestamps.get (positions j))⟩]
      variablesOffsets := (List.finRange 6).map fun j => BitVec.ofNat 16 (stateIndexes j) }
  some (witness,
    { currentTimestamp := loop.currentTimestamp + timestampStep
      controlFlowReg := nextControlReg
      x10Timestamp := writeTs
      x11Timestamp := writeTs
      localState := Keccak.scatter loop.localState positions stateOutputs
      lowTimestamps := Keccak.scatter loop.lowTimestamps positions fun _ => writeTs
      highTimestamps := Keccak.scatter loop.highTimestamps positions fun _ => writeTs })

def keccakSteps (x11 : U32) : Nat → KeccakLoop → T → Option (KeccakLoop × T)
  | 0, loop, tracer => some (loop, tracer)
  | remaining + 1, loop, tracer => do
      let (witness, loop) ← keccakStep x11 loop
      keccakSteps x11 remaining loop (WitnessTracer.writeDelegation keccakCsr witness tracer)

def finishKeccak (state : State C) : State C :=
  let state := state.setRegister 10 ⟨state.timestamp ||| 3, finalKeccakF1600ControlValue⟩
  stampRegister 3 11 state

/-- The times of the low words and of the high words. -/
def lowTimestampsOf (words : List (TimestampScalar × U32)) : Vector TimestampScalar 31 :=
  Vector.ofFn fun i => (words.map Prod.fst).getD (2 * i) 0

def highTimestampsOf (words : List (TimestampScalar × U32)) : Vector TimestampScalar 31 :=
  Vector.ofFn fun i => (words.map Prod.fst).getD (2 * i + 1) 0

/-- The loop before the first step. -/
def keccakStart (timestampOnEntry : TimestampScalar) (x10 : U32) (state : State C)
    (words : List (TimestampScalar × U32)) : KeccakLoop where
  currentTimestamp := timestampOnEntry
  controlFlowReg := x10
  x10Timestamp := (state.registers 10).timestamp
  x11Timestamp := (state.registers 11).timestamp
  localState := limbsOfWords 31 (words.map Prod.snd)
  lowTimestamps := lowTimestampsOf words
  highTimestamps := highTimestampsOf words

/-- The steps of a call one by one, after its cycles. -/
def keccakDelegations (timestampOnEntry : TimestampScalar) (x10 x11 : U32) (state : State C)
    (ram : ReplayerRam romBits) (tracer : T) :
    Option (State C × ReplayerRam romBits × T) := do
  let (words, ram) ← ram.readWords 62
  let start := keccakStart timestampOnEntry x10 state words
  let (loop, tracer) ← keccakSteps x11 numDelegationCallsForKeccakF1600 start tracer
  guard (loop.currentTimestamp - timestampStep = state.timestamp)
  some (finishKeccak state, ram, tracer)

def keccakSpecial5Call (state : State C) (ram : ReplayerRam romBits) (tracer : T) :
    Option (State C × ReplayerRam romBits × T) := do
  let needsCycleData :=
    WitnessTracer.needsTracingDataForCircuitFamily .shiftBinaryCsr tracer
  let needsDelegationData :=
    WitnessTracer.needsTracingDataForDelegationType keccakCsr tracer
  let x10 := (state.registers 10).value
  let x11 := (state.registers 11).value
  guard (romByteSize ≤ x11)
  guard (x10 < (1 : U32) <<< 11)
  guard (x11 % 256 = 0)
  guard (x10 = initialKeccakF1600ControlValue)
  let numCalls := numDelegationCallsForKeccakF1600
  let timestampOnEntry := state.timestamp
  let (state, tracer) ← cyclesOrSkip needsCycleData keccakCsr numCalls state tracer
  let expectedTimestamp ← checkedAdd timestampOnEntry (Vm.batchDuration numCalls)
  guard (state.timestamp = expectedTimestamp)
  if needsDelegationData then
    keccakDelegations timestampOnEntry x10 x11 state ram tracer
  else
    let ram ← ram.skipIfReplaying 62
    some (finishKeccak state, ram, tracer)

/-! ## Dispatch -/

/-- `call_delegation`; any other immediate is undefined behaviour. -/
def callDelegation [Ruint] (state : State C) (ram : ReplayerRam romBits)
    (instr : Instruction) (tracer : T) : Option (State C × ReplayerRam romBits × T) :=
  if instr.imm = DelegationType.bigInt.code then
    bigintCall state ram tracer
  else if instr.imm = DelegationType.blake.code then
    blake2RoundFunctionCall state ram tracer
  else if instr.imm = DelegationType.keccak.code then
    keccakSpecial5Call state ram tracer
  else
    none

end Airbender.Replayer
