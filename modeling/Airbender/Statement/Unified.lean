import Airbender.Statement.Verification

/-!
# The statement over the unified circuit

`verify_unified_circuit_statement`: one circuit for all cycles, which also does inits and
teardowns, and the delegation circuits.
-/

namespace Airbender.Statement

open StreamReader

/-! ## Unified proofs -/

/-- The lazy inits of two consecutive proofs, limb by limb. -/
def checkLazyInits (previous current : AuxArgumentsBoundaryValues) : Option PUnit := do
  let lastPrevious ←
    parseFieldElsAsU32FromU16LimbsChecked previous.lazyInitOneBeforeLastRow
  let firstCurrent ← parseFieldElsAsU32FromU16LimbsChecked current.lazyInitFirstRow
  guard
    (lastPrevious < firstCurrent ∨
      lastPrevious = 0 ∧
        toReducedU32 (previous.teardownValueOneBeforeLastRow.get 0) = 0 ∧
        toReducedU32 (previous.teardownValueOneBeforeLastRow.get 1) = 0 ∧
        toReducedU32 (previous.teardownTimestampOneBeforeLastRow.get 0) = 0 ∧
        toReducedU32 (previous.teardownTimestampOneBeforeLastRow.get 1) = 0)

/-- What the loop over the unified proofs carries along. -/
structure UnifiedState where
  log : ProofLog 1
  outputs : ProofOutputs 1 1 1
  totalCycles : Nat

namespace UnifiedState

/-- One unified proof. -/
def proof (setup : MerkleTreeCaps) (capacity : U32) (verifierFn : VerifierFunctionPointer 1 1 1)
    (circuitSequence : Nat) (state : UnifiedState) : Verifier UnifiedState := do
  let totalCycles := state.totalCycles + capacity.toNat
  Reader.check (totalCycles < maxCycles)
  let current ← nextProof verifierFn setup circuitSequence state.outputs
  let previous := state.outputs.previous circuitSequence
  Reader.check (0 < circuitSequence →
    checkLazyInits (previous.lazyInitBoundaryValues.get 0)
      (current.lazyInitBoundaryValues.get 0) = some ⟨⟩)
  pure
    { log :=
        state.log.accept (.unified circuitSequence current) current.grandProductAccumulator
          (state.log.delegationSetAccumulator + current.delegationArgumentAccumulator.get 0)
      outputs := state.outputs.write circuitSequence current
      totalCycles := totalCycles }

end UnifiedState

/-! ## The statement -/

/-- The buffers that the source leaves uninitialised. -/
structure UnifiedBuffers where
  outputs : ProofOutputs 1 1 1
  delegation : ProofOutput 1 0 0

/-- The arguments of `verify_unified_circuit_statement`, under its const parameter. -/
structure UnifiedArguments where
  baseLayer : Bool
  memoryDelegationPowBits : Nat
  unifiedCircuitSetup : MerkleTreeCaps
  unifiedCircuitCapacity : U32
  unifiedCircuitVerifier : VerifierFunctionPointer 1 1 1
  delegationCircuitsVerifiers : List DelegationCircuit

/-- The states in which the loops over proofs ended. -/
structure UnifiedProofs where
  finalState : FinalMachineState
  unified : UnifiedState
  delegations : DelegationState 1

def UnifiedProofs.memorySeed (proofs : UnifiedProofs) : Seed :=
  proofs.delegations.log.transcript.finalizeReset.1

namespace UnifiedArguments

variable (arguments : UnifiedArguments)

/-- All unified proofs: there is at least one. -/
def proofs (buffers : UnifiedBuffers) (finalState : FinalMachineState) :
    Verifier UnifiedState := do
  let numCircuits ← Reader.token
  Reader.check (0 < numCircuits)
  let log : ProofLog 1 := .start finalState.transcript
  Reader.loop
    (UnifiedState.proof arguments.unifiedCircuitSetup arguments.unifiedCircuitCapacity
      arguments.unifiedCircuitVerifier)
    0 numCircuits.toNat
    { log := log.announce numCircuits reducedMachineCircuitFamilyIdx
      outputs := buffers.outputs
      totalCycles := 0 }

/-- "purely to match dumping code for unrolled circuits": no init and teardown proofs. -/
def readNoInitsAndTeardowns (log : ProofLog 1) : Verifier (ProofLog 1) := do
  let numInitAndTeardownCircuits ← Reader.token
  Reader.check (numInitAndTeardownCircuits = 0)
  pure { log with proofCounts := log.proofCounts ++ [numInitAndTeardownCircuits] }

/-- The challenges of the transcript are compared with the first buffer; this draw has none
for the machine state. -/
def checkChallenges (expectedChallenges : ExternalChallenges)
    (proofOutput0 : ProofOutput 1 1 1) : Verifier PUnit := do
  Reader.check (expectedChallenges.memoryArgument = proofOutput0.memoryChallenges)
  Reader.check (expectedChallenges.delegationArgument =
    some (proofOutput0.delegationChallenges.get 0))

/-- All proofs, from the final machine state to the last delegation proof. -/
def verifyProofs (buffers : UnifiedBuffers) : Verifier UnifiedProofs := do
  let finalState ← FinalMachineState.read
  let unified ← arguments.proofs buffers finalState
  let log ← readNoInitsAndTeardowns unified.log
  checkFullBuffer log.transcript
  let delegations ← DelegationState.run unified.outputs.proofOutput0.memoryChallenges
    unified.outputs.proofOutput0.delegationChallenges arguments.delegationCircuitsVerifiers
    (.start log buffers.delegation true)
  pure
    { finalState := finalState
      unified := unified
      delegations := delegations }

/-- What follows the proofs. -/
def finish (proofs : UnifiedProofs) : Verifier (StatementRun 1) := do
  let proofOutput0 := proofs.unified.outputs.proofOutput0
  let memorySeed := proofs.memorySeed
  let powChallenge ← readPowChallenge
  let expectedChallenges ← Reader.ofOption
    (ExternalChallenges.drawFromTranscriptSeed memorySeed true
      arguments.memoryDelegationPowBits powChallenge)
  checkChallenges expectedChallenges proofOutput0
  checkAccumulators proofs.finalState proofOutput0.memoryChallenges
    (proofOutput0.machineStatePermutationChallenges.get 0) proofs.delegations.log
  let chain ← chainOutput arguments.baseLayer proofs.finalState [proofOutput0.setupCaps]
  pure
    { finalState := proofs.finalState
      proofCounts := proofs.delegations.log.proofCounts
      accepted := proofs.delegations.log.accepted
      memorySeed := memorySeed
      powChallenge := powChallenge
      chainPreimage := chain.2
      output := (proofs.finalState.outputRegisters, chain.1) }

end UnifiedArguments

/-- `verify_unified_circuit_statement`. -/
def verifyUnifiedCircuitStatement (arguments : UnifiedArguments) (buffers : UnifiedBuffers) :
    Verifier (StatementRun 1) := do
  let proofs ← arguments.verifyProofs buffers
  arguments.finish proofs

end Airbender.Statement
