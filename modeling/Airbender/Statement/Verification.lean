import Airbender.Statement.RecursionChain

/-!
# Steps of a statement verifier

The final machine state, the proofs of one kind after another, the delegation proofs and the
final checks: what `verify_full_statement_for_unrolled_circuits` and
`verify_unified_circuit_statement` have in common.
-/

namespace Airbender.Statement

open StreamReader

/-! ## The final machine state -/

structure FinalMachineState where
  registers : Vector RegisterFinalData 32
  finalPc : U32
  finalTsLow : U32
  finalTsHigh : U32
deriving DecidableEq

namespace FinalMachineState

def read : Verifier FinalMachineState := do
  let registers ← readRegisters
  -- x0 is always 0
  Reader.check (registers[0].value = 0)
  let finalPc ← Reader.token
  let finalTsLow ← Reader.token
  let finalTsHigh ← Reader.token
  pure
    { registers := registers
      finalPc := finalPc
      finalTsLow := finalTsLow
      finalTsHigh := finalTsHigh }

variable (state : FinalMachineState)

def finalPcBuffer : List U32 :=
  Statement.finalPcBuffer state.finalPc state.finalTsLow state.finalTsHigh

/-- The words that a transcript starts with. -/
def transcriptWords : List U32 :=
  registerWords state.registers ++ state.finalPcBuffer

/-- The transcript before any proof. -/
def transcript : Blake2sBufferingTranscript :=
  (Blake2sBufferingTranscript.new.absorb (registerWords state.registers)).absorb
    state.finalPcBuffer

/-- The registers that carry the output of the base program: 10 to 17. -/
def outputRegisters : Vector U32 8 :=
  Vector.ofFn fun i : Fin 8 => state.registers[10 + i.val].value

end FinalMachineState

/-! ## The next proof of a kind -/

section Proofs

variable {numDelegationChallenges numAuxBoundaryValues numMachineStateChallenges : Nat}

/-- The verifier of a proof writes to the current buffer; the checks look at the previous one. -/
def nextProof
    (verifierFn :
      VerifierFunctionPointer numDelegationChallenges numAuxBoundaryValues
        numMachineStateChallenges)
    (setup : MerkleTreeCaps) (circuitSequence : Nat)
    (outputs :
      ProofOutputs numDelegationChallenges numAuxBoundaryValues numMachineStateChallenges) :
    Verifier
      (ProofOutput numDelegationChallenges numAuxBoundaryValues numMachineStateChallenges) := do
  let current ← verifierFn (outputs.current circuitSequence)
  Reader.check (current.circuitSequence = 0)
  Reader.check (current.delegationType = 0)
  checkContinuity setup circuitSequence (outputs.previous circuitSequence) current
  pure current

end Proofs

/-- "If we will even want to break an execution here, we will have full buffer (unflushed)". -/
def checkFullBuffer (transcript : Blake2sBufferingTranscript) : Verifier PUnit :=
  Reader.check (transcript.getCurrentBufferOffset = Blake2s.blockSizeU32Words)

/-! ## Delegation proofs -/

/-- An entry of `delegation_circuits_verifiers`. -/
structure DelegationCircuit where
  delegationType : U32
  delegationRequestsPerCircuit : U32
  setupCaps : MerkleTreeCaps
  verificationFunction : VerifierFunctionPointer 1 0 0

structure DelegationState (numSets : Nat) where
  log : ProofLog numSets
  delegationProofOutput : ProofOutput 1 0 0
  previousDelegationType : U32
  totalDelegationRequests : U64
  /-- Set when a delegation type has proofs; only the unrolled statement looks at it. -/
  delegationUsed : Bool

namespace DelegationState

variable {numSets : Nat}

def start (log : ProofLog numSets) (delegationProofOutput : ProofOutput 1 0 0)
    (delegationUsed : Bool) : DelegationState numSets where
  log := log
  delegationProofOutput := delegationProofOutput
  previousDelegationType := 0
  totalDelegationRequests := 0
  delegationUsed := delegationUsed

/-- A delegation proof must have the challenges it is compared with. -/
def proof (memoryChallenges : ExternalMemoryArgumentChallenges)
    (delegationChallenges : Vector ExternalDelegationArgumentChallenges 1)
    (circuit : DelegationCircuit) (circuitSequence : Nat) (state : DelegationState numSets) :
    Verifier (DelegationState numSets) := do
  let output ← circuit.verificationFunction state.delegationProofOutput
  Reader.check (output.circuitSequence = 0)
  Reader.check (output.delegationType = circuit.delegationType)
  Reader.check (MerkleTreeCap.compare output.setupCaps circuit.setupCaps = true)
  Reader.check (output.memoryChallenges = memoryChallenges)
  Reader.check (output.delegationChallenges = delegationChallenges)
  pure
    { state with
      log :=
        state.log.accept (.delegation circuit.delegationType circuitSequence output)
          output.grandProductAccumulator
          (state.log.delegationSetAccumulator - output.delegationArgumentAccumulator.get 0)
      delegationProofOutput := output
      totalDelegationRequests :=
        state.totalDelegationRequests + circuit.delegationRequestsPerCircuit.setWidth 64 }

/-- All proofs of one delegation type. -/
def proofs (memoryChallenges : ExternalMemoryArgumentChallenges)
    (delegationChallenges : Vector ExternalDelegationArgumentChallenges 1)
    (circuit : DelegationCircuit) (state : DelegationState numSets) :
    Verifier (DelegationState numSets) := do
  Reader.check (state.previousDelegationType < circuit.delegationType)
  let numCircuits ← Reader.token
  let announced : DelegationState numSets :=
    { state with
      log := state.log.announce numCircuits circuit.delegationType
      previousDelegationType := circuit.delegationType
      delegationUsed := state.delegationUsed || decide (0 < numCircuits) }
  let state ←
    Reader.loop (proof memoryChallenges delegationChallenges circuit) 0 numCircuits.toNat
      announced
  checkFullBuffer state.log.transcript
  pure state

/-- All delegation types. -/
def run (memoryChallenges : ExternalMemoryArgumentChallenges)
    (delegationChallenges : Vector ExternalDelegationArgumentChallenges 1)
    (delegationCircuitsVerifiers : List DelegationCircuit) (state : DelegationState numSets) :
    Verifier (DelegationState numSets) := do
  let state ←
    Reader.each (proofs memoryChallenges delegationChallenges) delegationCircuitsVerifiers state
  Reader.check (state.totalDelegationRequests.toNat < mersenneCharacteristics)
  pure state

end DelegationState

/-! ## The end of a statement -/

/-- The nonce of the proof of work. -/
def readPowChallenge : Verifier U64 := do
  let powChallengeLow ← Reader.token
  let powChallengeHigh ← Reader.token
  pure (powChallengeOfWords powChallengeLow powChallengeHigh)

/-- "conclude that our memory argument is valid". -/
def checkAccumulators {numSets : Nat} (finalState : FinalMachineState)
    (memoryChallenges : ExternalMemoryArgumentChallenges)
    (machineStateChallenges : ExternalMachineStateArgumentChallenges)
    (log : ProofLog numSets) : Verifier PUnit := do
  let registerContribution ← Reader.ofOption
    (produceRegisterContributionIntoMemoryAccumulatorRaw memoryChallenges finalState.registers)
  let machineStateContribution ← Reader.ofOption
    (producePcIntoPermutationAccumulatorRaw initialPc initialTimestampPair finalState.finalPc
      (finalState.finalTsLow, finalState.finalTsHigh) machineStateChallenges)
  Reader.check
    (log.grandProductAccumulator * registerContribution * machineStateContribution = 1)
  Reader.check (log.delegationSetAccumulator = 0)

/-- The second half of the output: the chain of program hashes, and what the prover showed. -/
def chainOutput (baseLayer : Bool) (finalState : FinalMachineState)
    (setups : List MerkleTreeCaps) : Verifier (Seed × Option ChainPreimage) := do
  let hashed := endParamsOutput finalState.finalPc setups
  if baseLayer then
    let hash ← baseLayerOutput hashed.2 (auxRegisters finalState.registers) hashed.1
    pure (hash, none)
  else
    let chain ← recursionLayerOutput hashed.2 (auxRegisters finalState.registers) hashed.1
    pure (chain.1, some chain.2)

/-- What a run of a statement verifier read, and what it returned. -/
structure StatementRun (numSets : Nat) where
  finalState : FinalMachineState
  proofCounts : List U32
  accepted : List (AcceptedProof numSets)
  memorySeed : Seed
  powChallenge : U64
  chainPreimage : Option ChainPreimage
  output : Vector U32 8 × Seed

end Airbender.Statement
