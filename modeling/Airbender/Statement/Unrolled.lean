import Airbender.Statement.Verification

/-!
# The statement over unrolled circuits

`verify_full_statement_for_unrolled_circuits`: proofs of every circuit family, of the
init and teardown circuit and of every delegation type, under one transcript.
-/

namespace Airbender.Statement

open StreamReader

/-! ## Circuit families -/

/-- `VerificationFunctionPointer`. -/
inductive VerificationFunctionPointer where
  | unrolledNoDelegation (verifierFn : VerifierFunctionPointer 0 0 1)
  | unrolledWithDelegation (verifierFn : VerifierFunctionPointer 1 0 1)

/-- An entry of `circuits_families_verifiers`. -/
structure CircuitFamily where
  circuitFamily : U32
  capacity : U32
  verifierFn : VerificationFunctionPointer

/-- What the loop over the families carries along. -/
structure FamiliesState (numSets : Nat) where
  log : ProofLog numSets
  outputs : ProofOutputs 0 0 1
  outputsWithDelegation : ProofOutputs 1 0 1
  delegationUsed : Bool
  totalCycles : Nat

namespace FamiliesState

variable {numSets : Nat}

/-- One proof of a family. -/
def proof (family : CircuitFamily) (setup : MerkleTreeCaps) (circuitSequence : Nat)
    (state : FamiliesState numSets) : Verifier (FamiliesState numSets) := do
  let totalCycles := state.totalCycles + family.capacity.toNat
  Reader.check (totalCycles < maxCycles)
  match family.verifierFn with
  | .unrolledNoDelegation verifierFn => do
      let current ← nextProof verifierFn setup circuitSequence state.outputs
      pure
        { state with
          log :=
            state.log.accept
              (.unrolledNoDelegation family.circuitFamily circuitSequence current)
              current.grandProductAccumulator state.log.delegationSetAccumulator
          outputs := state.outputs.write circuitSequence current
          totalCycles := totalCycles }
  | .unrolledWithDelegation verifierFn => do
      let current ← nextProof verifierFn setup circuitSequence state.outputsWithDelegation
      pure
        { state with
          log :=
            state.log.accept
              (.unrolledWithDelegation family.circuitFamily circuitSequence current)
              current.grandProductAccumulator
              (state.log.delegationSetAccumulator + current.delegationArgumentAccumulator.get 0)
          outputsWithDelegation :=
            state.outputsWithDelegation.write circuitSequence current
          delegationUsed := true
          totalCycles := totalCycles }

/-- All proofs of one family. -/
def proofs (entry : CircuitFamily × MerkleTreeCaps) (state : FamiliesState numSets) :
    Verifier (FamiliesState numSets) := do
  let numCircuits ← Reader.token
  Reader.loop (proof entry.1 entry.2) 0 numCircuits.toNat
    { state with log := state.log.announce numCircuits entry.1.circuitFamily }

end FamiliesState

/-! ## Inits and teardowns -/

def romWordSize : U32 := romByteSize / 4

def initsAndTeardownsCapacityPerSet : U32 := 2 ^ 24 - 1

def maxMemoryCellsToInit : U32 := ((1 : U32) <<< 30) - romWordSize

/-- The address of a set either goes on from the previous one, or all rows so far are
padding. -/
def checkJunction (lastPrevious : InitAndTeardownTuple) (current : AuxArgumentsBoundaryValues) :
    Option InitAndTeardownTuple := do
  let firstCurrentAddress ←
    parseFieldElsAsU32FromU16LimbsChecked current.lazyInitFirstRow
  guard
    (lastPrevious.address < firstCurrentAddress ∨
      lastPrevious.address = 0 ∧ lastPrevious.teardownValue = 0 ∧
        lastPrevious.teardownTsPair.1 = 0 ∧ lastPrevious.teardownTsPair.2 = 0)
  InitAndTeardownTuple.fromAuxValuesOneBeforeLastRow current

/-- What the loop over the init and teardown circuits carries along. -/
structure InitsAndTeardownsState (numSets : Nat) where
  log : ProofLog numSets
  outputs : ProofOutputs 0 numSets 0
  cellsInitialized : U32

namespace InitsAndTeardownsState

variable {numSets : Nat}

/-- The row that the first set of a circuit follows. -/
def lastPrevious (circuitSequence : Nat) (previous : ProofOutput 0 numSets 0) :
    Option InitAndTeardownTuple :=
  if circuitSequence = 0 then some InitAndTeardownTuple.zero
  else do
    let boundary ← previous.lazyInitBoundaryValues.toList.getLast?
    InitAndTeardownTuple.fromAuxValuesOneBeforeLastRow boundary

/-- One init and teardown proof. -/
def proof (setup : MerkleTreeCaps) (verifierFn : VerifierFunctionPointer 0 numSets 0)
    (circuitSequence : Nat) (state : InitsAndTeardownsState numSets) :
    Verifier (InitsAndTeardownsState numSets) := do
  Reader.check (state.cellsInitialized < maxMemoryCellsToInit)
  let current ← nextProof verifierFn setup circuitSequence state.outputs
  let first ← Reader.ofOption
    (lastPrevious circuitSequence (state.outputs.previous circuitSequence))
  let _ ← Reader.ofOption
    (current.lazyInitBoundaryValues.toList.foldlM checkJunction first)
  pure
    { log :=
        state.log.accept (.initAndTeardown circuitSequence current)
          current.grandProductAccumulator state.log.delegationSetAccumulator
      outputs := state.outputs.write circuitSequence current
      cellsInitialized :=
        state.cellsInitialized + BitVec.ofNat 32 numSets * initsAndTeardownsCapacityPerSet }

/-- All init and teardown proofs. -/
def proofs (initsAndTeardownsVerifier : MerkleTreeCaps × VerifierFunctionPointer 0 numSets 0)
    (outputs : ProofOutputs 0 numSets 0) (log : ProofLog numSets) :
    Verifier (InitsAndTeardownsState numSets) := do
  let numCircuits ← Reader.token
  Reader.loop (proof initsAndTeardownsVerifier.1 initsAndTeardownsVerifier.2) 0
    numCircuits.toNat
    { log := log.announce numCircuits initsAndTeardownsFormalCircuitFamilyIdx
      outputs := outputs
      cellsInitialized := 0 }

end InitsAndTeardownsState

/-! ## The statement -/

/-- The buffers that the source leaves uninitialised. -/
structure UnrolledBuffers (numSets : Nat) where
  outputs : ProofOutputs 0 0 1
  outputsWithDelegation : ProofOutputs 1 0 1
  initsAndTeardowns : ProofOutputs 0 numSets 0
  delegation : ProofOutput 1 0 0

def FamiliesState.start {numSets : Nat} (buffers : UnrolledBuffers numSets)
    (finalState : FinalMachineState) : FamiliesState numSets where
  log := .start finalState.transcript
  outputs := buffers.outputs
  outputsWithDelegation := buffers.outputsWithDelegation
  delegationUsed := false
  totalCycles := 0

/-- The arguments of `verify_full_statement_for_unrolled_circuits`, under its const
parameters. -/
structure UnrolledArguments (numSets : Nat) where
  baseLayer : Bool
  memoryDelegationPowBits : Nat
  circuitsFamiliesSetups : List MerkleTreeCaps
  circuitsFamiliesVerifiers : List CircuitFamily
  initsAndTeardownsVerifier : MerkleTreeCaps × VerifierFunctionPointer 0 numSets 0
  delegationCircuitsVerifiers : List DelegationCircuit

/-- The states in which the loops over proofs ended. -/
structure UnrolledProofs (numSets : Nat) where
  finalState : FinalMachineState
  families : FamiliesState numSets
  initsAndTeardowns : InitsAndTeardownsState numSets
  delegations : DelegationState numSets

def UnrolledProofs.memorySeed {numSets : Nat} (proofs : UnrolledProofs numSets) : Seed :=
  proofs.delegations.log.transcript.finalizeReset.1

namespace UnrolledArguments

variable {numSets : Nat} (arguments : UnrolledArguments numSets)

/-- Families and setups go together. -/
def families : List (CircuitFamily × MerkleTreeCaps) :=
  arguments.circuitsFamiliesVerifiers.zip arguments.circuitsFamiliesSetups

/-- The setups that the chain of program hashes covers. -/
def setups : List MerkleTreeCaps :=
  arguments.circuitsFamiliesSetups ++ [arguments.initsAndTeardownsVerifier.1]

/-- The challenges of the transcript are compared with the first buffers. -/
def checkChallenges (expectedChallenges : ExternalChallenges) (proofOutput0 : ProofOutput 0 0 1)
    (proofOutputWithDelegation0 : ProofOutput 1 0 1) (delegationUsed : Bool) :
    Verifier PUnit := do
  Reader.check (expectedChallenges.memoryArgument = proofOutput0.memoryChallenges)
  Reader.check (delegationUsed = true →
    expectedChallenges.delegationArgument =
      some (proofOutputWithDelegation0.delegationChallenges.get 0))
  Reader.check (expectedChallenges.machineStatePermutationArgument =
    some (proofOutput0.machineStatePermutationChallenges.get 0))

/-- All proofs, from the final machine state to the last delegation proof. -/
def verifyProofs (buffers : UnrolledBuffers numSets) : Verifier (UnrolledProofs numSets) := do
  let finalState ← FinalMachineState.read
  let families ← Reader.each FamiliesState.proofs arguments.families
    (.start buffers finalState)
  let initsAndTeardowns ← InitsAndTeardownsState.proofs arguments.initsAndTeardownsVerifier
    buffers.initsAndTeardowns families.log
  checkFullBuffer initsAndTeardowns.log.transcript
  let delegations ← DelegationState.run families.outputs.proofOutput0.memoryChallenges
    families.outputsWithDelegation.proofOutput0.delegationChallenges
    arguments.delegationCircuitsVerifiers
    (.start initsAndTeardowns.log buffers.delegation families.delegationUsed)
  pure
    { finalState := finalState
      families := families
      initsAndTeardowns := initsAndTeardowns
      delegations := delegations }

/-- What follows the proofs. -/
def finish (proofs : UnrolledProofs numSets) : Verifier (StatementRun numSets) := do
  let proofOutput0 := proofs.families.outputs.proofOutput0
  let memorySeed := proofs.memorySeed
  let powChallenge ← readPowChallenge
  let expectedChallenges ← Reader.ofOption
    (ExternalChallenges.drawFromTranscriptSeedWithStatePermutation memorySeed
      arguments.memoryDelegationPowBits powChallenge)
  checkChallenges expectedChallenges proofOutput0
    proofs.families.outputsWithDelegation.proofOutput0 proofs.delegations.delegationUsed
  checkAccumulators proofs.finalState proofOutput0.memoryChallenges
    (proofOutput0.machineStatePermutationChallenges.get 0) proofs.delegations.log
  let chain ← chainOutput arguments.baseLayer proofs.finalState arguments.setups
  pure
    { finalState := proofs.finalState
      proofCounts := proofs.delegations.log.proofCounts
      accepted := proofs.delegations.log.accepted
      memorySeed := memorySeed
      powChallenge := powChallenge
      chainPreimage := chain.2
      output := (proofs.finalState.outputRegisters, chain.1) }

end UnrolledArguments

/-- `verify_full_statement_for_unrolled_circuits`. -/
def verifyFullStatementForUnrolledCircuits {numSets : Nat}
    (arguments : UnrolledArguments numSets) (buffers : UnrolledBuffers numSets) :
    Verifier (StatementRun numSets) := do
  Reader.check
    (arguments.circuitsFamiliesSetups.length = arguments.circuitsFamiliesVerifiers.length)
  let proofs ← arguments.verifyProofs buffers
  arguments.finish proofs

end Airbender.Statement
