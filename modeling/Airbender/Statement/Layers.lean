import Airbender.Statement.ProgramProof

/-!
# Entry points of the verifiers

`verify_base_or_recursion_unrolled_circuits` and
`verify_unrolled_or_unified_circuit_recursion_layer`: an operation, the setups, and one of the
two statements.  The verifiers that are generated for the circuits are parameters.
-/

namespace Airbender.Statement

open StreamReader

/-! ## Verifiers of circuits -/

/-- The verifier of a circuit, with the number of its rows. -/
structure CircuitVerifier
    (numDelegationChallenges numAuxBoundaryValues numMachineStateChallenges : Nat) where
  capacity : U32
  verify :
    VerifierFunctionPointer numDelegationChallenges numAuxBoundaryValues
      numMachineStateChallenges

/-- The verifier of a delegation circuit, with its setup. -/
structure DelegationVerifier where
  setupCaps : MerkleTreeCaps
  verify : VerifierFunctionPointer 1 0 0

/-- All generated verifiers, and the proof of work that the statements ask for. -/
structure CircuitVerifiers (numSets : Nat) where
  addSubLuiAuipcMop : CircuitVerifier 0 0 1
  jumpBranchSlt : CircuitVerifier 0 0 1
  shiftBinaryCsr : CircuitVerifier 1 0 1
  mulDivUnsigned : CircuitVerifier 0 0 1
  loadStoreWordOnly : CircuitVerifier 0 0 1
  loadStoreSubwordOnly : CircuitVerifier 0 0 1
  initsAndTeardowns : VerifierFunctionPointer 0 numSets 0
  unifiedReducedMachine : CircuitVerifier 1 1 1
  blake2WithCompression : DelegationVerifier
  bigintWithControl : DelegationVerifier
  keccakSpecial5 : DelegationVerifier
  memoryDelegationPowBits : Nat

namespace CircuitVerifiers

variable {numSets : Nat} (verifiers : CircuitVerifiers numSets)

def noDelegation (family : U8) (verifier : CircuitVerifier 0 0 1) : CircuitFamily where
  circuitFamily := family.setWidth 32
  capacity := verifier.capacity
  verifierFn := .unrolledNoDelegation verifier.verify

def withDelegation (family : U8) (verifier : CircuitVerifier 1 0 1) : CircuitFamily where
  circuitFamily := family.setWidth 32
  capacity := verifier.capacity
  verifierFn := .unrolledWithDelegation verifier.verify

/-- `FULL_UNSIGNED_MACHINE_UNROLLED_CIRCUITS_VERIFICATION_PARAMETERS`. -/
def fullUnsignedMachine : List CircuitFamily :=
  [noDelegation addSubLuiAuipcMopCircuitFamilyIdx verifiers.addSubLuiAuipcMop,
    noDelegation jumpBranchSltCircuitFamilyIdx verifiers.jumpBranchSlt,
    withDelegation shiftBinaryCsrCircuitFamilyIdx verifiers.shiftBinaryCsr,
    noDelegation mulDivCircuitFamilyIdx verifiers.mulDivUnsigned,
    noDelegation loadStoreWordOnlyCircuitFamilyIdx verifiers.loadStoreWordOnly,
    noDelegation loadStoreSubwordOnlyCircuitFamilyIdx verifiers.loadStoreSubwordOnly]

/-- `RECURSION_WORD_ONLY_UNSIGNED_MACHINE_UNROLLED_CIRCUITS_VERIFICATION_PARAMETERS`. -/
def recursionWordOnlyUnsignedMachine : List CircuitFamily :=
  [noDelegation addSubLuiAuipcMopCircuitFamilyIdx verifiers.addSubLuiAuipcMop,
    noDelegation jumpBranchSltCircuitFamilyIdx verifiers.jumpBranchSlt,
    withDelegation shiftBinaryCsrCircuitFamilyIdx verifiers.shiftBinaryCsr,
    noDelegation loadStoreWordOnlyCircuitFamilyIdx verifiers.loadStoreWordOnly]

def delegationCircuit (delegationType capacity : U32) (verifier : DelegationVerifier) :
    DelegationCircuit where
  delegationType := delegationType
  delegationRequestsPerCircuit := capacity
  setupCaps := verifier.setupCaps
  verificationFunction := verifier.verify

/-- `RECURSION_LAYER_CIRCUITS_VERIFICATION_PARAMETERS`. -/
def recursionLayerDelegations : List DelegationCircuit :=
  [delegationCircuit 1991 1048575 verifiers.blake2WithCompression]

/-- `BASE_LAYER_DELEGATION_CIRCUITS_VERIFICATION_PARAMETERS`. -/
def baseLayerDelegations : List DelegationCircuit :=
  [delegationCircuit 1991 1048575 verifiers.blake2WithCompression,
    delegationCircuit 1994 2097151 verifiers.bigintWithControl,
    delegationCircuit 1995 4194303 verifiers.keccakSpecial5]

end CircuitVerifiers

/-! ## Layers -/

/-- `read_setups`. -/
def readSetups : (count : Nat) → Verifier (Vector MerkleTreeCaps count)
  | 0 => pure #v[]
  | count + 1 => do
      let setups ← readSetups count
      let caps ← MerkleTreeCap.readCaps
      pure (setups.push caps)

/-- What a verifier read and returned, with the setups in front. -/
structure LayerRun (numSets : Nat) where
  setups : List MerkleTreeCaps
  statement : StatementRun numSets

section Layers

variable {numSets : Nat} (verifiers : CircuitVerifiers numSets) (buffers : UnrolledBuffers numSets)

/-- The setups of all families, those of inits and teardowns, and the statement. -/
def verifyUnrolledLayer (baseLayer : Bool) (families : List CircuitFamily)
    (delegations : List DelegationCircuit) : Verifier (LayerRun numSets) := do
  let circuitsSetups ← readSetups families.length
  let initsAndTeardownsSetups ← readSetups 1
  let statement ←
    verifyFullStatementForUnrolledCircuits
      { baseLayer := baseLayer
        memoryDelegationPowBits := verifiers.memoryDelegationPowBits
        circuitsFamiliesSetups := circuitsSetups.toList
        circuitsFamiliesVerifiers := families
        initsAndTeardownsVerifier := (initsAndTeardownsSetups.get 0, verifiers.initsAndTeardowns)
        delegationCircuitsVerifiers := delegations }
      buffers
  pure
    { setups := circuitsSetups.toList ++ initsAndTeardownsSetups.toList
      statement := statement }

/-- `verify_unrolled_base_layer`. -/
def verifyUnrolledBaseLayer : Verifier (LayerRun numSets) :=
  verifyUnrolledLayer verifiers buffers true verifiers.fullUnsignedMachine
    verifiers.baseLayerDelegations

/-- `verify_unrolled_recursion_layer`. -/
def verifyUnrolledRecursionLayer : Verifier (LayerRun numSets) :=
  verifyUnrolledLayer verifiers buffers false verifiers.recursionWordOnlyUnsignedMachine
    verifiers.recursionLayerDelegations

/-- `verify_base_or_recursion_unrolled_circuits`. -/
def verifyBaseOrRecursionUnrolledCircuits : Verifier (LayerRun numSets) := do
  let opType ← Reader.token
  if opType = opVerifyBaseLayerInUnrolledCircuits then
    verifyUnrolledBaseLayer verifiers buffers
  else if opType = opVerifyRecursiveLayerInUnrolledCircuits then
    verifyUnrolledRecursionLayer verifiers buffers
  else
    Reader.ofOption none

variable (unifiedBuffers : UnifiedBuffers)

/-- `verify_unified_circuit_recursion_layer`. -/
def verifyUnifiedCircuitRecursionLayer : Verifier (LayerRun 1) := do
  let mainSetup ← readSetups 1
  let statement ←
    verifyUnifiedCircuitStatement
      { baseLayer := false
        memoryDelegationPowBits := verifiers.memoryDelegationPowBits
        unifiedCircuitSetup := mainSetup.get 0
        unifiedCircuitCapacity := verifiers.unifiedReducedMachine.capacity
        unifiedCircuitVerifier := verifiers.unifiedReducedMachine.verify
        delegationCircuitsVerifiers := verifiers.recursionLayerDelegations }
      unifiedBuffers
  pure
    { setups := mainSetup.toList
      statement := statement }

/-- `verify_unrolled_or_unified_circuit_recursion_layer`, where all verifiers are compiled
in. -/
def verifyUnrolledOrUnifiedCircuitRecursionLayer :
    Verifier (LayerRun numSets ⊕ LayerRun 1) := do
  let opType ← Reader.token
  if opType = opVerifyUnrolledRecursionLayerInUnifiedCircuit then
    let run ← verifyUnrolledRecursionLayer verifiers buffers
    pure (.inl run)
  else if opType = opVerifyUnifiedRecursionLayerInUnifiedCircuit then
    let run ← verifyUnifiedCircuitRecursionLayer verifiers unifiedBuffers
    pure (.inr run)
  else
    Reader.ofOption none

end Layers

end Airbender.Statement
