import Airbender.Lib.BTreeMap
import Airbender.Statement.FsTransform

/-!
# Program proofs

`UnrolledProgramProof`, `UnrolledProgramSetup` and the words that the host makes of them for
the next layer.  How a single proof becomes words is a parameter.
-/

namespace Airbender.Statement

/-! ## Circuit families -/

abbrev U8 := BitVec 8

def addSubLuiAuipcMopCircuitFamilyIdx : U8 := 1

def jumpBranchSltCircuitFamilyIdx : U8 := 2

def shiftBinaryCsrCircuitFamilyIdx : U8 := 3

def mulDivCircuitFamilyIdx : U8 := 4

def loadStoreWordOnlyCircuitFamilyIdx : U8 := 16

def loadStoreSubwordOnlyCircuitFamilyIdx : U8 := 17

/-- `REDUCED_MACHINE_CIRCUIT_FAMILY_IDX`, as a key of a map. -/
def reducedMachineFamily : U8 := 128

/-! ## Operations -/

def opVerifyUnrolledRecursionLayerInUnifiedCircuit : U32 := 1

def opVerifyUnifiedRecursionLayerInUnifiedCircuit : U32 := 2

def opVerifyBaseLayerInUnrolledCircuits : U32 := 1

def opVerifyRecursiveLayerInUnrolledCircuits : U32 := 2

/-! ## Setups and proofs -/

structure UnrolledProgramSetup where
  circuitFamiliesSetups : BTreeMap U8 MerkleTreeCaps
  initsAndTeardownsSetup : MerkleTreeCaps

/-- A program proof, over the types of single proofs. -/
structure UnrolledProgramProof (UnrolledModeProof Proof : Type) where
  finalPc : U32
  finalTimestamp : TimestampScalar
  circuitFamiliesProofs : BTreeMap U8 (List UnrolledModeProof)
  initsAndTeardownsProofs : List UnrolledModeProof
  delegationProofs : BTreeMap U32 (List Proof)
  registerFinalValues : Vector FinalRegisterValue 32
  recursionChainPreimage : Option ChainPreimage
  powChallenge : U64

structure CompiledCircuitsSet (Artifact : Type) where
  compiledCircuitFamilies : BTreeMap U8 Artifact
  compiledInitsAndTeardowns : Option Artifact

/-- `proof_flattener`: the words of a single proof. -/
structure ProofFlattener (UnrolledModeProof Proof Artifact : Type) where
  flattenFullUnrolledProof : UnrolledModeProof → Artifact → List U32
  flattenFullProof : Proof → List U32

/-- `proofs.len() as u32`. -/
def countWord {α : Type} (proofs : List α) : U32 := BitVec.ofNat 32 proofs.length

namespace UnrolledProgramSetup

variable (setup : UnrolledProgramSetup)

/-- The caps of all families, "without any circuit IDs", and those of inits and teardowns. -/
def flattenForRecursion : List U32 :=
  setup.circuitFamiliesSetups.values.flatMap MerkleTreeCap.flatten ++
    MerkleTreeCap.flatten setup.initsAndTeardownsSetup

def flattenUnifiedForRecursion : Option (List U32) := do
  guard (setup.circuitFamiliesSetups.len = 1)
  some (setup.circuitFamiliesSetups.values.flatMap MerkleTreeCap.flatten)

end UnrolledProgramSetup

/-! ## The words of a program proof -/

section Flatten

variable {UnrolledModeProof Proof Artifact : Type}
  (flattener : ProofFlattener UnrolledModeProof Proof Artifact)
  (compiledLayouts : CompiledCircuitsSet Artifact)

/-- The proofs of one family.  Every proof looks for the compiled circuit of its family. -/
def flattenFamily (entry : U8 × List UnrolledModeProof) : Option (List U32) := do
  let words ← entry.2.mapM fun proof => do
    let artifact ← compiledLayouts.compiledCircuitFamilies.get entry.1
    some (flattener.flattenFullUnrolledProof proof artifact)
  some (countWord entry.2 :: words.flatten)

/-- Inits and teardowns are left out, but for their number, where they have no circuit. -/
def flattenInitsAndTeardowns (proofs : List UnrolledModeProof) : List U32 :=
  match compiledLayouts.compiledInitsAndTeardowns with
  | some artifact =>
      countWord proofs ::
        proofs.flatMap fun proof => flattener.flattenFullUnrolledProof proof artifact
  | none => [0]

/-- The proofs of an allowed delegation type, which may be absent. -/
def flattenDelegations (delegationProofs : BTreeMap U32 (List Proof)) (delegationType : U32) :
    List U32 :=
  if delegationType = nonDeterminismCsr then []
  else
    match delegationProofs.get delegationType with
    | some proofs => countWord proofs :: proofs.flatMap flattener.flattenFullProof
    | none => [0]

namespace UnrolledProgramProof

variable (proof : UnrolledProgramProof UnrolledModeProof Proof)

/-- `flatten_into_responses`. -/
def flattenIntoResponses (allowedDelegationCircuits : List U32) : Option (List U32) := do
  let registers := proof.registerFinalValues.toList.flatMap FinalRegisterValue.words
  let timestamp := splitTimestamp proof.finalTimestamp
  let finalState := [proof.finalPc, timestamp.1, timestamp.2]
  let families ←
    proof.circuitFamiliesProofs.entries.mapM (flattenFamily flattener compiledLayouts)
  let initsAndTeardowns :=
    flattenInitsAndTeardowns flattener compiledLayouts proof.initsAndTeardownsProofs
  let delegations :=
    allowedDelegationCircuits.flatMap (flattenDelegations flattener proof.delegationProofs)
  let powChallengeLow : U32 := proof.powChallenge.setWidth 32
  let powChallengeHigh : U32 := (proof.powChallenge >>> 32).setWidth 32
  let preimage := (proof.recursionChainPreimage.map Vector.toList).getD []
  some (registers ++ finalState ++ families.flatten ++ initsAndTeardowns ++ delegations ++
    [powChallengeLow, powChallengeHigh] ++ preimage)

end UnrolledProgramProof

def baseLayerDelegationTypes : List U32 :=
  [blake2sDelegationCsrRegister, bigintOpsWithControlCsrRegister, keccakSpecial5CsrRegister]

def recursionLayerDelegationTypes : List U32 := [blake2sDelegationCsrRegister]

/-- `flatten_proof_into_responses_for_unrolled_recursion`. -/
def flattenProofIntoResponsesForUnrolledRecursion
    (proof : UnrolledProgramProof UnrolledModeProof Proof) (setup : UnrolledProgramSetup)
    (isBaseLayer : Bool) : Option (List U32) := do
  let op :=
    if isBaseLayer then opVerifyBaseLayerInUnrolledCircuits
    else opVerifyRecursiveLayerInUnrolledCircuits
  let responses ← proof.flattenIntoResponses flattener compiledLayouts
    (if isBaseLayer then baseLayerDelegationTypes else recursionLayerDelegationTypes)
  some ([op] ++ setup.flattenForRecursion ++ responses)

/-- `flatten_proof_into_responses_for_unified_recursion`. -/
def flattenProofIntoResponsesForUnifiedRecursion
    (proof : UnrolledProgramProof UnrolledModeProof Proof) (setup : UnrolledProgramSetup)
    (inputIsUnrolled : Bool) : Option (List U32) := do
  if inputIsUnrolled then
    guard (1 < setup.circuitFamiliesSetups.len)
    guard (proof.initsAndTeardownsProofs.isEmpty = false)
  else
    guard (setup.circuitFamiliesSetups.len = 1)
    guard (setup.circuitFamiliesSetups.containsKey reducedMachineFamily = true)
    guard (proof.circuitFamiliesProofs.len = 1)
    guard (proof.initsAndTeardownsProofs.isEmpty = true)
    let proofs ← proof.circuitFamiliesProofs.get reducedMachineFamily
    guard (0 < proofs.length)
  let op :=
    if inputIsUnrolled then opVerifyUnrolledRecursionLayerInUnifiedCircuit
    else opVerifyUnifiedRecursionLayerInUnifiedCircuit
  let setups ←
    if inputIsUnrolled then some setup.flattenForRecursion
    else setup.flattenUnifiedForRecursion
  let responses ←
    proof.flattenIntoResponses flattener compiledLayouts recursionLayerDelegationTypes
  some ([op] ++ setups ++ responses)

end Flatten

end Airbender.Statement
