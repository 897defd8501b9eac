import Airbender.Compiler.GeneratedLayout

/-!
# The number of quotient terms

The compiled circuit says how many terms of the quotient hold on every row except the last.
The prover and the verifier make one power of the challenge for each.
-/

namespace Airbender.Compiler

def RegisterAccessColumns.isWrite : RegisterAccessColumns → Bool
  | readAccess _ _ _ => false
  | writeAccess _ _ _ _ => true

def IndirectAccessColumns.isWrite : IndirectAccessColumns → Bool
  | readAccess _ _ _ _ _ => false
  | writeAccess _ _ _ _ _ _ => true

/-- The access has a carry bit in the derivation of its address. -/
def IndirectAccessColumns.hasCarry (access : IndirectAccessColumns) : Bool :=
  0 < access.getAddressDerivationCarryBitColumn.numElements

namespace RegisterAndIndirectAccessDescription

def numWrites (access : RegisterAndIndirectAccessDescription) : Nat :=
  (if access.registerAccess.isWrite then 1 else 0) +
    access.indirectAccesses.countP IndirectAccessColumns.isWrite

/-- The carry bits of all accesses behind the first one. -/
def numBooleansForAddressDerivation (access : RegisterAndIndirectAccessDescription) : Nat :=
  access.indirectAccesses.zipIdx.countP fun entry => 0 < entry.2 && entry.1.hasCarry

end RegisterAndIndirectAccessDescription

/-- The terms of a delegation circuit on rows without a delegation. -/
def numDelegationConventions (memoryLayout : MemorySubtree) : Option Nat := do
  guard (memoryLayout.shuffleRamAccessSets.length = 0)
  guard (0 < memoryLayout.batchedRamAccesses.length ∨
    0 < memoryLayout.registerAndIndirectAccesses.length)
  guard memoryLayout.batchedRamAccesses.isEmpty
  let accesses := memoryLayout.registerAndIndirectAccesses
  let numRegisterAccesses := accesses.length
  let numIndirectAccesses := (accesses.map fun access => access.indirectAccesses.length).sum
  let numWrites := (accesses.map RegisterAndIndirectAccessDescription.numWrites).sum
  let numBooleans :=
    (accesses.map RegisterAndIndirectAccessDescription.numBooleansForAddressDerivation).sum
  -- multiplicity, offset and write timestamp, then the columns of all accesses
  some (1 + 1 + 2 + 2 * (numRegisterAccesses + numIndirectAccesses) +
    2 * (numRegisterAccesses + numIndirectAccesses) + 2 * numWrites + numBooleans)

namespace VerifierCompiledCircuitArtifact

/-- Stops at the remainder of the range checks, which is not supported. -/
def numQuotientTermsEveryRowExceptLast (self : VerifierCompiledCircuitArtifact) :
    Option Nat := do
  let memoryLayout := self.memoryLayout
  let stage2Layout := self.stage2Layout
  let processesDelegations := memoryLayout.delegationProcessorLayout.isSome
  let requestsDelegations := memoryLayout.delegationRequestLayout.isSome
  let conventions ←
    if processesDelegations then numDelegationConventions memoryLayout else some 0
  guard stage2Layout.remainderForRangeCheck16.isNone
  guard ¬(processesDelegations ∧ requestsDelegations)
  some (self.degree2Constraints.length + self.degree1Constraints.length + conventions +
    2 * stage2Layout.intermediatePolysForRangeCheck16.numPairs +
    (2 + 3 * 2) * memoryLayout.shuffleRamInitsAndTeardowns.length +
    2 * stage2Layout.intermediatePolysForTimestampRangeChecks.numPairs +
    stage2Layout.intermediatePolyForDecoderAccesses.numElements +
    stage2Layout.intermediatePolysForGenericLookup.numElements +
    stage2Layout.intermediatePolyForRangeCheck16Multiplicity.numElements +
    stage2Layout.intermediatePolyForTimestampRangeCheckMultiplicity.numElements +
    stage2Layout.intermediatePolysForDecoderMultiplicities.numElements +
    stage2Layout.intermediatePolysForGenericMultiplicities.numElements +
    (if processesDelegations then 1 else 0) + (if requestsDelegations then 1 else 0) +
    stage2Layout.intermediatePolysForMemoryInitTeardown.numElements +
    stage2Layout.intermediatePolysForMemoryArgument.numElements +
    stage2Layout.intermediatePolysForStatePermutation.numElements +
    stage2Layout.intermediatePolysForPermutationMasking.numElements +
    stage2Layout.intermediatePolyForGrandProduct.numElements)

end VerifierCompiledCircuitArtifact

/-- The number as the prover asks for it. -/
def CompiledCircuitArtifact.numQuotientTermsEveryRowExceptLast (self : CompiledCircuitArtifact) :
    Option Nat := do
  let verifierCompiled ← self.asVerifierCompiledArtifact
  verifierCompiled.numQuotientTermsEveryRowExceptLast

end Airbender.Compiler
