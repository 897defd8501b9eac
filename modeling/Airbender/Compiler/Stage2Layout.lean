import Airbender.Compiler.Layouts
import Airbender.Lib.Stack

/-!
# The layout of the second stage

The columns of the lookup and memory arguments are placed one set after another: first the
base field sets, then, from the next multiple of four, the sets of extension field elements.
The verifier finds a polynomial by its index among the openings, which counts the base field
polynomials first.
-/

namespace Airbender.Compiler

/-! ## Allocation -/

/-- A set that is placed when a condition holds, and is empty otherwise. -/
def layoutWhen (condition : Bool) (offset numElements : Nat) :
    Option (AlignedColumnSet 4 × Nat) :=
  if condition then AlignedColumnSet.layoutAt 4 offset numElements
  else some (AlignedColumnSet.empty 4, offset)

/-- One element that is placed when a condition holds. -/
def layoutOption (condition : Bool) (offset : Nat) :
    Option (Option (AlignedColumnSet 4) × Nat) :=
  if condition then do
    let (set, offset) ← AlignedColumnSet.layoutAt 4 offset 1
    some (some set, offset)
  else some (none, offset)

/-- `intermediate_polys_for_memory_argument`: one accumulator for each access. -/
def layoutMemoryArgument (memoryLayout : MemorySubtree) (offset : Nat) :
    Option (AlignedColumnSet 4 × Nat) :=
  if memoryLayout.shuffleRamAccessSets.isEmpty = false then do
    guard (memoryLayout.batchedRamAccesses.isEmpty ∧
      memoryLayout.registerAndIndirectAccesses.isEmpty)
    AlignedColumnSet.layoutAt 4 offset memoryLayout.shuffleRamAccessSets.length
  else if memoryLayout.registerAndIndirectAccesses.isEmpty = false then do
    guard memoryLayout.shuffleRamAccessSets.isEmpty
    let numBatchedRam := memoryLayout.batchedRamAccesses.length
    let numRegisterOrIndirect := memoryLayout.registerAndIndirectAccesses.foldl
      (fun num el => num + el.indirectAccesses.length)
      memoryLayout.registerAndIndirectAccesses.length
    AlignedColumnSet.layoutAt 4 offset (numBatchedRam + numRegisterOrIndirect)
  else some (AlignedColumnSet.empty 4, offset)

/-- `intermediate_polys_for_state_permutation` and `intermediate_polys_for_permutation_masking`. -/
def layoutStatePermutation (memoryLayout : MemorySubtree)
    (hasDecoderPart separateDecoderCircuit : Bool) (offset : Nat) :
    Option (AlignedColumnSet 4 × AlignedColumnSet 4 × Nat) :=
  if hasDecoderPart then do
    let _machineStateLayout ← memoryLayout.machineStateLayout
    let intermediateStateLayout ← memoryLayout.intermediateStateLayout
    if separateDecoderCircuit then
      let (statePermutation, offset) ← AlignedColumnSet.layoutAt 4 offset (1 + 1)
      let (masking, offset) ←
        layoutWhen (0 < intermediateStateLayout.execute.numElements) offset 1
      some (statePermutation, masking, offset)
    else
      guard (0 < intermediateStateLayout.execute.numElements)
      let (statePermutation, offset) ← AlignedColumnSet.layoutAt 4 offset 1
      let (masking, offset) ← AlignedColumnSet.layoutAt 4 offset 1
      some (statePermutation, masking, offset)
  else some (AlignedColumnSet.empty 4, AlignedColumnSet.empty 4, offset)

/-- The second placement of `intermediate_polys_for_memory_init_teardown`. -/
def layoutInitsAfterMasking (initsAfterMasking : Bool) (numInits : Nat)
    (initTeardownBefore : AlignedColumnSet 4) (offset : Nat) :
    Option (AlignedColumnSet 4 × Nat) :=
  if initsAfterMasking then AlignedColumnSet.layoutAt 4 offset numInits
  else some (initTeardownBefore, offset)

namespace LookupAndMemoryArgumentLayout

def fromCompiledParts (initsAfterMasking : Bool) (witnessLayout : WitnessSubtree)
    (memoryLayout : MemorySubtree) (setupLayout : SetupLayout)
    (hasDecoderPart separateDecoderCircuit : Bool) : Option LookupAndMemoryArgumentLayout := do
  let totalNumberOfRangeCheck16Exprs := witnessLayout.rangeCheck16LookupExpressions.length
  let numTimestampRangeChecks := witnessLayout.timestampRangeCheckLookupExpressions.length
  guard (numTimestampRangeChecks % 2 = 0)
  guard memoryLayout.batchedRamAccesses.isEmpty
  let numInits := memoryLayout.shuffleRamInitsAndTeardowns.length
  let numRangeCheck16 := totalNumberOfRangeCheck16Exprs / 2
  let numTimestamps := numTimestampRangeChecks / 2
  let needsExtraExt4Poly := totalNumberOfRangeCheck16Exprs % 2 ≠ 0
  let decoderInCircuit := hasDecoderPart && !separateDecoderCircuit
  -- the base field sets
  let (baseRangeCheck16, offset) ← AlignedColumnSet.layoutAt 1 0 numRangeCheck16
  let (baseLazyInit, offset) ← AlignedColumnSet.layoutAt 1 offset numInits
  let (baseTimestamps, offset) ← AlignedColumnSet.layoutAt 1 offset numTimestamps
  -- the extension field sets; the first one moves the offset to a multiple of four
  let (ext4RangeCheck16, offset) ← AlignedColumnSet.layoutAt 4 offset numRangeCheck16
  let (ext4LazyInit, offset) ← AlignedColumnSet.layoutAt 4 offset numInits
  let (remainder, offset) ← layoutOption needsExtraExt4Poly offset
  let (ext4Timestamps, offset) ← AlignedColumnSet.layoutAt 4 offset numTimestamps
  let (genericLookup, offset) ←
    AlignedColumnSet.layoutAt 4 offset witnessLayout.width3Lookups.length
  let (decoderAccesses, offset) ← layoutWhen decoderInCircuit offset 1
  let (rangeCheck16Multiplicity, offset) ←
    layoutWhen (0 < witnessLayout.multiplicitiesColumnsForRangeCheck16.numElements) offset 1
  let (timestampMultiplicity, offset) ←
    layoutWhen (0 < witnessLayout.multiplicitiesColumnsForTimestampRangeCheck.numElements)
      offset 1
  let (genericMultiplicities, offset) ←
    layoutWhen (0 < witnessLayout.multiplicitiesColumnsForGenericLookup.numElements)
      offset setupLayout.genericLookupSetupColumns.numElements
  let (decoderMultiplicities, offset) ← layoutWhen decoderInCircuit offset 1
  let (delegationAux, offset) ←
    layoutOption (memoryLayout.delegationRequestLayout.isSome ||
      memoryLayout.delegationProcessorLayout.isSome) offset
  let (initTeardownBefore, offset) ←
    AlignedColumnSet.layoutAt 4 offset (if initsAfterMasking then 0 else numInits)
  let (memoryArgument, offset) ← layoutMemoryArgument memoryLayout offset
  let (statePermutation, masking, offset) ←
    layoutStatePermutation memoryLayout hasDecoderPart separateDecoderCircuit offset
  let (memoryInitTeardown, offset) ←
    layoutInitsAfterMasking initsAfterMasking numInits initTeardownBefore offset
  let (grandProduct, offset) ←
    layoutWhen (0 < memoryArgument.numElements || 0 < statePermutation.numElements ||
      0 < memoryInitTeardown.numElements) offset 1
  guard (masking.numElements = 0 ∨ 0 < grandProduct.numElements)
  some {
    intermediatePolysForRangeCheck16 := ⟨numRangeCheck16, baseRangeCheck16, ext4RangeCheck16⟩
    remainderForRangeCheck16 := remainder
    lazyInitAddressRangeCheck16 :=
      if 0 < numInits then some ⟨numInits, baseLazyInit, ext4LazyInit⟩ else none
    intermediatePolysForTimestampRangeChecks := ⟨numTimestamps, baseTimestamps, ext4Timestamps⟩
    intermediatePolysForGenericLookup := genericLookup
    intermediatePolyForDecoderAccesses := decoderAccesses
    intermediatePolyForRangeCheck16Multiplicity := rangeCheck16Multiplicity
    intermediatePolyForTimestampRangeCheckMultiplicity := timestampMultiplicity
    intermediatePolysForGenericMultiplicities := genericMultiplicities
    intermediatePolysForDecoderMultiplicities := decoderMultiplicities
    delegationProcessingAuxPoly := delegationAux
    intermediatePolysForMemoryInitTeardown := memoryInitTeardown
    intermediatePolysForMemoryArgument := memoryArgument
    intermediatePolysForStatePermutation := statePermutation
    intermediatePolysForPermutationMasking := masking
    intermediatePolyForGrandProduct := grandProduct
    ext4PolysOffset := ext4RangeCheck16.start
    totalWidth := offset }

def numBaseFieldPolys (layout : LookupAndMemoryArgumentLayout) : Nat :=
  layout.intermediatePolysForRangeCheck16.numPairs
    + layout.intermediatePolysForTimestampRangeChecks.numPairs
    + (layout.lazyInitAddressRangeCheck16.elim 0 OptimizedOraclesForLookupWidth1.numPairs)

def numExt4FieldPolys (layout : LookupAndMemoryArgumentLayout) : Nat :=
  layout.intermediatePolysForRangeCheck16.numPairs
    + (layout.lazyInitAddressRangeCheck16.elim 0 OptimizedOraclesForLookupWidth1.numPairs)
    + layout.intermediatePolysForTimestampRangeChecks.numPairs
    + (layout.delegationProcessingAuxPoly.elim 0 fun _ => 1)
    + layout.intermediatePolyForDecoderAccesses.numElements
    + layout.intermediatePolysForGenericLookup.numElements
    + layout.intermediatePolyForRangeCheck16Multiplicity.numElements
    + layout.intermediatePolyForTimestampRangeCheckMultiplicity.numElements
    + layout.intermediatePolysForDecoderMultiplicities.numElements
    + layout.intermediatePolysForGenericMultiplicities.numElements
    + layout.intermediatePolysForMemoryInitTeardown.numElements
    + layout.intermediatePolysForMemoryArgument.numElements
    + layout.intermediatePolysForStatePermutation.numElements
    + layout.intermediatePolysForPermutationMasking.numElements
    + layout.intermediatePolyForGrandProduct.numElements

/-! ## Indices of the polynomials -/

/-- The body that all index functions share. -/
def absolutePolyIdx (layout : LookupAndMemoryArgumentLayout) (start : Nat) : Option Nat := do
  guard (layout.ext4PolysOffset ≤ start)
  let polyIdx := start - layout.ext4PolysOffset
  guard (polyIdx % 4 = 0)
  some (layout.numBaseFieldPolys + polyIdx / 4)

def getIntermediatePolyForDecoderLookup (layout : LookupAndMemoryArgumentLayout) : Option Nat :=
  layout.absolutePolyIdx (layout.intermediatePolyForDecoderAccesses.getRangeStart 0)

def getIntermediatePolysForGenericLookup (layout : LookupAndMemoryArgumentLayout) (idx : Nat) :
    Option Nat :=
  layout.absolutePolyIdx (layout.intermediatePolysForGenericLookup.getRangeStart idx)

def rangeCheck16IntermediatePolyForMultiplicities (layout : LookupAndMemoryArgumentLayout) :
    Option Nat :=
  layout.absolutePolyIdx (layout.intermediatePolyForRangeCheck16Multiplicity.getRangeStart 0)

def timestampRangeCheckIntermediatePolyForMultiplicities
    (layout : LookupAndMemoryArgumentLayout) : Option Nat :=
  layout.absolutePolyIdx
    (layout.intermediatePolyForTimestampRangeCheckMultiplicity.getRangeStart 0)

def decoderLookupIntermediatePolyForMultiplicities (layout : LookupAndMemoryArgumentLayout) :
    Option Nat :=
  layout.absolutePolyIdx (layout.intermediatePolysForDecoderMultiplicities.getRangeStart 0)

def genericWidth3LookupIntermediatePolysForMultiplicities
    (layout : LookupAndMemoryArgumentLayout) (idx : Nat) : Option Nat :=
  layout.absolutePolyIdx (layout.intermediatePolysForGenericMultiplicities.getRangeStart idx)

def getIntermediatePolysForMemoryInitTeardown (layout : LookupAndMemoryArgumentLayout)
    (idx : Nat) : Option Nat :=
  layout.absolutePolyIdx (layout.intermediatePolysForMemoryInitTeardown.getRangeStart idx)

def getIntermediatePolysForMemoryArgument (layout : LookupAndMemoryArgumentLayout) (idx : Nat) :
    Option Nat :=
  layout.absolutePolyIdx (layout.intermediatePolysForMemoryArgument.getRangeStart idx)

def getIntermediatePolysForMachineStatePermutation (layout : LookupAndMemoryArgumentLayout) :
    Option Nat :=
  layout.absolutePolyIdx (layout.intermediatePolysForStatePermutation.getRangeStart 0)

def getIntermediatePolysForPermutationMasking (layout : LookupAndMemoryArgumentLayout) :
    Option Nat :=
  layout.absolutePolyIdx (layout.intermediatePolysForPermutationMasking.getRangeStart 0)

def getIntermediatePolysForGrandProductAccumulation (layout : LookupAndMemoryArgumentLayout) :
    Option Nat :=
  layout.absolutePolyIdx (layout.intermediatePolyForGrandProduct.getRangeStart 0)

/-- The outer option is a panic, the inner one is the result of the source. -/
def getAuxPolysForDelegationArgument (layout : LookupAndMemoryArgumentLayout) :
    Option (Option Nat) :=
  match layout.delegationProcessingAuxPoly with
  | none => some none
  | some delegationProcessingAuxPoly => do
      let polyNum ← layout.absolutePolyIdx delegationProcessingAuxPoly.start
      some (some polyNum)

/-- The outer option is a panic, the inner one is the result of the source. -/
def getAuxPolyDecoder (layout : LookupAndMemoryArgumentLayout) : Option (Option Nat) :=
  if layout.intermediatePolyForDecoderAccesses.numElements = 0 then some none
  else do
    guard (layout.intermediatePolyForDecoderAccesses.numElements = 1)
    let polyNum ← layout.absolutePolyIdx layout.intermediatePolyForDecoderAccesses.start
    some (some polyNum)

end LookupAndMemoryArgumentLayout

def OptimizedOraclesForLookupWidth1.getExt4PolyIndexInOpenings
    (oracles : OptimizedOraclesForLookupWidth1) (argumentIndex : Nat)
    (stage2Layout : LookupAndMemoryArgumentLayout) : Option Nat := do
  guard (argumentIndex < oracles.ext4FieldOracles.numElements)
  stage2Layout.absolutePolyIdx (oracles.ext4FieldOracles.getRangeStart argumentIndex)

end Airbender.Compiler
