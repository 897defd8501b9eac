import Airbender.Prover.CachedData

/-!
# The terms on every row except the last

On each row the prover adds up the terms of the quotient, each times a power of the challenge.
The terms of the constraints take the powers at their own indices; all others take the next
power from a pointer.  A term is given by the columns that it constrains.
-/

namespace Airbender.Prover

open Compiler

inductive QuotientTerm
  | booleanConstraint (witnessColumn : Nat)
  | degree2Constraint (constraint : CompiledDegree2Constraint)
  | degree1Constraint (constraint : CompiledDegree1Constraint)
  | isBoolean (memoryColumn : Nat)
  | zeroUnlessProcessed (memoryColumn : Nat)
  | pairProduct (access : LookupWidth1Access) (circuitSequence : Bool)
  | pairInverse (access : LookupWidth1Access) (circuitSequence : Bool)
  | decoderAccess (column : Nat)
  | width3Lookup (lookup : LookupSetDescription) (column : Nat)
  | multiplicity (column multiplicities setup : Nat)
  | delegationSet (column multiplicity : Nat)
  | zeroUnlessBorrow (finalBorrow : ColumnAddress) (memoryColumn : Nat)
  | accumulator (column : Nat)
  | masking (column execute : Nat)
  | grandProduct (column : Nat)
deriving DecidableEq

/-! ## Constraints -/

/-- The powers that the constraints take.  Boolean constraints are read off their columns. -/
def evaluateGenericConstraints (circuit : CompiledCircuitArtifact) : List (Nat × QuotientTerm) :=
  let booleans := circuit.witnessLayout.booleanVarsColumnsRange
  let numQuadratic := circuit.degree2Constraints.length
  ((List.range booleans.numElements).map fun i =>
      (i, .booleanConstraint (booleans.start + i))) ++
    ((circuit.degree2Constraints.zipIdx.drop booleans.numElements).map fun entry =>
      (entry.2, .degree2Constraint entry.1)) ++
    (circuit.degree1Constraints.zipIdx numQuadratic).map fun entry =>
      (entry.2, .degree1Constraint entry.1)

/-! ## Delegation circuits -/

/-- Both limbs vanish on rows without a delegation. -/
def lowAndHigh (set : ColumnSet 2) : List QuotientTerm :=
  [.zeroUnlessProcessed set.start, .zeroUnlessProcessed (set.start + 1)]

def registerValueSets : RegisterAccessColumns → List (ColumnSet 2)
  | .readAccess _ readTimestamp readValue => [readTimestamp, readValue]
  | .writeAccess _ readTimestamp readValue writeValue => [readTimestamp, readValue, writeValue]

def indirectValueSets : IndirectAccessColumns → List (ColumnSet 2)
  | .readAccess readTimestamp readValue _ _ _ => [readTimestamp, readValue]
  | .writeAccess readTimestamp readValue writeValue _ _ _ =>
      [readTimestamp, readValue, writeValue]

/-- An address derivation with a carry has a boolean constraint, whatever the access. -/
def indirectConventions (access : IndirectAccessColumns) : List QuotientTerm :=
  (indirectValueSets access).flatMap lowAndHigh ++
    if access.hasCarry then [.isBoolean access.getAddressDerivationCarryBitColumn.start] else []

def accessConventions (access : RegisterAndIndirectAccessDescription) : List QuotientTerm :=
  (registerValueSets access.registerAccess).flatMap lowAndHigh ++
    access.indirectAccesses.flatMap indirectConventions

def evaluateDelegationProcessingConventions (circuit : CompiledCircuitArtifact)
    (delegationProcessorLayout : DelegationProcessingLayout) : Option (List QuotientTerm) := do
  guard circuit.memoryLayout.batchedRamAccesses.isEmpty
  some ([.isBoolean delegationProcessorLayout.multiplicity.start,
      .zeroUnlessProcessed delegationProcessorLayout.abiMemOffsetHigh.start] ++
    lowAndHigh delegationProcessorLayout.writeTimestamp ++
    circuit.memoryLayout.registerAndIndirectAccesses.flatMap accessConventions)

def IndirectAccessColumns.offsetConstant : IndirectAccessColumns → U32
  | .readAccess _ _ _ _ offsetConstant => offsetConstant
  | .writeAccess _ _ _ _ _ offsetConstant => offsetConstant

def IndirectAccessColumns.variableDependent :
    IndirectAccessColumns → Option (U32 × ColumnSet 1 × Nat)
  | .readAccess _ _ _ variableDependent _ => variableDependent
  | .writeAccess _ _ _ _ variableDependent _ => variableDependent

/-- What the accumulation demands of an access: a small offset, and no carry together with a
variable offset. -/
def suitsAccumulation (access : IndirectAccessColumns) : Bool :=
  (IndirectAccessColumns.offsetConstant access).toNat < 1 <<< 16 &&
    (access.getAddressDerivationCarryBitColumn.numElements = 0 ||
      (IndirectAccessColumns.variableDependent access).isNone)

/-- One accumulator for every access; the columns have to last. -/
def evaluateRegisterAndIndirectMemoryAccesses (circuit : CompiledCircuitArtifact) :
    Option (List QuotientTerm) := do
  let accesses := circuit.memoryLayout.registerAndIndirectAccesses
  let columns := circuit.stage2Layout.intermediatePolysForMemoryArgument
  guard (accesses.all fun access => access.indirectAccesses.all suitsAccumulation)
  let numAccesses := (accesses.map fun access => 1 + access.indirectAccesses.length).sum
  (List.range numAccesses).mapM fun idx => do
    guard (idx < columns.numElements)
    some (.accumulator (columns.getRangeStart idx))

/-! ## Lookups -/

/-- Two terms for every pair of range-checked inputs. -/
def evaluateRangeChecks (circuitSequence : Bool) (accesses : List LookupWidth1Access) :
    List QuotientTerm :=
  accesses.flatMap fun access =>
    [.pairProduct access circuitSequence, .pairInverse access circuitSequence]

def evaluateRangeCheck16OverVariables (cached : ProverCachedData) : List QuotientTerm :=
  evaluateRangeChecks false cached.rangeCheck16Accesses

def evaluateRangeCheck16OverExpressions (cached : ProverCachedData) : List QuotientTerm :=
  evaluateRangeChecks false cached.rangeCheck16AccessesViaExpressions

def evaluateTimestampRangeCheckExpressions (cached : ProverCachedData) : List QuotientTerm :=
  evaluateRangeChecks false cached.timestampAccessesViaExpressions ++
    evaluateRangeChecks true cached.timestampAccessesViaExpressionsForShuffleRam

/-- The limbs of the lazy initial addresses, set by set. -/
def lazyInitAccesses (circuit : CompiledCircuitArtifact) : Option (List LookupWidth1Access) := do
  let oracles ← circuit.stage2Layout.lazyInitAddressRangeCheck16
  (List.range oracles.numPairs).mapM fun i => do
    let inits ← circuit.memoryLayout.shuffleRamInitsAndTeardowns[i]?
    let start := inits.lazyInitAddressesColumns.start
    some ⟨.variable (.memorySubtree start), .variable (.memorySubtree (start + 1)),
      oracles.baseFieldOracles.getRangeStart i, oracles.ext4FieldOracles.getRangeStart i⟩

def evaluateMemoryInitTeardownRangeChecks (circuit : CompiledCircuitArtifact) :
    Option (List QuotientTerm) :=
  (lazyInitAccesses circuit).map (evaluateRangeChecks false)

/-- The decoded data of a row have to be in the witness. -/
def evaluateDecoderTableAccess (circuit : CompiledCircuitArtifact)
    (state : IntermediateStatePermutationVariables) : Option (List QuotientTerm) := do
  guard (state.decoderWitnessIsInMemory = false)
  some [.decoderAccess circuit.stage2Layout.intermediatePolyForDecoderAccesses.start]

def evaluateWidth3Lookups (circuit : CompiledCircuitArtifact) : List QuotientTerm :=
  circuit.witnessLayout.width3Lookups.zipIdx.map fun entry =>
    .width3Lookup entry.1
      (circuit.stage2Layout.intermediatePolysForGenericLookup.getRangeStart entry.2)

def evaluateWidth1RangeCheckMultiplicity (poly : AlignedColumnSet 4)
    (multiplicitiesSrc setupColumn : Nat) : List QuotientTerm :=
  if 0 < poly.numElements then [.multiplicity poly.start multiplicitiesSrc setupColumn] else []

def evaluateDecoderLookupMultiplicity (circuit : CompiledCircuitArtifact) : List QuotientTerm :=
  let multiplicities := circuit.witnessLayout.multiplicitiesColumnsForDecoderInExecutorFamilies
  if 0 < multiplicities.numElements then
    [.multiplicity circuit.stage2Layout.intermediatePolysForDecoderMultiplicities.start
      multiplicities.start circuit.setupLayout.preprocessedDecoderSetupColumns.start]
  else []

def evaluateWidth3LookupsMultiplicity (circuit : CompiledCircuitArtifact) : List QuotientTerm :=
  let multiplicities := circuit.witnessLayout.multiplicitiesColumnsForGenericLookup
  (List.range multiplicities.numElements).map fun i =>
    .multiplicity (circuit.stage2Layout.intermediatePolysForGenericMultiplicities.getRangeStart i)
      (multiplicities.start + i) (circuit.setupLayout.genericLookupSetupColumns.start + i * 4)

/-- The multiplicities of the range checks. -/
def evaluateRangeCheckMultiplicities (circuit : CompiledCircuitArtifact)
    (cached : ProverCachedData) : List QuotientTerm :=
  evaluateWidth1RangeCheckMultiplicity
      circuit.stage2Layout.intermediatePolyForRangeCheck16Multiplicity
      cached.rangeCheck16MultiplicitiesSrc cached.rangeCheck16SetupColumn ++
    evaluateWidth1RangeCheckMultiplicity
      circuit.stage2Layout.intermediatePolyForTimestampRangeCheckMultiplicity
      cached.timestampRangeCheckMultiplicitiesSrc cached.timestampRangeCheckSetupColumn

/-! ## Delegations, memory and state -/

def evaluateDelegationRequests (circuit : CompiledCircuitArtifact) :
    Option (List QuotientTerm) := do
  let aux ← circuit.stage2Layout.delegationProcessingAuxPoly
  let request ← circuit.memoryLayout.delegationRequestLayout
  some [.delegationSet aux.start request.multiplicity.start]

/-- The six values that vanish without a final borrow. -/
def paddingColumns (inits : ShuffleRamInitAndTeardownLayout) : List Nat :=
  [inits.lazyInitAddressesColumns.start, inits.lazyInitAddressesColumns.start + 1,
    inits.lazyTeardownValuesColumns.start, inits.lazyTeardownValuesColumns.start + 1,
    inits.lazyTeardownTimestampsColumns.start, inits.lazyTeardownTimestampsColumns.start + 1]

def evaluateMemoryInitTeardownPadding (circuit : CompiledCircuitArtifact) : List QuotientTerm :=
  (circuit.lazyInitAddressAuxVars.zip
    circuit.memoryLayout.shuffleRamInitsAndTeardowns).flatMap fun entry =>
      (paddingColumns entry.2).map (.zeroUnlessBorrow entry.1.finalBorrow)

def evaluateMemoryQueriesAccumulation (circuit : CompiledCircuitArtifact) : List QuotientTerm :=
  circuit.memoryLayout.shuffleRamAccessSets.zipIdx.map fun entry =>
    .accumulator
      (circuit.stage2Layout.intermediatePolysForMemoryArgument.getRangeStart entry.2)

def evaluateMemoryInitTeardownAccumulation (circuit : CompiledCircuitArtifact) :
    List QuotientTerm :=
  circuit.memoryLayout.shuffleRamInitsAndTeardowns.zipIdx.map fun entry =>
    .accumulator
      (circuit.stage2Layout.intermediatePolysForMemoryInitTeardown.getRangeStart entry.2)

def evaluateMachineStatePermutationAssumingNoDecoder (circuit : CompiledCircuitArtifact) :
    Option (List QuotientTerm) := do
  let dst := circuit.stage2Layout.intermediatePolysForStatePermutation
  if 0 < dst.numElements then
    let _initialMachineState ← circuit.memoryLayout.intermediateStateLayout
    let _finalMachineState ← circuit.memoryLayout.machineStateLayout
    guard (dst.numElements = 1)
    some [.accumulator dst.start]
  else some []

def evaluatePermutationMasking (circuit : CompiledCircuitArtifact) :
    Option (List QuotientTerm) := do
  let dst := circuit.stage2Layout.intermediatePolysForPermutationMasking
  if 0 < dst.numElements then
    let initialMachineState ← circuit.memoryLayout.intermediateStateLayout
    guard (dst.numElements = 1)
    some [.masking dst.start initialMachineState.execute.start]
  else some []

/-- The last term, whether the product has a column or not. -/
def evaluateGrandProduct (circuit : CompiledCircuitArtifact) : List QuotientTerm :=
  [.grandProduct circuit.stage2Layout.intermediatePolyForGrandProduct.start]

/-! ## One row -/

/-- All terms with the indices of their powers. -/
def withChallenges (circuit : CompiledCircuitArtifact) (otherTerms : List QuotientTerm) :
    List (Nat × QuotientTerm) :=
  evaluateGenericConstraints circuit ++
    (otherTerms.zipIdx (circuit.degree2Constraints.length +
      circuit.degree1Constraints.length)).map Prod.swap

/-- A term that a flag of the cached data switches on. -/
def evaluateIf (flag : Bool) (terms : Option (List QuotientTerm)) : Option (List QuotientTerm) :=
  if flag then terms else some []

/-- `prover_stage_3`, for the main circuit and for delegation circuits. -/
def proverStage3Terms (circuit : CompiledCircuitArtifact) :
    Option (List (Nat × QuotientTerm)) := do
  let cached ← ProverCachedData.new circuit
  let conventions ← evaluateIf cached.processDelegations
    (evaluateDelegationProcessingConventions circuit cached.delegationProcessorLayout)
  let initRangeChecks ← evaluateIf cached.processShuffleRamInit
    (evaluateMemoryInitTeardownRangeChecks circuit)
  guard circuit.stage2Layout.remainderForRangeCheck16.isNone
  let requests ← evaluateIf cached.handleDelegationRequests (evaluateDelegationRequests circuit)
  let processing ← evaluateIf cached.processDelegations
    (some [.delegationSet cached.delegationProcessingAuxPoly.start
      cached.delegationProcessorLayout.multiplicity.start])
  let padding ← evaluateIf cached.processShuffleRamInit
    (some (evaluateMemoryInitTeardownPadding circuit))
  let initAccumulation ← evaluateIf cached.processShuffleRamInit
    (some (evaluateMemoryInitTeardownAccumulation circuit))
  guard (cached.processBatchRamAccess = false)
  let accesses ← evaluateIf cached.processRegistersAndIndirectAccess
    (evaluateRegisterAndIndirectMemoryAccesses circuit)
  some (withChallenges circuit (conventions ++ evaluateRangeCheck16OverVariables cached ++
    evaluateRangeCheck16OverExpressions cached ++ initRangeChecks ++
    evaluateTimestampRangeCheckExpressions cached ++ evaluateWidth3Lookups circuit ++
    evaluateRangeCheckMultiplicities circuit cached ++
    evaluateWidth3LookupsMultiplicity circuit ++ requests ++ processing ++ padding ++
    evaluateMemoryQueriesAccumulation circuit ++ initAccumulation ++ accesses ++
    evaluateGrandProduct circuit))

/-- `prover_stage_3_for_unrolled_circuit`.  It leaves delegation circuits to the other one. -/
def proverStage3ForUnrolledCircuitTerms (circuit : CompiledCircuitArtifact) :
    Option (List (Nat × QuotientTerm)) := do
  let cached ← ProverCachedData.new circuit
  guard circuit.publicInputs.isEmpty
  guard circuit.stateLinkageConstraints.isEmpty
  guard cached.timestampAccessesViaExpressionsForShuffleRam.isEmpty
  let initRangeChecks ← evaluateIf cached.processShuffleRamInit
    (evaluateMemoryInitTeardownRangeChecks circuit)
  guard circuit.stage2Layout.remainderForRangeCheck16.isNone
  let decoderAccess ← match circuit.memoryLayout.intermediateStateLayout with
    | some state => evaluateDecoderTableAccess circuit state
    | none => some []
  let requests ← evaluateIf cached.handleDelegationRequests (evaluateDelegationRequests circuit)
  guard (cached.processDelegations = false)
  let padding ← evaluateIf cached.processShuffleRamInit
    (some (evaluateMemoryInitTeardownPadding circuit))
  guard (cached.processBatchRamAccess = false)
  guard (cached.processRegistersAndIndirectAccess = false)
  let statePermutation ← evaluateMachineStatePermutationAssumingNoDecoder circuit
  let masking ← evaluatePermutationMasking circuit
  let initAccumulation ← evaluateIf cached.processShuffleRamInit
    (some (evaluateMemoryInitTeardownAccumulation circuit))
  some (withChallenges circuit (evaluateRangeCheck16OverVariables cached ++
    evaluateRangeCheck16OverExpressions cached ++ initRangeChecks ++
    evaluateTimestampRangeCheckExpressions cached ++ decoderAccess ++
    evaluateWidth3Lookups circuit ++ evaluateRangeCheckMultiplicities circuit cached ++
    evaluateDecoderLookupMultiplicity circuit ++ evaluateWidth3LookupsMultiplicity circuit ++
    requests ++ padding ++ evaluateMemoryQueriesAccumulation circuit ++ statePermutation ++
    masking ++ initAccumulation ++ evaluateGrandProduct circuit))

end Airbender.Prover
