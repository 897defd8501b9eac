import Airbender.Compiler.MemoryPlacement
import Airbender.Compiler.Stage2Layout

/-!
# The one-row compilers

A circuit is compiled for the main machine, for a delegation, for a family of opcodes with
preprocessed bytecode, for its decoder, or for lazy initial values only.  All compilers place
the memory columns, then the witness columns, and derive the second stage from both.
-/

namespace Airbender.Compiler

open Construction
open Mersenne31 (Element)
open Constraints (Variable Constraint)

/-! ## Setup -/

/-- How many tuples of setup columns hold the rows of all tables. -/
def numRequiredSetupTuples (totalTablesLen traceLen : Nat) : Nat :=
  if totalTablesLen % (traceLen - 1) ≠ 0 then totalTablesLen / (traceLen - 1) + 1
  else totalTablesLen / (traceLen - 1)

/-- Columns that are placed when they are needed. -/
def layoutIfNeeded (needed : Bool) (width offset numElements : Nat) :
    Option (ColumnSet width × Nat) :=
  if needed then ColumnSet.layoutAt width offset numElements
  else some (.empty width, offset)

def SetupLayout.layoutForLookupSize (lookupsTotalTableLen traceLen : Nat)
    (needRangeCheck16Table needTimestampsRangeCheckTable needTimestampsSetupColumns
      needPreprocessedDecoderColumns : Bool) : Option SetupLayout := do
  guard (Usize.isPowerOfTwo traceLen)
  guard (0 < traceLen - 1)
  let (timestamps, offset) ← layoutIfNeeded needTimestampsSetupColumns 2 0 1
  let (rangeCheck16, offset) ← layoutIfNeeded needRangeCheck16Table 1 offset 1
  let (timestampRangeCheck, offset) ← layoutIfNeeded needTimestampsRangeCheckTable 1 offset 1
  let (genericLookup, offset) ←
    ColumnSet.layoutAt 4 offset (numRequiredSetupTuples lookupsTotalTableLen traceLen)
  let (decoder, offset) ← layoutIfNeeded needPreprocessedDecoderColumns
    executorFamilyCircuitDecoderTableWidth offset 1
  some ⟨timestamps, rangeCheck16, timestampRangeCheck, genericLookup, decoder, offset⟩

/-! ## Parts that the compilers share -/

/-- The witness columns, and the compiled constraints. -/
structure WitnessPart where
  witnessLayout : WitnessSubtree
  degree2Constraints : List CompiledDegree2Constraint
  degree1Constraints : List CompiledDegree1Constraint

def normalizeConstraints (constraints : List (Constraint × Bool)) :
    Option (List (Constraint × Bool)) :=
  constraints.mapM fun entry => do
    let normalized ← entry.1.normalize
    some (normalized, entry.2)

/-- `compile_timestamp_range_check_expressions` with the places so far. -/
def compileTimestampExpressions (useCircuitSeq : Bool) (traceLen : Nat) (memory : MemoryPart)
    (inputs : List LookupInput) (setupLayout : SetupLayout)
    (cycleTimestamp : Option (ColumnSet 2)) : Compiling (Nat × List LookupExpression) := do
  let placement ← get
  lift (compileTimestampRangeCheckExpressions useCircuitSeq traceLen inputs
    memory.timestampPartialSets placement.layout setupLayout.timestampSetupColumns
    cycleTimestamp)

/-- The end of every compilation. -/
def assembleArtifact (traceLen : Nat) (setupLayout : SetupLayout) (memory : MemoryPart)
    (witness : WitnessPart) (stateLinkageConstraints : List (ColumnAddress × ColumnAddress))
    (publicInputs : List (BoundaryConstraintLocation × ColumnAddress))
    (hasDecoderPart separateDecoderCircuit : Bool) : Compiling CompiledCircuitArtifact := do
  let lazyInitAddressAuxVars ← memory.lazyInitAuxSet.mapM lazyInitAddressAuxVars
  let stage2Layout ← lift (LookupAndMemoryArgumentLayout.fromCompiledParts true
    witness.witnessLayout memory.memoryLayout setupLayout hasDecoderPart separateDecoderCircuit)
  pure {
    witnessLayout := witness.witnessLayout
    memoryLayout := memory.memoryLayout
    setupLayout := setupLayout
    stage2Layout := stage2Layout
    degree2Constraints := witness.degree2Constraints.map CompiledDegree2Constraint.normalize
    degree1Constraints := witness.degree1Constraints.map CompiledDegree1Constraint.normalize
    stateLinkageConstraints := stateLinkageConstraints
    publicInputs := publicInputs
    lazyInitAddressAuxVars := lazyInitAddressAuxVars
    traceLen := traceLen }

/-- A compilation of the output of a circuit, from the variables of the circuit on. -/
def runCompilation (output : CircuitOutput) (steps : Compiling CompiledCircuitArtifact) :
    Option CompiledCircuitArtifact :=
  (steps.run (Placement.start output.numOfVariables output.booleanVars
    output.rangeCheckExpressions)).map Prod.fst

/-- The length of the trace, which has to be longer than the timestamp range. -/
def traceLenOf (traceLenLog2 : Nat) : Option Nat := do
  guard (timestampColumnsNumBits < traceLenLog2 ∧ traceLenLog2 < 64)
  some (1 <<< traceLenLog2)

/-! ## The main circuit and delegation circuits -/

/-- The tables of all lookups with a fixed table are there. -/
def tablesInitialized (output : CircuitOutput) : Bool :=
  output.lookups.all fun lookup =>
    match lookup.table with
    | .constant tableType => output.tableDriver.isInitialized tableType
    | .variable _ => true

/-- What `compile_inner` demands of a circuit. -/
def suitsCompileInner (forDelegation : Bool) (output : CircuitOutput) : Bool :=
  output.decoderMachineState.isNone && output.executorMachineState.isNone &&
    if forDelegation then
      output.stateInput.isEmpty && output.stateOutput.isEmpty &&
        output.shuffleRamQueries.isEmpty && output.linkedVariables.isEmpty &&
        output.degegatedRequestToProcess.isSome &&
        output.delegatedComputationRequests.isEmpty &&
        0 < output.registerAndIndirectMemoryAccesses.length && tablesInitialized output
    else
      output.shuffleRamQueries.length == 3 && output.linkedVariables.isEmpty &&
        output.degegatedRequestToProcess.isNone &&
        output.registerAndIndirectMemoryAccesses.isEmpty

/-- An odd number of expressions is filled up with the last one. -/
def padRangeCheck16Expressions (expressions : List LookupExpression) :
    Option (List LookupExpression) :=
  if expressions.length % 2 ≠ 0 then do
    let last ← expressions.getLast?
    some (expressions ++ [last])
  else some expressions

def compileInnerWitness (output : CircuitOutput) (traceLen : Nat) (setupLayout : SetupLayout)
    (memory : MemoryPart) : Compiling WitnessPart := do
  let rangeCheck16Multiplicities ← layoutWitnessColumns 1 1
  let timestampMultiplicities ← layoutWitnessColumns 1 1
  let genericMultiplicities ← layoutWitnessColumns 1
    (numRequiredSetupTuples output.tableDriver.totalTablesLen traceLen)
  let (rangeCheck8Columns, rangeCheck16Columns, rangeCheck16Expressions) ←
    allocateRangeCheckExpressions traceLen memory.extraRangeCheck16Expressions
      (memory.memoryLayout.shuffleRamInitsAndTeardowns.length * 2)
  let constraints ← lift (normalizeConstraints output.constraints)
  let (booleanColumns, booleanConstraints) ← placeBooleanVars
  let width3Lookups ← allocateWidth3Lookups traceLen output.lookups
  let (offset, timestampExpressions) ← compileTimestampExpressions true traceLen memory
    memory.timestampExpressionsToCompile setupLayout none
  let (optimizedOut, constraints) ← optimizeOutLinearConstraints output constraints
  let (scratchColumns, degree2Constraints, degree1Constraints) ←
    layoutScratchSpace booleanConstraints optimizedOut constraints
  require (rangeCheck16Columns.numElements % 2 = 0)
  let rangeCheck16Expressions ← lift (padRangeCheck16Expressions rangeCheck16Expressions)
  let placement ← get
  pure {
    witnessLayout := {
      multiplicitiesColumnsForRangeCheck16 := rangeCheck16Multiplicities
      multiplicitiesColumnsForTimestampRangeCheck := timestampMultiplicities
      multiplicitiesColumnsForDecoderInExecutorFamilies := .empty 1
      multiplicitiesColumnsForGenericLookup := genericMultiplicities
      rangeCheck8Columns := rangeCheck8Columns
      rangeCheck16Columns := rangeCheck16Columns
      width3Lookups := width3Lookups
      rangeCheck16LookupExpressions := rangeCheck16Expressions
      timestampRangeCheckLookupExpressions := timestampExpressions
      offsetForSpecialShuffleRamTimestampsRangeCheckExpressions := offset
      booleanVarsColumnsRange := booleanColumns
      scratchSpaceColumnsRange := scratchColumns
      totalWidth := placement.witnessTreeOffset }
    degree2Constraints := degree2Constraints
    degree1Constraints := degree1Constraints }

/-- The links from the final to the next initial state, and the public inputs. -/
def linkStates (output : CircuitOutput) :
    Compiling (List (ColumnAddress × ColumnAddress) ×
      List (BoundaryConstraintLocation × ColumnAddress)) := do
  require (output.stateInput.length = output.stateOutput.length)
  let places ← (output.stateInput.zip output.stateOutput).mapM fun pair => do
    let initial ← placeOf pair.1
    let final ← placeOf pair.2
    pure (initial, final)
  pure (places.map Prod.swap,
    places.map (fun pair => (.firstRow, pair.1)) ++
      places.map fun pair => (.oneBeforeLastRow, pair.2))

def compileInnerSteps (forDelegation : Bool) (output : CircuitOutput) (traceLen : Nat) :
    Compiling CompiledCircuitArtifact := do
  require (suitsCompileInner forDelegation output)
  let setupLayout ← lift (SetupLayout.layoutForLookupSize output.tableDriver.totalTablesLen
    traceLen true true (!forDelegation) false)
  require (output.delegatedComputationRequests.length ≤ 1)
  let memory ←
    if forDelegation then compileDelegationMemory output else compileChunkedMemory output
  let witness ← compileInnerWitness output traceLen setupLayout memory
  let (stateLinkage, publicInputs) ← linkStates output
  require (publicInputs.isEmpty = forDelegation)
  let _substitutions ← output.substitutions.mapM placeOf
  require (setupLayout.genericLookupSetupColumns.numElements =
    numRequiredSetupTuples output.tableDriver.totalTablesLen traceLen)
  assembleArtifact traceLen setupLayout memory witness stateLinkage publicInputs false false

def compileInner (forDelegation : Bool) (output : CircuitOutput) (traceLenLog2 : Nat) :
    Option CompiledCircuitArtifact := do
  let traceLen ← traceLenOf traceLenLog2
  runCompilation output (compileInnerSteps forDelegation output traceLen)

def compileOutputForChunkedMemoryArgument (output : CircuitOutput) (traceLenLog2 : Nat) :
    Option CompiledCircuitArtifact :=
  compileInner false output traceLenLog2

def compileToEvaluateDelegations (output : CircuitOutput) (traceLenLog2 : Nat) :
    Option CompiledCircuitArtifact :=
  compileInner true output traceLenLog2

/-! ## Lazy initial values -/

def compileInitAndTeardownSteps (numInitAndTeardownColumnSets traceLen : Nat) :
    Compiling CompiledCircuitArtifact := do
  let setupLayout ←
    lift (SetupLayout.layoutForLookupSize 0 traceLen true false false false)
  let (inits, lazyInitAuxSet) ← compileInitsAndTeardowns numInitAndTeardownColumnSets
  let placement ← get
  let memoryLayout : MemorySubtree := {
    shuffleRamInitsAndTeardowns := inits
    shuffleRamAccessSets := []
    delegationRequestLayout := none
    delegationProcessorLayout := none
    machineStateLayout := none
    intermediateStateLayout := none
    batchedRamAccesses := []
    registerAndIndirectAccesses := []
    totalWidth := placement.memoryTreeOffset }
  let rangeCheck16Multiplicities ← layoutWitnessColumns 1 1
  let (rangeCheck8Columns, rangeCheck16Columns, rangeCheck16Expressions) ←
    allocateRangeCheckExpressions traceLen [] (inits.length * 2)
  let (booleanColumns, booleanConstraints) ← placeBooleanVars
  let (scratchColumns, degree2Constraints, degree1Constraints) ←
    layoutScratchSpace booleanConstraints [] []
  let placement ← get
  let witnessLayout : WitnessSubtree := {
    multiplicitiesColumnsForRangeCheck16 := rangeCheck16Multiplicities
    multiplicitiesColumnsForTimestampRangeCheck := .empty 1
    multiplicitiesColumnsForDecoderInExecutorFamilies := .empty 1
    multiplicitiesColumnsForGenericLookup := .empty 1
    rangeCheck8Columns := rangeCheck8Columns
    rangeCheck16Columns := rangeCheck16Columns
    width3Lookups := []
    rangeCheck16LookupExpressions := rangeCheck16Expressions
    timestampRangeCheckLookupExpressions := []
    offsetForSpecialShuffleRamTimestampsRangeCheckExpressions := 0
    booleanVarsColumnsRange := booleanColumns
    scratchSpaceColumnsRange := scratchColumns
    totalWidth := placement.witnessTreeOffset }
  assembleArtifact traceLen setupLayout ⟨memoryLayout, lazyInitAuxSet, [], [], []⟩
    ⟨witnessLayout, degree2Constraints, degree1Constraints⟩ [] [] false false

/-- This circuit has no variables of its own. -/
def compileInitAndTeardownCircuit (numInitAndTeardownColumnSets traceLenLog2 : Nat) :
    Option CompiledCircuitArtifact := do
  let traceLen ← traceLenOf traceLenLog2
  ((compileInitAndTeardownSteps numInitAndTeardownColumnSets traceLen).run
    (Placement.start 0 [] [])).map Prod.fst

/-! ## Families of opcodes with preprocessed bytecode -/

/-- What the compiler of an executor circuit demands. -/
def suitsExecutor (output : CircuitOutput) : Bool :=
  output.stateInput.isEmpty && output.stateOutput.isEmpty && output.linkedVariables.isEmpty &&
    output.degegatedRequestToProcess.isNone &&
    output.registerAndIndirectMemoryAccesses.isEmpty && output.decoderMachineState.isNone

/-- The memory of an executor circuit, the constraints on its timestamps, and where the
timestamp of the cycle is. -/
def compileExecutorMemory (output : CircuitOutput) (state : OpcodeFamilyCircuitState)
    (numInitsAndTeardowns : Nat) :
    Compiling (MemoryPart × List (Constraint × Bool) × ColumnSet 2) := do
  let (inits, lazyInitAuxSet) ← compileInitsAndTeardowns numInitsAndTeardowns
  require (output.shuffleRamQueries.length < 4)
  require (QueriesInOrder output.shuffleRamQueries)
  let queries ← output.shuffleRamQueries.zipIdx.mapM compileShuffleRamQuery
  let intermediateCarry ← addCompilerDefinedVariable
  pushBooleanVar intermediateCarry
  let (low, high) ← lift (nextTimestampConstraints state.cycleStartState.timestamp
    state.cycleEndState.timestamp intermediateCarry)
  let delegationTimestamp ← lift (delegationTimestampOffset output.shuffleRamQueries)
  let request ←
    layoutDelegationRequest true delegationTimestamp output.delegatedComputationRequests
  let (machineState, executorState) ← layoutExecutorStateForPreprocessedBytecode state
  let placement ← get
  pure ({
    memoryLayout := {
      shuffleRamInitsAndTeardowns := inits
      shuffleRamAccessSets := queries.map Prod.fst
      delegationRequestLayout := request
      delegationProcessorLayout := none
      machineStateLayout := some machineState
      intermediateStateLayout := some executorState
      batchedRamAccesses := []
      registerAndIndirectAccesses := []
      totalWidth := placement.memoryTreeOffset }
    lazyInitAuxSet := lazyInitAuxSet
    timestampExpressionsToCompile := [.variable state.cycleEndState.timestamp.1,
      .variable state.cycleEndState.timestamp.2]
    timestampPartialSets := queries.map Prod.snd
    extraRangeCheck16Expressions := [] },
    [(low, true), (high, true)], executorState.timestamp)

def compileExecutorWitness (output : CircuitOutput) (traceLen : Nat)
    (setupLayout : SetupLayout) (memory : MemoryPart)
    (timestampConstraints : List (Constraint × Bool)) (cycleTimestamp : ColumnSet 2) :
    Compiling WitnessPart := do
  let rangeCheck16Multiplicities ← layoutWitnessColumns 1 1
  let timestampMultiplicities ← layoutWitnessColumns 1 1
  let decoderMultiplicities ← layoutWitnessColumns 1 1
  let genericMultiplicities ← layoutWitnessColumns 1
    (numRequiredSetupTuples output.tableDriver.totalTablesLen traceLen)
  let (rangeCheck8Columns, rangeCheck16Columns, rangeCheck16Expressions) ←
    allocateRangeCheckExpressions traceLen []
      (memory.memoryLayout.shuffleRamInitsAndTeardowns.length * 2)
  let constraints ← lift (normalizeConstraints (output.constraints ++ timestampConstraints))
  let (booleanColumns, booleanConstraints) ← placeBooleanVars
  let width3Lookups ← allocateWidth3Lookups traceLen output.lookups
  let (offset, timestampExpressions) ← compileTimestampExpressions false traceLen memory
    memory.timestampExpressionsToCompile setupLayout (some cycleTimestamp)
  let (optimizedOut, constraints) ← optimizeOutLinearConstraints output constraints
  let (scratchColumns, degree2Constraints, degree1Constraints) ←
    layoutScratchSpace booleanConstraints optimizedOut constraints
  let placement ← get
  pure {
    witnessLayout := {
      multiplicitiesColumnsForRangeCheck16 := rangeCheck16Multiplicities
      multiplicitiesColumnsForTimestampRangeCheck := timestampMultiplicities
      multiplicitiesColumnsForDecoderInExecutorFamilies := decoderMultiplicities
      multiplicitiesColumnsForGenericLookup := genericMultiplicities
      rangeCheck8Columns := rangeCheck8Columns
      rangeCheck16Columns := rangeCheck16Columns
      width3Lookups := width3Lookups
      rangeCheck16LookupExpressions := rangeCheck16Expressions
      timestampRangeCheckLookupExpressions := timestampExpressions
      offsetForSpecialShuffleRamTimestampsRangeCheckExpressions := offset
      booleanVarsColumnsRange := booleanColumns
      scratchSpaceColumnsRange := scratchColumns
      totalWidth := placement.witnessTreeOffset }
    degree2Constraints := degree2Constraints
    degree1Constraints := degree1Constraints }

def compileExecutorSteps (output : CircuitOutput) (numInitsAndTeardowns traceLen : Nat) :
    Compiling CompiledCircuitArtifact := do
  require (suitsExecutor output)
  let state ← lift output.executorMachineState
  let setupLayout ← lift (SetupLayout.layoutForLookupSize output.tableDriver.totalTablesLen
    traceLen true true false true)
  require (output.delegatedComputationRequests.length ≤ 1)
  let (memory, timestampConstraints, cycleTimestamp) ←
    compileExecutorMemory output state numInitsAndTeardowns
  let witness ← compileExecutorWitness output traceLen setupLayout memory timestampConstraints
    cycleTimestamp
  require (setupLayout.genericLookupSetupColumns.numElements =
    numRequiredSetupTuples output.tableDriver.totalTablesLen traceLen)
  assembleArtifact traceLen setupLayout memory witness [] [] true false

def compileExecutorCircuitAssumingPreprocessedBytecodeWithInitsAndTeardowns
    (output : CircuitOutput) (numInitsAndTeardowns traceLenLog2 : Nat) :
    Option CompiledCircuitArtifact := do
  let traceLen ← traceLenOf traceLenLog2
  runCompilation output (compileExecutorSteps output numInitsAndTeardowns traceLen)

def compileExecutorCircuitAssumingPreprocessedBytecode (output : CircuitOutput)
    (traceLenLog2 : Nat) : Option CompiledCircuitArtifact :=
  compileExecutorCircuitAssumingPreprocessedBytecodeWithInitsAndTeardowns output 0 traceLenLog2

/-- Executors without preprocessed bytecode are not compiled: the source stops at once. -/
def compileExecutorCircuit (_output : CircuitOutput) (_traceLenLog2 : Nat) :
    Option CompiledCircuitArtifact :=
  none

/-! ## Decoder circuits -/

/-- What the compiler of a decoder circuit demands.  All lookups use fixed tables. -/
def suitsDecoder (output : CircuitOutput) : Bool :=
  output.stateInput.isEmpty && output.stateOutput.isEmpty && output.shuffleRamQueries.isEmpty &&
    output.linkedVariables.isEmpty && output.degegatedRequestToProcess.isNone &&
    output.delegatedComputationRequests.isEmpty &&
    output.registerAndIndirectMemoryAccesses.isEmpty && output.executorMachineState.isNone &&
    output.rangeCheckExpressions.isEmpty &&
    output.lookups.all fun lookup =>
      match lookup.table with
      | .constant tableType => output.tableDriver.isInitialized tableType
      | .variable _ => false

/-- `LookupExpression::zero`. -/
def LookupExpression.zero : LookupExpression := .expression ⟨[], Element.zero⟩

def compileDecoderSteps (output : CircuitOutput) (traceLen : Nat) :
    Compiling CompiledCircuitArtifact := do
  require (suitsDecoder output)
  let state ← lift output.decoderMachineState
  let setupLayout ← lift (SetupLayout.layoutForLookupSize output.tableDriver.totalTablesLen
    traceLen false false false false)
  let (machineState, executorState) ← layoutDecoderStateIntoMemory state
  let placement ← get
  let memoryLayout : MemorySubtree := {
    shuffleRamInitsAndTeardowns := []
    shuffleRamAccessSets := []
    delegationRequestLayout := none
    delegationProcessorLayout := none
    machineStateLayout := some machineState
    intermediateStateLayout := some executorState
    batchedRamAccesses := []
    registerAndIndirectAccesses := []
    totalWidth := placement.memoryTreeOffset }
  let genericMultiplicities ← layoutWitnessColumns 1
    (numRequiredSetupTuples output.tableDriver.totalTablesLen traceLen)
  let constraints ← lift (normalizeConstraints output.constraints)
  let (booleanColumns, booleanConstraints) ← placeBooleanVars
  let width3Lookups ← allocateWidth3Lookups traceLen output.lookups
  let circuitFamily ← placeOf state.decoderData.circuitFamily
  let familyRangeCheck : LookupSetDescription :=
    ⟨(.variable circuitFamily, .zero, .zero), .constant .rangeCheckSmall⟩
  let width3Lookups := width3Lookups ++ [familyRangeCheck]
  require (width3Lookups.length * traceLen < Circuit.modulus)
  let (optimizedOut, constraints) ← optimizeOutLinearConstraints output constraints
  let (scratchColumns, degree2Constraints, degree1Constraints) ←
    layoutScratchSpace booleanConstraints optimizedOut constraints
  let placement ← get
  let witnessLayout : WitnessSubtree := {
    multiplicitiesColumnsForRangeCheck16 := .empty 1
    multiplicitiesColumnsForTimestampRangeCheck := .empty 1
    multiplicitiesColumnsForDecoderInExecutorFamilies := .empty 1
    multiplicitiesColumnsForGenericLookup := genericMultiplicities
    rangeCheck8Columns := .empty 1
    rangeCheck16Columns := .empty 1
    width3Lookups := width3Lookups
    rangeCheck16LookupExpressions := []
    timestampRangeCheckLookupExpressions := []
    offsetForSpecialShuffleRamTimestampsRangeCheckExpressions := 0
    booleanVarsColumnsRange := booleanColumns
    scratchSpaceColumnsRange := scratchColumns
    totalWidth := placement.witnessTreeOffset }
  require (setupLayout.genericLookupSetupColumns.numElements =
    numRequiredSetupTuples output.tableDriver.totalTablesLen traceLen)
  assembleArtifact traceLen setupLayout ⟨memoryLayout, [], [], [], []⟩
    ⟨witnessLayout, degree2Constraints, degree1Constraints⟩ [] [] true true

def compileDecoderCircuit (output : CircuitOutput) (traceLenLog2 : Nat) :
    Option CompiledCircuitArtifact := do
  let traceLen ← traceLenOf traceLenLog2
  runCompilation output (compileDecoderSteps output traceLen)

end Airbender.Compiler
