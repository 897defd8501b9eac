import Airbender.Compiler.ScratchSpace

/-!
# Placement of the memory columns

The compilers place the memory tree first: lazy initial values, queries to shuffle RAM, and in
a delegation circuit the accesses to registers and through pointers in registers.
-/

namespace Airbender.Compiler

open Construction
open Mersenne31 (Element)
open Constraints (Variable Constraint Boolean isPlaceholder)

/-- What the memory columns leave behind for the rest of a compilation. -/
structure MemoryPart where
  memoryLayout : MemorySubtree
  lazyInitAuxSet : List (WordVariables × Variable × Variable)
  timestampExpressionsToCompile : List LookupInput
  timestampPartialSets : List ShuffleRamTimestampComparisonPartialData
  extraRangeCheck16Expressions : List LookupExpression

/-! ## Lazy initial values -/

def pushRangeCheck16 (var : Variable) : Compiling Unit :=
  modify fun placement => { placement with
    rangeCheckExpressions :=
      placement.rangeCheckExpressions ++ [⟨.variable var, largeRangeCheckTableWidth⟩] }

/-- One set of columns: its layout, and the variables that compare addresses of two rows. -/
def compileInitAndTeardown :
    Compiling (ShuffleRamInitAndTeardownLayout × WordVariables × Variable × Variable) := do
  let tmpLow ← addCompilerDefinedVariable
  let tmpHigh ← addCompilerDefinedVariable
  let intermediateBorrow ← addCompilerDefinedVariable
  let finalBorrow ← addCompilerDefinedVariable
  pushRangeCheck16 tmpLow
  pushRangeCheck16 tmpHigh
  pushBooleanVar intermediateBorrow
  pushBooleanVar finalBorrow
  let initAddresses ← addCompilerDefinedWord
  let teardownValues ← addCompilerDefinedWord
  let teardownTimestamps ← addCompilerDefinedWord
  let lazyInitAddressesColumns ← layoutMemorySubtreeWord initAddresses
  let lazyTeardownValuesColumns ← layoutMemorySubtreeWord teardownValues
  let lazyTeardownTimestampsColumns ← layoutMemorySubtreeWord teardownTimestamps
  pure (⟨lazyInitAddressesColumns, lazyTeardownValuesColumns, lazyTeardownTimestampsColumns⟩,
    (tmpLow, tmpHigh), intermediateBorrow, finalBorrow)

def compileInitsAndTeardowns (numSets : Nat) :
    Compiling (List ShuffleRamInitAndTeardownLayout ×
      List (WordVariables × Variable × Variable)) := do
  let sets ← (List.range numSets).mapM fun _ => compileInitAndTeardown
  pure (sets.map Prod.fst, sets.map Prod.snd)

/-- The columns of the variables of one set. -/
def lazyInitAddressAuxVars (auxVars : WordVariables × Variable × Variable) :
    Compiling ShuffleRamAuxComparisonSet := do
  let low ← placeOf auxVars.1.1
  let high ← placeOf auxVars.1.2
  let intermediateBorrow ← placeOf auxVars.2.1
  let finalBorrow ← placeOf auxVars.2.2
  pure ⟨(low, high), intermediateBorrow, finalBorrow⟩

/-! ## Shuffle RAM -/

/-- `get_variable().unwrap()`. -/
def variableOfBoolean : Boolean → Option Variable
  | .is var => some var
  | .not _ => none
  | .constant _ => none

def layoutShuffleRamAddress : ShuffleRamQueryType → Compiling ShuffleRamAddress
  | .registerOnly registerIndex => do
      let registerIndex ← layoutMemorySubtreeVariable registerIndex
      pure (.registerOnly ⟨registerIndex⟩)
  | .registerOrRam isRegister address => do
      let isRegister ← lift (variableOfBoolean isRegister)
      let isRegister ← layoutMemorySubtreeVariable isRegister
      let address ← layoutMemorySubtreeWord address
      pure (.registerOrRam ⟨isRegister, address⟩)

/-- One query with its index: the columns, and the data of its timestamp comparison. -/
def compileShuffleRamQuery (entry : ShuffleRamMemQuery × Nat) :
    Compiling (ShuffleRamQueryColumns × ShuffleRamTimestampComparisonPartialData) := do
  let query := entry.1
  require (entry.2 = query.localTimestampInCycle)
  let readTimestampVars ← addCompilerDefinedWord
  let readTimestamp ← layoutMemorySubtreeWord readTimestampVars
  let borrowVar ← addCompilerDefinedVariable
  pushBooleanVar borrowVar
  let readValue ← layoutMemorySubtreeWord query.readValue
  let address ← layoutShuffleRamAddress query.queryType
  let isReadonly ← lift query.isReadonly
  let inCycleWriteIndex : U32 := BitVec.ofNat 32 query.localTimestampInCycle
  let partialData := ⟨borrowVar, readTimestampVars, query.localTimestampInCycle⟩
  if isReadonly then
    pure (.readonly ⟨inCycleWriteIndex, address, readTimestamp, readValue⟩, partialData)
  else do
    let writeValue ← layoutMemorySubtreeWord query.writeValue
    pure (.write ⟨inCycleWriteIndex, address, readTimestamp, readValue, writeValue⟩, partialData)

/-- The queries are sorted by their timestamps, which follow each other. -/
def QueriesInOrder (queries : List ShuffleRamMemQuery) : Prop :=
  (queries.map ShuffleRamMemQuery.localTimestampInCycle).IsChain (· < ·) ∧
    (queries.map ShuffleRamMemQuery.localTimestampInCycle).IsChain fun a b => a + 1 = b

instance (queries : List ShuffleRamMemQuery) : Decidable (QueriesInOrder queries) :=
  inferInstanceAs (Decidable (_ ∧ _))

/-- The in-cycle timestamp of a delegation: behind all writes, which stand behind all reads. -/
def delegationTimestampOffset (queries : List ShuffleRamMemQuery) : Option Nat := do
  let flags ← queries.mapM ShuffleRamMemQuery.isReadonly
  let timestamps (readonly : Bool) : List Nat :=
    ((queries.zip flags).filter fun entry => entry.2 = readonly).map
      fun entry => entry.1.localTimestampInCycle
  let minRead ← (timestamps true).min?
  let maxRead ← (timestamps true).max?
  guard (minRead = 0)
  let minWrite ← (timestamps false).min?
  let maxWrite ← (timestamps false).max?
  guard (maxRead < minWrite)
  guard (maxWrite + 1 < timestampStep.toNat)
  some (maxWrite + 1)

/-- A circuit with preprocessed bytecode may leave the high part of the offset out. -/
def layoutDelegationRequest (mayBePlaceholder : Bool) (delegationTimestampOffset : Nat) :
    List DelegatedComputationRequest → Compiling (Option DelegationRequestLayout)
  | [] => pure none
  | [request] => do
      let multiplicity ← layoutMemorySubtreeVariable request.execute
      let delegationType ← layoutMemorySubtreeVariable request.delegationType
      let abiMemOffsetHigh ←
        if mayBePlaceholder ∧ isPlaceholder request.memoryOffsetHigh then pure (.empty 1)
        else layoutMemorySubtreeVariable request.memoryOffsetHigh
      pure (some ⟨multiplicity, delegationType, abiMemOffsetHigh,
        BitVec.ofNat 16 delegationTimestampOffset⟩)
  | _ => lift none

/-- The memory of the main circuit: one set of lazy initial values for each row. -/
def compileChunkedMemory (output : CircuitOutput) : Compiling MemoryPart := do
  let (inits, lazyInitAuxSet) ← compileInitsAndTeardowns 1
  require (QueriesInOrder output.shuffleRamQueries)
  let queries ← output.shuffleRamQueries.zipIdx.mapM compileShuffleRamQuery
  let delegationTimestamp ← lift (delegationTimestampOffset output.shuffleRamQueries)
  let request ←
    layoutDelegationRequest false delegationTimestamp output.delegatedComputationRequests
  let placement ← get
  pure {
    memoryLayout := {
      shuffleRamInitsAndTeardowns := inits
      shuffleRamAccessSets := queries.map Prod.fst
      delegationRequestLayout := request
      delegationProcessorLayout := none
      machineStateLayout := none
      intermediateStateLayout := none
      batchedRamAccesses := []
      registerAndIndirectAccesses := []
      totalWidth := placement.memoryTreeOffset }
    lazyInitAuxSet := lazyInitAuxSet
    timestampExpressionsToCompile := []
    timestampPartialSets := queries.map Prod.snd
    extraRangeCheck16Expressions := [] }

/-! ## Delegation circuits -/

def RegisterAccessColumns.getReadValueColumns : RegisterAccessColumns → ColumnSet 2
  | readAccess _ _ readValue => readValue
  | writeAccess _ _ readValue _ => readValue

/-- The variables of a delegation that take part in every timestamp comparison. -/
structure DelegationTimestamp where
  predicate : Variable
  low : Variable
  high : Variable

/-- The read timestamp of one access, and the expressions that compare it. -/
def compileReadTimestamp (delegation : DelegationTimestamp) :
    Compiling (ColumnSet 2 × List LookupInput) := do
  let borrow ← addCompilerDefinedVariable
  pushBooleanVar borrow
  let low ← addCompilerDefinedVariable
  let high ← addCompilerDefinedVariable
  let columns ← layoutMemorySubtreeWord (low, high)
  let expressions ← lift (delegationTimestampComparison delegation.predicate delegation.low
    delegation.high ⟨borrow, low, high⟩)
  pure (columns, expressions)

def compileRegisterAccess (registerIndex : U32) (readTimestamp : ColumnSet 2) :
    RegisterAccessType → Compiling RegisterAccessColumns
  | .read readValue => do
      let readValue ← layoutMemorySubtreeWord readValue
      pure (.readAccess registerIndex readTimestamp readValue)
  | .write readValue writeValue => do
      let readValue ← layoutMemorySubtreeWord readValue
      let writeValue ← layoutMemorySubtreeWord writeValue
      pure (.writeAccess registerIndex readTimestamp readValue writeValue)

/-- The low half of the pointer, shifted by its alignment, is range checked. -/
def alignmentExpression (indirectsAlignmentLog2 : U32) (readValue : ColumnSet 2) :
    Option LookupExpression := do
  guard (2 ≤ indirectsAlignmentLog2.toNat ∧ indirectsAlignmentLog2.toNat < 64)
  let shift ← Element.fromU64Unchecked ((1 : U64) <<< indirectsAlignmentLog2.toNat)
  let inverse ← shift.inverse
  some (.expression ⟨[(inverse, .memorySubtree readValue.start)], Element.zero⟩)

/-- An access at a nonzero offset that may cross the alignment has a carry bit. -/
def layoutAddressCarry (access : IndirectAccessType) : Compiling (ColumnSet 1) :=
  if access.considerAligned then pure (.empty 1)
  else do
    require access.variableDependent.isNone
    if access.offsetConstant = 0 then pure (.empty 1)
    else do
      let addressCarry ← addCompilerDefinedVariable
      layoutMemorySubtreeVariable addressCarry

/-- A variable offset can be shared between accesses. -/
def layoutVariablePart (access : IndirectAccessType) :
    Compiling (Option (U32 × ColumnSet 1 × Nat)) :=
  match access.variableDependent with
  | none => pure none
  | some (offset, var, indirectAccessVarIdx) => do
      let placement ← get
      match placement.layout var with
      | some (.memorySubtree column) => pure (some (offset, ⟨column, 1⟩, indirectAccessVarIdx))
      | some _ => lift none
      | none => do
          let column ← layoutMemorySubtreeVariable var
          pure (some (offset, column, indirectAccessVarIdx))

/-- Both halves of the derived address are range checked when there is a carry. -/
def carryExpressions (access : IndirectAccessType) (registerReadValue : ColumnSet 2)
    (addressCarry : ColumnSet 1) : Option (List LookupExpression) :=
  if 0 < addressCarry.numElements then do
    guard access.variableDependent.isNone
    let shift16 ← Element.fromU64Unchecked ((1 : U64) <<< 16)
    let offset ← Element.fromU64Unchecked (access.offsetConstant.setWidth 64)
    some [
      .expression ⟨[(Element.one, .memorySubtree registerReadValue.start),
        (shift16.negate, .memorySubtree addressCarry.start)], offset⟩,
      .expression ⟨[(Element.one, .memorySubtree (registerReadValue.start + 1)),
        (Element.one, .memorySubtree addressCarry.start)], Element.zero⟩]
  else some []

/-- One access through a pointer: its columns, the timestamp comparison and range checks. -/
def compileIndirectAccess (delegation : DelegationTimestamp) (registerReadValue : ColumnSet 2)
    (access : IndirectAccessType) :
    Compiling (IndirectAccessColumns × List LookupInput × List LookupExpression) := do
  let (readTimestamp, comparison) ← compileReadTimestamp delegation
  let addressCarry ← layoutAddressCarry access
  require (access.offsetConstant.toNat < 1 <<< 16)
  let variablePart ← layoutVariablePart access
  let rangeChecks ← lift (carryExpressions access registerReadValue addressCarry)
  match access with
  | .read readValue _ offsetConstant _ => do
      let readValue ← layoutMemorySubtreeWord readValue
      pure (.readAccess readTimestamp readValue addressCarry variablePart offsetConstant,
        comparison, rangeChecks)
  | .write readValue writeValue _ offsetConstant _ => do
      let readValue ← layoutMemorySubtreeWord readValue
      let writeValue ← layoutMemorySubtreeWord writeValue
      pure (.writeAccess readTimestamp readValue writeValue addressCarry variablePart
        offsetConstant, comparison, rangeChecks)

/-- A register access and the accesses through its value. -/
def compileRegisterAndIndirectAccesses (delegation : DelegationTimestamp)
    (access : RegisterAndIndirectAccesses) :
    Compiling
      (RegisterAndIndirectAccessDescription × List LookupInput × List LookupExpression) := do
  let (readTimestamp, comparison) ← compileReadTimestamp delegation
  require (0 < access.registerIndex.toNat ∧ access.registerIndex.toNat < 32)
  let registerAccess ←
    compileRegisterAccess access.registerIndex readTimestamp access.registerAccess
  let readValue := registerAccess.getReadValueColumns
  let alignment ←
    if 0 < access.indirectAccesses.length then
      lift ((alignmentExpression access.indirectsAlignmentLog2 readValue).map ([·]))
    else pure []
  let indirects ← access.indirectAccesses.mapM (compileIndirectAccess delegation readValue)
  pure (⟨registerAccess, indirects.map Prod.fst⟩,
    comparison ++ (indirects.map fun indirect => indirect.2.1).flatten,
    alignment ++ (indirects.map fun indirect => indirect.2.2).flatten)

/-- The memory of a delegation circuit: the request, and then all accesses. -/
def compileDelegationMemory (output : CircuitOutput) : Compiling MemoryPart := do
  let request ← lift output.degegatedRequestToProcess
  let multiplicity ← layoutMemorySubtreeVariable request.execute
  let abiMemOffsetHigh ← layoutMemorySubtreeVariable request.memoryOffsetHigh
  let timestampLow ← addCompilerDefinedVariable
  let timestampHigh ← addCompilerDefinedVariable
  let writeTimestamp ← layoutMemorySubtreeWord (timestampLow, timestampHigh)
  let accesses ← output.registerAndIndirectMemoryAccesses.mapM
    (compileRegisterAndIndirectAccesses ⟨request.execute, timestampLow, timestampHigh⟩)
  let placement ← get
  pure {
    memoryLayout := {
      shuffleRamInitsAndTeardowns := []
      shuffleRamAccessSets := []
      delegationRequestLayout := none
      delegationProcessorLayout := some ⟨multiplicity, abiMemOffsetHigh, writeTimestamp⟩
      machineStateLayout := none
      intermediateStateLayout := none
      batchedRamAccesses := []
      registerAndIndirectAccesses := accesses.map Prod.fst
      totalWidth := placement.memoryTreeOffset }
    lazyInitAuxSet := []
    timestampExpressionsToCompile := (accesses.map fun access => access.2.1).flatten
    timestampPartialSets := []
    extraRangeCheck16Expressions := (accesses.map fun access => access.2.2).flatten }

/-! ## Machine states -/

/-- A variable that is in memory already, or else goes to the witness. -/
def placeInMemoryOrWitness (var : Variable) : Compiling ColumnAddress := do
  let placement ← get
  match placement.layout var with
  | some (.memorySubtree offset) => pure (.memorySubtree offset)
  | _ => do
      let column ← layoutWitnessSubtreeVariable var
      pure (.witnessSubtree column.start)

/-- The next machine state, and the decoded one. -/
def layoutExecutorStateForPreprocessedBytecode (state : OpcodeFamilyCircuitState) :
    Compiling (MachineStatePermutationVariables × IntermediateStatePermutationVariables) := do
  let execute ← layoutMemorySubtreeVariable state.execute
  let pc ← layoutMemorySubtreeWord state.cycleStartState.pc
  let timestamp ← layoutMemorySubtreeWord state.cycleStartState.timestamp
  let rs1Index ← placeOf state.decoderData.rs1Index
  let rs1Index : ColumnSet 1 ← match rs1Index with
    | .memorySubtree offset => pure ⟨offset, 1⟩
    | _ => lift none
  let rs2Index ← placeInMemoryOrWitness state.decoderData.rs2Index
  let rdIndex ← placeInMemoryOrWitness state.decoderData.rdIndex
  let rdIsZero ← layoutWitnessSubtreeVariable state.decoderData.rdIsZero
  let imm ← layoutWitnessSubtreeWord state.decoderData.imm
  let funct3 ← layoutWitnessSubtreeVariable state.decoderData.funct3
  let funct7 ← match state.decoderData.funct7 with
    | some funct7 => layoutWitnessSubtreeVariable funct7
    | none => pure (.empty 1)
  let circuitFamilyExtraMask ← placeInMemoryOrWitness state.decoderData.circuitFamilyExtraMask
  let nextPc ← layoutMemorySubtreeWord state.cycleEndState.pc
  let nextTimestamp ← layoutMemorySubtreeWord state.cycleEndState.timestamp
  pure (⟨nextPc, nextTimestamp⟩, {
    execute := execute
    pc := pc
    timestamp := timestamp
    rs1Index := rs1Index
    rs2Index := rs2Index
    rdIndex := rdIndex
    decoderWitnessIsInMemory := false
    rdIsZero := rdIsZero
    imm := imm
    funct3 := funct3
    funct7 := funct7
    circuitFamily := .empty 1
    circuitFamilyExtraMask := circuitFamilyExtraMask })

/-- The state of a decoder circuit, with everything in memory. -/
def layoutDecoderStateIntoMemory (state : DecoderCircuitMachineState) :
    Compiling (MachineStatePermutationVariables × IntermediateStatePermutationVariables) := do
  let pc ← layoutMemorySubtreeWord state.cycleStartState.pc
  let timestamp ← layoutMemorySubtreeWord state.cycleStartState.timestamp
  let decoderData := state.decoderData.decoderData
  let rs1Index ← layoutMemorySubtreeVariable decoderData.rs1Index
  let rs2Index ← layoutMemorySubtreeVariable decoderData.rs2Index
  let rdIndex ← layoutMemorySubtreeVariable decoderData.rdIndex
  let rdIsZero ← layoutMemorySubtreeVariable decoderData.rdIsZero
  let imm ← layoutMemorySubtreeWord decoderData.imm
  let funct3 ← layoutMemorySubtreeVariable decoderData.funct3
  let funct7 ← lift decoderData.funct7
  let funct7 ← layoutMemorySubtreeVariable funct7
  let circuitFamilyExtraMask ← layoutMemorySubtreeVariable decoderData.circuitFamilyExtraMask
  let circuitFamily ← layoutMemorySubtreeVariable state.decoderData.circuitFamily
  pure (⟨pc, timestamp⟩, {
    execute := .empty 1
    pc := pc
    timestamp := timestamp
    rs1Index := rs1Index
    rs2Index := .memorySubtree rs2Index.start
    rdIndex := .memorySubtree rdIndex.start
    decoderWitnessIsInMemory := true
    rdIsZero := rdIsZero
    imm := imm
    funct3 := funct3
    funct7 := funct7
    circuitFamily := circuitFamily
    circuitFamilyExtraMask := .memorySubtree circuitFamilyExtraMask.start })

end Airbender.Compiler
