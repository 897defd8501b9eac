import Airbender.Compiler.Layouts
import Airbender.Lib.ConstantExpression

/-!
# Rendering compiled circuits

The generator writes a compiled circuit as Rust constants.  Every part of the layouts has a
rendering, an expression, and a denotation, the value that the expression has as a constant of
its type.  Lifetime arguments, which do not change a value, are not written.
-/

namespace Airbender.Compiler

open ConstantExpression
open Mersenne31 (Element)

/-! ## Names -/

/-- The paths of the generated constants, of constructors and of record types. -/
inductive Path
  | compiledWitnessLayout
  | compiledMemoryLayout
  | compiledSetupLayout
  | compiledStage2Layout
  | verifierCompiledLayout
  | optionNone
  | optionSome
  | mersenne31Field
  | columnSet (width : Nat)
  | alignedColumnSet (width : Nat)
  | columnAddressWitnessSubtree
  | columnAddressMemorySubtree
  | columnAddressSetupSubtree
  | columnAddressOptimizedOut
  | tableType (variant : TableType)
  | tableIndexVariable
  | tableIndexConstant
  | boundaryConstraintLocation (variant : BoundaryConstraintLocation)
  | registerOnlyAccessAddress
  | registerOrRamAccessAddress
  | shuffleRamAddressRegisterOnly
  | shuffleRamAddressRegisterOrRam
  | shuffleRamQueryReadColumns
  | shuffleRamQueryWriteColumns
  | shuffleRamQueryColumnsReadonly
  | shuffleRamQueryColumnsWrite
  | shuffleRamAuxComparisonSet
  | batchedRamAccessColumnsReadAccess
  | batchedRamAccessColumnsWriteAccess
  | registerAccessColumnsReadAccess
  | registerAccessColumnsWriteAccess
  | indirectAccessColumnsReadAccess
  | indirectAccessColumnsWriteAccess
  | compiledRegisterAndIndirectAccessDescription
  | shuffleRamInitAndTeardownLayout
  | delegationRequestLayout
  | delegationProcessingLayout
  | machineStatePermutationVariables
  | intermediateStatePermutationVariables
  | optimizedOraclesForLookupWidth1
  | staticVerifierCompiledDegree1Constraint
  | staticVerifierCompiledDegree2Constraint
  | verifierCompiledLookupExpressionVariable
  | verifierCompiledLookupExpressionExpression
  | verifierCompiledLookupSetDescription
  | compiledWitnessSubtree
  | compiledMemorySubtree
  | setupLayout
  | lookupAndMemoryArgumentLayout
  | verifierCompiledCircuitArtifact
deriving DecidableEq

/-- The names of the fields of all rendered records. -/
inductive FieldName
  | start
  | numElements
  | registerIndex
  | isRegister
  | address
  | inCycleWriteIndex
  | readTimestamp
  | readValue
  | writeValue
  | auxLowHigh
  | intermediateBorrow
  | finalBorrow
  | addressDerivationCarryBit
  | offsetConstant
  | variableDependent
  | registerAccess
  | indirectAccesses
  | lazyInitAddressesColumns
  | lazyTeardownValuesColumns
  | lazyTeardownTimestampsColumns
  | multiplicity
  | delegationType
  | abiMemOffsetHigh
  | writeTimestamp
  | pc
  | timestamp
  | execute
  | rs1Index
  | rs2Index
  | rdIndex
  | decoderWitnessIsInMemory
  | rdIsZero
  | imm
  | funct3
  | funct7
  | circuitFamily
  | circuitFamilyExtraMask
  | numPairs
  | baseFieldOracles
  | ext4FieldOracles
  | quadraticTerms
  | linearTerms
  | constantTerm
  | inputColumns
  | tableIndex
  | multiplicitiesColumnsForRangeCheck16
  | multiplicitiesColumnsForTimestampRangeCheck
  | multiplicitiesColumnsForDecoderInExecutorFamilies
  | multiplicitiesColumnsForGenericLookup
  | rangeCheck16Columns
  | width3Lookups
  | rangeCheck16LookupExpressions
  | timestampRangeCheckLookupExpressions
  | offsetForSpecialShuffleRamTimestampsRangeCheckExpressions
  | booleanVarsColumnsRange
  | scratchSpaceColumnsRange
  | totalWidth
  | shuffleRamInitsAndTeardowns
  | shuffleRamAccessSets
  | delegationRequestLayout
  | delegationProcessorLayout
  | machineStateLayout
  | intermediateStateLayout
  | batchedRamAccesses
  | registerAndIndirectAccesses
  | timestampSetupColumns
  | timestampRangeCheckSetupColumn
  | rangeCheck16SetupColumn
  | genericLookupSetupColumns
  | preprocessedDecoderSetupColumns
  | intermediatePolysForRangeCheck16
  | remainderForRangeCheck16
  | lazyInitAddressRangeCheck16
  | intermediatePolysForTimestampRangeChecks
  | intermediatePolysForGenericLookup
  | intermediatePolyForDecoderAccesses
  | intermediatePolyForRangeCheck16Multiplicity
  | intermediatePolyForTimestampRangeCheckMultiplicity
  | intermediatePolysForGenericMultiplicities
  | intermediatePolysForDecoderMultiplicities
  | delegationProcessingAuxPoly
  | intermediatePolysForMemoryInitTeardown
  | intermediatePolysForMemoryArgument
  | intermediatePolysForStatePermutation
  | intermediatePolysForPermutationMasking
  | intermediatePolyForGrandProduct
  | ext4PolysOffset
  | witnessLayout
  | memoryLayout
  | setupLayout
  | stage2Layout
  | degree2Constraints
  | degree1Constraints
  | stateLinkageConstraints
  | publicInputs
  | lazyInitAddressAuxVars
  | traceLenLog2
deriving DecidableEq

abbrev RustExpression := Expression Path FieldName

/-! ## Options and field elements -/

/-- `transform_option`. -/
def transformOption {α : Type} (toTokens : α → RustExpression) : Option α → RustExpression
  | some el => .call .optionSome (toTokens el)
  | none => .path .optionNone

def denoteOption {α : Type} (denote : RustExpression → Option α) :
    RustExpression → Option (Option α)
  | .call .optionSome el => (denote el).map some
  | .path .optionNone => some none
  | _ => none

theorem denoteOption_transformOption {α : Type} {toTokens : α → RustExpression}
    {denote : RustExpression → Option α} (inverse : ∀ el, denote (toTokens el) = some el)
    (el : Option α) : denoteOption denote (transformOption toTokens el) = some el := by
  cases el with
  | none => rfl
  | some el =>
      rw [transformOption, denoteOption, inverse el]
      rfl

/-- The element that `to_reduced_u32` leaves: zero has one representation. -/
def reduced (a : Element) : Element :=
  ⟨Mersenne31.toReducedU32 a.raw, by
    rw [Mersenne31.toNat_toReducedU32 a.bound]
    exact (Nat.mod_lt _ (by decide)).trans (by decide)⟩

/-- `ToTokens for Mersenne31Field`. -/
def elementToTokens (a : Element) : RustExpression :=
  .call .mersenne31Field (.u32 (Mersenne31.toReducedU32 a.raw))

/-- The tuple constructor takes any word of 31 bits. -/
def denoteElement (expression : RustExpression) : Option Element := do
  let raw ← expression.asCall .mersenne31Field Expression.asU32
  if bound : raw.toNat < 2 ^ 31 then some ⟨raw, bound⟩ else none

theorem denoteElement_toTokens (a : Element) :
    denoteElement (elementToTokens a) = some (reduced a) := by
  simp only [denoteElement, elementToTokens, asCall_call, asU32_u32, Option.bind_eq_bind,
    Option.bind_some]
  exact dif_pos (reduced a).bound

theorem reduced_eq_iff {a b : Element} : reduced a = reduced b ↔ a.eq b = true := by
  rw [Element.eq, beq_iff_eq, Element.asU64Reduced, Element.asU64Reduced, BitVec.toNat_inj,
    reduced, reduced, Element.mk.injEq]

/-! ## Columns and addresses -/

def ColumnSet.toTokens {width : Nat} (self : ColumnSet width) : RustExpression :=
  .record (.columnSet width) [
    (.start, .usize self.start),
    (.numElements, .usize self.numElements)]

def ColumnSet.denote (width : Nat) (expression : RustExpression) : Option (ColumnSet width) := do
  let fields ← expression.asRecord (.columnSet width) [.start, .numElements]
  let start ← readField fields .start Expression.asUsize
  let numElements ← readField fields .numElements Expression.asUsize
  some ⟨start, numElements⟩

@[simp] theorem ColumnSet.denote_toTokens {width : Nat} (self : ColumnSet width) :
    ColumnSet.denote width self.toTokens = some self := by
  simp [denote, toTokens]

def AlignedColumnSet.toTokens {width : Nat} (self : AlignedColumnSet width) : RustExpression :=
  .record (.alignedColumnSet width) [
    (.start, .usize self.start),
    (.numElements, .usize self.numElements)]

def AlignedColumnSet.denote (width : Nat) (expression : RustExpression) :
    Option (AlignedColumnSet width) := do
  let fields ← expression.asRecord (.alignedColumnSet width) [.start, .numElements]
  let start ← readField fields .start Expression.asUsize
  let numElements ← readField fields .numElements Expression.asUsize
  some ⟨start, numElements⟩

@[simp] theorem AlignedColumnSet.denote_toTokens {width : Nat} (self : AlignedColumnSet width) :
    AlignedColumnSet.denote width self.toTokens = some self := by
  simp [denote, toTokens]

def ColumnAddress.toTokens : ColumnAddress → RustExpression
  | witnessSubtree offset => .call .columnAddressWitnessSubtree (.usize offset)
  | memorySubtree offset => .call .columnAddressMemorySubtree (.usize offset)
  | setupSubtree offset => .call .columnAddressSetupSubtree (.usize offset)
  | optimizedOut offset => .call .columnAddressOptimizedOut (.usize offset)

def ColumnAddress.denote : RustExpression → Option ColumnAddress
  | .call .columnAddressWitnessSubtree offset => offset.asUsize.map witnessSubtree
  | .call .columnAddressMemorySubtree offset => offset.asUsize.map memorySubtree
  | .call .columnAddressSetupSubtree offset => offset.asUsize.map setupSubtree
  | .call .columnAddressOptimizedOut offset => offset.asUsize.map optimizedOut
  | _ => none

@[simp] theorem ColumnAddress.denote_toTokens (self : ColumnAddress) :
    ColumnAddress.denote self.toTokens = some self := by
  cases self with
  | witnessSubtree offset => rfl
  | memorySubtree offset => rfl
  | setupSubtree offset => rfl
  | optimizedOut offset => rfl

/-! ## Tables -/

/-- Two variants have no rendering: the source stops at them. -/
def TableType.toTokens : TableType → Option RustExpression
  | conditionalOpUnsignedConditionsResolver => none
  | dynamicPlaceholder => none
  | tableType => some (.path (.tableType tableType))

def TableType.denote : RustExpression → Option TableType
  | .path (.tableType variant) => some variant
  | _ => none

theorem TableType.denote_of_toTokens {self : TableType} {expression : RustExpression}
    (renders : self.toTokens = some expression) : TableType.denote expression = some self := by
  unfold toTokens at renders
  split at renders
  · cases renders
  · cases renders
  · cases renders
    rfl

def TableIndex.toTokens : TableIndex → Option RustExpression
  | .variable column => some (.call .tableIndexVariable column.toTokens)
  | .constant tableType => do
      let tableType ← tableType.toTokens
      some (.call .tableIndexConstant tableType)

def TableIndex.denote : RustExpression → Option TableIndex
  | .call .tableIndexVariable column => (ColumnAddress.denote column).map .variable
  | .call .tableIndexConstant tableType => (TableType.denote tableType).map .constant
  | _ => none

theorem TableIndex.denote_of_toTokens {self : TableIndex} {expression : RustExpression}
    (renders : self.toTokens = some expression) : TableIndex.denote expression = some self := by
  rcases self with column | tableType
  · cases renders
    rw [denote, ColumnAddress.denote_toTokens]
    rfl
  · obtain ⟨inner, innerRenders, same⟩ := Option.bind_eq_some_iff.mp renders
    cases same
    rw [denote, TableType.denote_of_toTokens innerRenders]
    rfl

/-! ## Boundary constraints -/

/-- All three rows are written as the first one. -/
def BoundaryConstraintLocation.toTokens : BoundaryConstraintLocation → RustExpression
  | firstRow => .path (.boundaryConstraintLocation firstRow)
  | lastRow => .path (.boundaryConstraintLocation firstRow)
  | oneBeforeLastRow => .path (.boundaryConstraintLocation firstRow)

def BoundaryConstraintLocation.denote : RustExpression → Option BoundaryConstraintLocation
  | .path (.boundaryConstraintLocation variant) => some variant
  | _ => none

theorem BoundaryConstraintLocation.denote_toTokens (self : BoundaryConstraintLocation) :
    BoundaryConstraintLocation.denote self.toTokens = some firstRow := by
  cases self with
  | firstRow => rfl
  | lastRow => rfl
  | oneBeforeLastRow => rfl

/-! ## Memory accesses -/

def RegisterOnlyAccessAddress.toTokens (self : RegisterOnlyAccessAddress) : RustExpression :=
  .record .registerOnlyAccessAddress [
    (.registerIndex, self.registerIndex.toTokens)]

def RegisterOnlyAccessAddress.denote (expression : RustExpression) :
    Option RegisterOnlyAccessAddress := do
  let fields ← expression.asRecord .registerOnlyAccessAddress [.registerIndex]
  let registerIndex ← readField fields .registerIndex (ColumnSet.denote 1)
  some ⟨registerIndex⟩

@[simp] theorem RegisterOnlyAccessAddress.denote_toTokens (self : RegisterOnlyAccessAddress) :
    RegisterOnlyAccessAddress.denote self.toTokens = some self := by
  simp [denote, toTokens]

def RegisterOrRamAccessAddress.toTokens (self : RegisterOrRamAccessAddress) : RustExpression :=
  .record .registerOrRamAccessAddress [
    (.isRegister, self.isRegister.toTokens),
    (.address, self.address.toTokens)]

def RegisterOrRamAccessAddress.denote (expression : RustExpression) :
    Option RegisterOrRamAccessAddress := do
  let fields ← expression.asRecord .registerOrRamAccessAddress [.isRegister, .address]
  let isRegister ← readField fields .isRegister (ColumnSet.denote 1)
  let address ← readField fields .address (ColumnSet.denote 2)
  some ⟨isRegister, address⟩

@[simp] theorem RegisterOrRamAccessAddress.denote_toTokens (self : RegisterOrRamAccessAddress) :
    RegisterOrRamAccessAddress.denote self.toTokens = some self := by
  simp [denote, toTokens]

def ShuffleRamAddress.toTokens : ShuffleRamAddress → RustExpression
  | registerOnly t => .call .shuffleRamAddressRegisterOnly t.toTokens
  | registerOrRam t => .call .shuffleRamAddressRegisterOrRam t.toTokens

def ShuffleRamAddress.denote : RustExpression → Option ShuffleRamAddress
  | .call .shuffleRamAddressRegisterOnly t =>
      (RegisterOnlyAccessAddress.denote t).map registerOnly
  | .call .shuffleRamAddressRegisterOrRam t =>
      (RegisterOrRamAccessAddress.denote t).map registerOrRam
  | _ => none

@[simp] theorem ShuffleRamAddress.denote_toTokens (self : ShuffleRamAddress) :
    ShuffleRamAddress.denote self.toTokens = some self := by
  cases self with
  | registerOnly t => simp [denote, toTokens]
  | registerOrRam t => simp [denote, toTokens]

def ShuffleRamQueryReadColumns.toTokens (self : ShuffleRamQueryReadColumns) : RustExpression :=
  .record .shuffleRamQueryReadColumns [
    (.inCycleWriteIndex, .u32 self.inCycleWriteIndex),
    (.address, self.address.toTokens),
    (.readTimestamp, self.readTimestamp.toTokens),
    (.readValue, self.readValue.toTokens)]

def ShuffleRamQueryReadColumns.denote (expression : RustExpression) :
    Option ShuffleRamQueryReadColumns := do
  let fields ← expression.asRecord .shuffleRamQueryReadColumns
    [.inCycleWriteIndex, .address, .readTimestamp, .readValue]
  let inCycleWriteIndex ← readField fields .inCycleWriteIndex Expression.asU32
  let address ← readField fields .address ShuffleRamAddress.denote
  let readTimestamp ← readField fields .readTimestamp (ColumnSet.denote 2)
  let readValue ← readField fields .readValue (ColumnSet.denote 2)
  some ⟨inCycleWriteIndex, address, readTimestamp, readValue⟩

@[simp] theorem ShuffleRamQueryReadColumns.denote_toTokens (self : ShuffleRamQueryReadColumns) :
    ShuffleRamQueryReadColumns.denote self.toTokens = some self := by
  simp [denote, toTokens]

def ShuffleRamQueryWriteColumns.toTokens (self : ShuffleRamQueryWriteColumns) : RustExpression :=
  .record .shuffleRamQueryWriteColumns [
    (.inCycleWriteIndex, .u32 self.inCycleWriteIndex),
    (.address, self.address.toTokens),
    (.readTimestamp, self.readTimestamp.toTokens),
    (.readValue, self.readValue.toTokens),
    (.writeValue, self.writeValue.toTokens)]

def ShuffleRamQueryWriteColumns.denote (expression : RustExpression) :
    Option ShuffleRamQueryWriteColumns := do
  let fields ← expression.asRecord .shuffleRamQueryWriteColumns
    [.inCycleWriteIndex, .address, .readTimestamp, .readValue, .writeValue]
  let inCycleWriteIndex ← readField fields .inCycleWriteIndex Expression.asU32
  let address ← readField fields .address ShuffleRamAddress.denote
  let readTimestamp ← readField fields .readTimestamp (ColumnSet.denote 2)
  let readValue ← readField fields .readValue (ColumnSet.denote 2)
  let writeValue ← readField fields .writeValue (ColumnSet.denote 2)
  some ⟨inCycleWriteIndex, address, readTimestamp, readValue, writeValue⟩

@[simp] theorem ShuffleRamQueryWriteColumns.denote_toTokens
    (self : ShuffleRamQueryWriteColumns) :
    ShuffleRamQueryWriteColumns.denote self.toTokens = some self := by
  simp [denote, toTokens]

def ShuffleRamQueryColumns.toTokens : ShuffleRamQueryColumns → RustExpression
  | readonly columns => .call .shuffleRamQueryColumnsReadonly columns.toTokens
  | write columns => .call .shuffleRamQueryColumnsWrite columns.toTokens

def ShuffleRamQueryColumns.denote : RustExpression → Option ShuffleRamQueryColumns
  | .call .shuffleRamQueryColumnsReadonly columns =>
      (ShuffleRamQueryReadColumns.denote columns).map readonly
  | .call .shuffleRamQueryColumnsWrite columns =>
      (ShuffleRamQueryWriteColumns.denote columns).map write
  | _ => none

@[simp] theorem ShuffleRamQueryColumns.denote_toTokens (self : ShuffleRamQueryColumns) :
    ShuffleRamQueryColumns.denote self.toTokens = some self := by
  cases self with
  | readonly columns => simp [denote, toTokens]
  | write columns => simp [denote, toTokens]

def ShuffleRamAuxComparisonSet.toTokens (self : ShuffleRamAuxComparisonSet) : RustExpression :=
  .record .shuffleRamAuxComparisonSet [
    (.auxLowHigh, .array [self.auxLowHigh.1.toTokens, self.auxLowHigh.2.toTokens]),
    (.intermediateBorrow, self.intermediateBorrow.toTokens),
    (.finalBorrow, self.finalBorrow.toTokens)]

/-- A constant of type `[ColumnAddress; 2]`. -/
def denoteAddressPair (expression : RustExpression) : Option (ColumnAddress × ColumnAddress) :=
  match expression.asArray ColumnAddress.denote with
  | some [low, high] => some (low, high)
  | _ => none

def ShuffleRamAuxComparisonSet.denote (expression : RustExpression) :
    Option ShuffleRamAuxComparisonSet := do
  let fields ← expression.asRecord .shuffleRamAuxComparisonSet
    [.auxLowHigh, .intermediateBorrow, .finalBorrow]
  let auxLowHigh ← readField fields .auxLowHigh denoteAddressPair
  let intermediateBorrow ← readField fields .intermediateBorrow ColumnAddress.denote
  let finalBorrow ← readField fields .finalBorrow ColumnAddress.denote
  some ⟨auxLowHigh, intermediateBorrow, finalBorrow⟩

@[simp] theorem ShuffleRamAuxComparisonSet.denote_toTokens (self : ShuffleRamAuxComparisonSet) :
    ShuffleRamAuxComparisonSet.denote self.toTokens = some self := by
  simp [denote, toTokens, denoteAddressPair, Expression.asArray]

def BatchedRamAccessColumns.toTokens : BatchedRamAccessColumns → RustExpression
  | readAccess readTimestamp readValue =>
      .record .batchedRamAccessColumnsReadAccess [
        (.readTimestamp, readTimestamp.toTokens),
        (.readValue, readValue.toTokens)]
  | writeAccess readTimestamp readValue writeValue =>
      .record .batchedRamAccessColumnsWriteAccess [
        (.readTimestamp, readTimestamp.toTokens),
        (.readValue, readValue.toTokens),
        (.writeValue, writeValue.toTokens)]

def BatchedRamAccessColumns.denote (expression : RustExpression) :
    Option BatchedRamAccessColumns :=
  match expression with
  | .record .batchedRamAccessColumnsReadAccess _ => do
      let fields ← expression.asRecord .batchedRamAccessColumnsReadAccess
        [.readTimestamp, .readValue]
      let readTimestamp ← readField fields .readTimestamp (ColumnSet.denote 2)
      let readValue ← readField fields .readValue (ColumnSet.denote 2)
      some (.readAccess readTimestamp readValue)
  | .record .batchedRamAccessColumnsWriteAccess _ => do
      let fields ← expression.asRecord .batchedRamAccessColumnsWriteAccess
        [.readTimestamp, .readValue, .writeValue]
      let readTimestamp ← readField fields .readTimestamp (ColumnSet.denote 2)
      let readValue ← readField fields .readValue (ColumnSet.denote 2)
      let writeValue ← readField fields .writeValue (ColumnSet.denote 2)
      some (.writeAccess readTimestamp readValue writeValue)
  | _ => none

@[simp] theorem BatchedRamAccessColumns.denote_toTokens (self : BatchedRamAccessColumns) :
    BatchedRamAccessColumns.denote self.toTokens = some self := by
  cases self with
  | readAccess readTimestamp readValue => simp [denote, toTokens]
  | writeAccess readTimestamp readValue writeValue => simp [denote, toTokens]

def RegisterAccessColumns.toTokens : RegisterAccessColumns → RustExpression
  | readAccess registerIndex readTimestamp readValue =>
      .record .registerAccessColumnsReadAccess [
        (.readTimestamp, readTimestamp.toTokens),
        (.readValue, readValue.toTokens),
        (.registerIndex, .u32 registerIndex)]
  | writeAccess registerIndex readTimestamp readValue writeValue =>
      .record .registerAccessColumnsWriteAccess [
        (.readTimestamp, readTimestamp.toTokens),
        (.readValue, readValue.toTokens),
        (.writeValue, writeValue.toTokens),
        (.registerIndex, .u32 registerIndex)]

def RegisterAccessColumns.denote (expression : RustExpression) : Option RegisterAccessColumns :=
  match expression with
  | .record .registerAccessColumnsReadAccess _ => do
      let fields ← expression.asRecord .registerAccessColumnsReadAccess
        [.readTimestamp, .readValue, .registerIndex]
      let registerIndex ← readField fields .registerIndex Expression.asU32
      let readTimestamp ← readField fields .readTimestamp (ColumnSet.denote 2)
      let readValue ← readField fields .readValue (ColumnSet.denote 2)
      some (.readAccess registerIndex readTimestamp readValue)
  | .record .registerAccessColumnsWriteAccess _ => do
      let fields ← expression.asRecord .registerAccessColumnsWriteAccess
        [.readTimestamp, .readValue, .writeValue, .registerIndex]
      let registerIndex ← readField fields .registerIndex Expression.asU32
      let readTimestamp ← readField fields .readTimestamp (ColumnSet.denote 2)
      let readValue ← readField fields .readValue (ColumnSet.denote 2)
      let writeValue ← readField fields .writeValue (ColumnSet.denote 2)
      some (.writeAccess registerIndex readTimestamp readValue writeValue)
  | _ => none

@[simp] theorem RegisterAccessColumns.denote_toTokens (self : RegisterAccessColumns) :
    RegisterAccessColumns.denote self.toTokens = some self := by
  cases self with
  | readAccess registerIndex readTimestamp readValue => simp [denote, toTokens]
  | writeAccess registerIndex readTimestamp readValue writeValue => simp [denote, toTokens]

/-- `Some((#c, #v, #i))` or `None`. -/
def variableDependentToTokens : Option (U32 × ColumnSet 1 × Nat) → RustExpression :=
  transformOption fun el => .tuple [.u32 el.1, el.2.1.toTokens, .usize el.2.2]

def denoteVariableDependent :
    RustExpression → Option (Option (U32 × ColumnSet 1 × Nat)) :=
  denoteOption (Expression.asTriple Expression.asU32 (ColumnSet.denote 1) Expression.asUsize)

@[simp] theorem denoteVariableDependent_toTokens (el : Option (U32 × ColumnSet 1 × Nat)) :
    denoteVariableDependent (variableDependentToTokens el) = some el := by
  apply denoteOption_transformOption
  intro el
  simp

def IndirectAccessColumns.toTokens : IndirectAccessColumns → RustExpression
  | readAccess readTimestamp readValue addressDerivationCarryBit variableDependent
      offsetConstant =>
      .record .indirectAccessColumnsReadAccess [
        (.readTimestamp, readTimestamp.toTokens),
        (.readValue, readValue.toTokens),
        (.addressDerivationCarryBit, addressDerivationCarryBit.toTokens),
        (.offsetConstant, .u32 offsetConstant),
        (.variableDependent, variableDependentToTokens variableDependent)]
  | writeAccess readTimestamp readValue writeValue addressDerivationCarryBit variableDependent
      offsetConstant =>
      .record .indirectAccessColumnsWriteAccess [
        (.readTimestamp, readTimestamp.toTokens),
        (.readValue, readValue.toTokens),
        (.writeValue, writeValue.toTokens),
        (.addressDerivationCarryBit, addressDerivationCarryBit.toTokens),
        (.offsetConstant, .u32 offsetConstant),
        (.variableDependent, variableDependentToTokens variableDependent)]

def IndirectAccessColumns.denote (expression : RustExpression) : Option IndirectAccessColumns :=
  match expression with
  | .record .indirectAccessColumnsReadAccess _ => do
      let fields ← expression.asRecord .indirectAccessColumnsReadAccess
        [.readTimestamp, .readValue, .addressDerivationCarryBit, .offsetConstant,
          .variableDependent]
      let readTimestamp ← readField fields .readTimestamp (ColumnSet.denote 2)
      let readValue ← readField fields .readValue (ColumnSet.denote 2)
      let addressDerivationCarryBit ←
        readField fields .addressDerivationCarryBit (ColumnSet.denote 1)
      let variableDependent ← readField fields .variableDependent denoteVariableDependent
      let offsetConstant ← readField fields .offsetConstant Expression.asU32
      some (.readAccess readTimestamp readValue addressDerivationCarryBit variableDependent
        offsetConstant)
  | .record .indirectAccessColumnsWriteAccess _ => do
      let fields ← expression.asRecord .indirectAccessColumnsWriteAccess
        [.readTimestamp, .readValue, .writeValue, .addressDerivationCarryBit, .offsetConstant,
          .variableDependent]
      let readTimestamp ← readField fields .readTimestamp (ColumnSet.denote 2)
      let readValue ← readField fields .readValue (ColumnSet.denote 2)
      let writeValue ← readField fields .writeValue (ColumnSet.denote 2)
      let addressDerivationCarryBit ←
        readField fields .addressDerivationCarryBit (ColumnSet.denote 1)
      let variableDependent ← readField fields .variableDependent denoteVariableDependent
      let offsetConstant ← readField fields .offsetConstant Expression.asU32
      some (.writeAccess readTimestamp readValue writeValue addressDerivationCarryBit
        variableDependent offsetConstant)
  | _ => none

@[simp] theorem IndirectAccessColumns.denote_toTokens (self : IndirectAccessColumns) :
    IndirectAccessColumns.denote self.toTokens = some self := by
  cases self with
  | readAccess readTimestamp readValue carryBit variableDependent offsetConstant =>
      simp [denote, toTokens]
  | writeAccess readTimestamp readValue writeValue carryBit variableDependent offsetConstant =>
      simp [denote, toTokens]

def RegisterAndIndirectAccessDescription.toTokens
    (self : RegisterAndIndirectAccessDescription) : RustExpression :=
  .record .compiledRegisterAndIndirectAccessDescription [
    (.registerAccess, self.registerAccess.toTokens),
    (.indirectAccesses, .slice (self.indirectAccesses.map IndirectAccessColumns.toTokens))]

def RegisterAndIndirectAccessDescription.denote (expression : RustExpression) :
    Option RegisterAndIndirectAccessDescription := do
  let fields ← expression.asRecord .compiledRegisterAndIndirectAccessDescription
    [.registerAccess, .indirectAccesses]
  let registerAccess ← readField fields .registerAccess RegisterAccessColumns.denote
  let indirectAccesses ←
    readField fields .indirectAccesses (Expression.asSlice IndirectAccessColumns.denote)
  some ⟨registerAccess, indirectAccesses⟩

@[simp] theorem RegisterAndIndirectAccessDescription.denote_toTokens
    (self : RegisterAndIndirectAccessDescription) :
    RegisterAndIndirectAccessDescription.denote self.toTokens = some self := by
  simp [denote, toTokens, asSlice_map_self IndirectAccessColumns.denote_toTokens]

def ShuffleRamInitAndTeardownLayout.toTokens (self : ShuffleRamInitAndTeardownLayout) :
    RustExpression :=
  .record .shuffleRamInitAndTeardownLayout [
    (.lazyInitAddressesColumns, self.lazyInitAddressesColumns.toTokens),
    (.lazyTeardownValuesColumns, self.lazyTeardownValuesColumns.toTokens),
    (.lazyTeardownTimestampsColumns, self.lazyTeardownTimestampsColumns.toTokens)]

def ShuffleRamInitAndTeardownLayout.denote (expression : RustExpression) :
    Option ShuffleRamInitAndTeardownLayout := do
  let fields ← expression.asRecord .shuffleRamInitAndTeardownLayout
    [.lazyInitAddressesColumns, .lazyTeardownValuesColumns, .lazyTeardownTimestampsColumns]
  let addresses ← readField fields .lazyInitAddressesColumns (ColumnSet.denote 2)
  let values ← readField fields .lazyTeardownValuesColumns (ColumnSet.denote 2)
  let timestamps ← readField fields .lazyTeardownTimestampsColumns (ColumnSet.denote 2)
  some ⟨addresses, values, timestamps⟩

@[simp] theorem ShuffleRamInitAndTeardownLayout.denote_toTokens
    (self : ShuffleRamInitAndTeardownLayout) :
    ShuffleRamInitAndTeardownLayout.denote self.toTokens = some self := by
  simp [denote, toTokens]

/-! ## Delegation and machine state -/

def DelegationRequestLayout.toTokens (self : DelegationRequestLayout) : RustExpression :=
  .record .delegationRequestLayout [
    (.multiplicity, self.multiplicity.toTokens),
    (.delegationType, self.delegationType.toTokens),
    (.abiMemOffsetHigh, self.abiMemOffsetHigh.toTokens),
    (.inCycleWriteIndex, .u16 self.inCycleWriteIndex)]

def DelegationRequestLayout.denote (expression : RustExpression) :
    Option DelegationRequestLayout := do
  let fields ← expression.asRecord .delegationRequestLayout
    [.multiplicity, .delegationType, .abiMemOffsetHigh, .inCycleWriteIndex]
  let multiplicity ← readField fields .multiplicity (ColumnSet.denote 1)
  let delegationType ← readField fields .delegationType (ColumnSet.denote 1)
  let abiMemOffsetHigh ← readField fields .abiMemOffsetHigh (ColumnSet.denote 1)
  let inCycleWriteIndex ← readField fields .inCycleWriteIndex Expression.asU16
  some ⟨multiplicity, delegationType, abiMemOffsetHigh, inCycleWriteIndex⟩

@[simp] theorem DelegationRequestLayout.denote_toTokens (self : DelegationRequestLayout) :
    DelegationRequestLayout.denote self.toTokens = some self := by
  simp [denote, toTokens]

def DelegationProcessingLayout.toTokens (self : DelegationProcessingLayout) : RustExpression :=
  .record .delegationProcessingLayout [
    (.multiplicity, self.multiplicity.toTokens),
    (.abiMemOffsetHigh, self.abiMemOffsetHigh.toTokens),
    (.writeTimestamp, self.writeTimestamp.toTokens)]

def DelegationProcessingLayout.denote (expression : RustExpression) :
    Option DelegationProcessingLayout := do
  let fields ← expression.asRecord .delegationProcessingLayout
    [.multiplicity, .abiMemOffsetHigh, .writeTimestamp]
  let multiplicity ← readField fields .multiplicity (ColumnSet.denote 1)
  let abiMemOffsetHigh ← readField fields .abiMemOffsetHigh (ColumnSet.denote 1)
  let writeTimestamp ← readField fields .writeTimestamp (ColumnSet.denote 2)
  some ⟨multiplicity, abiMemOffsetHigh, writeTimestamp⟩

@[simp] theorem DelegationProcessingLayout.denote_toTokens (self : DelegationProcessingLayout) :
    DelegationProcessingLayout.denote self.toTokens = some self := by
  simp [denote, toTokens]

def MachineStatePermutationVariables.toTokens (self : MachineStatePermutationVariables) :
    RustExpression :=
  .record .machineStatePermutationVariables [
    (.pc, self.pc.toTokens),
    (.timestamp, self.timestamp.toTokens)]

def MachineStatePermutationVariables.denote (expression : RustExpression) :
    Option MachineStatePermutationVariables := do
  let fields ← expression.asRecord .machineStatePermutationVariables [.pc, .timestamp]
  let pc ← readField fields .pc (ColumnSet.denote 2)
  let timestamp ← readField fields .timestamp (ColumnSet.denote 2)
  some ⟨pc, timestamp⟩

@[simp] theorem MachineStatePermutationVariables.denote_toTokens
    (self : MachineStatePermutationVariables) :
    MachineStatePermutationVariables.denote self.toTokens = some self := by
  simp [denote, toTokens]

def IntermediateStatePermutationVariables.toTokens
    (self : IntermediateStatePermutationVariables) : RustExpression :=
  .record .intermediateStatePermutationVariables [
    (.pc, self.pc.toTokens),
    (.timestamp, self.timestamp.toTokens),
    (.execute, self.execute.toTokens),
    (.rs1Index, self.rs1Index.toTokens),
    (.rs2Index, self.rs2Index.toTokens),
    (.rdIndex, self.rdIndex.toTokens),
    (.decoderWitnessIsInMemory, .bool self.decoderWitnessIsInMemory),
    (.rdIsZero, self.rdIsZero.toTokens),
    (.imm, self.imm.toTokens),
    (.funct3, self.funct3.toTokens),
    (.funct7, self.funct7.toTokens),
    (.circuitFamily, self.circuitFamily.toTokens),
    (.circuitFamilyExtraMask, self.circuitFamilyExtraMask.toTokens)]

def IntermediateStatePermutationVariables.denote (expression : RustExpression) :
    Option IntermediateStatePermutationVariables := do
  let fields ← expression.asRecord .intermediateStatePermutationVariables
    [.pc, .timestamp, .execute, .rs1Index, .rs2Index, .rdIndex, .decoderWitnessIsInMemory,
      .rdIsZero, .imm, .funct3, .funct7, .circuitFamily, .circuitFamilyExtraMask]
  let execute ← readField fields .execute (ColumnSet.denote 1)
  let pc ← readField fields .pc (ColumnSet.denote 2)
  let timestamp ← readField fields .timestamp (ColumnSet.denote 2)
  let rs1Index ← readField fields .rs1Index (ColumnSet.denote 1)
  let rs2Index ← readField fields .rs2Index ColumnAddress.denote
  let rdIndex ← readField fields .rdIndex ColumnAddress.denote
  let decoderWitnessIsInMemory ← readField fields .decoderWitnessIsInMemory Expression.asBool
  let rdIsZero ← readField fields .rdIsZero (ColumnSet.denote 1)
  let imm ← readField fields .imm (ColumnSet.denote 2)
  let funct3 ← readField fields .funct3 (ColumnSet.denote 1)
  let funct7 ← readField fields .funct7 (ColumnSet.denote 1)
  let circuitFamily ← readField fields .circuitFamily (ColumnSet.denote 1)
  let circuitFamilyExtraMask ← readField fields .circuitFamilyExtraMask ColumnAddress.denote
  some ⟨execute, pc, timestamp, rs1Index, rs2Index, rdIndex, decoderWitnessIsInMemory, rdIsZero,
    imm, funct3, funct7, circuitFamily, circuitFamilyExtraMask⟩

@[simp] theorem IntermediateStatePermutationVariables.denote_toTokens
    (self : IntermediateStatePermutationVariables) :
    IntermediateStatePermutationVariables.denote self.toTokens = some self := by
  unfold denote toTokens
  refine read_step _ (asRecord_record rfl) ?_
  refine read_step self.execute (by simp) ?_
  refine read_step self.pc (by simp) ?_
  refine read_step self.timestamp (by simp) ?_
  refine read_step self.rs1Index (by simp) ?_
  refine read_step self.rs2Index (by simp) ?_
  refine read_step self.rdIndex (by simp) ?_
  refine read_step self.decoderWitnessIsInMemory (by simp) ?_
  refine read_step self.rdIsZero (by simp) ?_
  refine read_step self.imm (by simp) ?_
  refine read_step self.funct3 (by simp) ?_
  refine read_step self.funct7 (by simp) ?_
  refine read_step self.circuitFamily (by simp) ?_
  refine read_step self.circuitFamilyExtraMask (by simp) ?_
  rfl

/-! ## The second stage -/

def OptimizedOraclesForLookupWidth1.toTokens (self : OptimizedOraclesForLookupWidth1) :
    RustExpression :=
  .record .optimizedOraclesForLookupWidth1 [
    (.numPairs, .usize self.numPairs),
    (.baseFieldOracles, self.baseFieldOracles.toTokens),
    (.ext4FieldOracles, self.ext4FieldOracles.toTokens)]

def OptimizedOraclesForLookupWidth1.denote (expression : RustExpression) :
    Option OptimizedOraclesForLookupWidth1 := do
  let fields ← expression.asRecord .optimizedOraclesForLookupWidth1
    [.numPairs, .baseFieldOracles, .ext4FieldOracles]
  let numPairs ← readField fields .numPairs Expression.asUsize
  let baseFieldOracles ← readField fields .baseFieldOracles (AlignedColumnSet.denote 1)
  let ext4FieldOracles ← readField fields .ext4FieldOracles (AlignedColumnSet.denote 4)
  some ⟨numPairs, baseFieldOracles, ext4FieldOracles⟩

@[simp] theorem OptimizedOraclesForLookupWidth1.denote_toTokens
    (self : OptimizedOraclesForLookupWidth1) :
    OptimizedOraclesForLookupWidth1.denote self.toTokens = some self := by
  simp [denote, toTokens]

end Airbender.Compiler
