import Airbender.Compiler.LookupExpression

/-!
# Compiled circuits

The layouts of the four trees and the artifact that the compilers produce.
-/

namespace Airbender.Compiler

open Mersenne31 (Element)
open Constraints (Variable)

/-! ## Lookups and constraints -/

inductive TableType
  | zeroEntry
  | opTypeBitmask
  | powersOf2
  | insnEncodingChecker
  | xor
  | csrBitmask
  | or
  | and
  | rangeCheckSmall
  | rangeCheckLarge
  | andNot
  | quickDecodeDecompositionCheck4x4x4
  | quickDecodeDecompositionCheck7x3x6
  | mRetProcessLow
  | mRetClearHigh
  | trapProcessLow
  | u16GetSignAndHighByte
  | jumpCleanupOffset
  | memoryOffsetGetBits
  | memoryLoadGetSigns
  | sraSignFiller
  | conditionalOpUnsignedConditionsResolver
  | conditionalOpAllConditionsResolver
  | romAddressSpaceSeparator
  | romRead
  | specialCSRProperties
  | xor3
  | xor4
  | xor7
  | xor9
  | xor12
  | u16SplitAsBytes
  | rangeCheck9x9
  | rangeCheck10x10
  | rangeCheck11
  | rangeCheck12
  | rangeCheck13
  | shiftImplementation
  | u16SelectByteAndGetByteSign
  | extendLoadedValue
  | storeByteSourceContribution
  | storeByteExistingContribution
  | truncateShift
  | conditionalJmpBranchSlt
  | memoryGetOffsetAndMaskWithTrap
  | memoryLoadHalfwordOrByte
  | alignedRomRead
  | truncateShiftAmount
  | sllWith16BitInputLow
  | sllWith16BitInputHigh
  | srlWith16BitInputLow
  | srlWith16BitInputHigh
  | sra16BitInputSignFill
  | rangeCheck16WithZeroPads
  | memStoreClearOriginalRamValueLimb
  | memStoreClearWrittenValueLimb
  | keccakPermutationIndices12
  | keccakPermutationIndices34
  | keccakPermutationIndices56
  | xorSpecialIota
  | andN
  | rotL
  | dynamicPlaceholder
deriving DecidableEq

inductive TableIndex
  | variable (place : ColumnAddress)
  | constant (tableType : TableType)
deriving DecidableEq

/-- `LookupSetDescription` of `COMMON_TABLE_WIDTH` columns. -/
structure LookupSetDescription where
  inputColumns : LookupExpression × LookupExpression × LookupExpression
  tableIndex : TableIndex
deriving DecidableEq

structure CompiledDegree2Constraint where
  quadraticTerms : List (Element × ColumnAddress × ColumnAddress)
  linearTerms : List (Element × ColumnAddress)
  constantTerm : Element
deriving DecidableEq

inductive BoundaryConstraintLocation
  | firstRow
  | lastRow
  | oneBeforeLastRow
deriving DecidableEq

/-! ## The witness subtree -/

structure WitnessSubtree where
  multiplicitiesColumnsForRangeCheck16 : ColumnSet 1
  multiplicitiesColumnsForTimestampRangeCheck : ColumnSet 1
  multiplicitiesColumnsForDecoderInExecutorFamilies : ColumnSet 1
  multiplicitiesColumnsForGenericLookup : ColumnSet 1
  rangeCheck8Columns : ColumnSet 1
  rangeCheck16Columns : ColumnSet 1
  width3Lookups : List LookupSetDescription
  rangeCheck16LookupExpressions : List LookupExpression
  timestampRangeCheckLookupExpressions : List LookupExpression
  offsetForSpecialShuffleRamTimestampsRangeCheckExpressions : Nat
  booleanVarsColumnsRange : ColumnSet 1
  scratchSpaceColumnsRange : ColumnSet 1
  totalWidth : Nat
deriving DecidableEq

/-! ## The memory subtree -/

structure RegisterOnlyAccessAddress where
  registerIndex : ColumnSet 1
deriving DecidableEq

structure RegisterOrRamAccessAddress where
  isRegister : ColumnSet 1
  address : ColumnSet 2
deriving DecidableEq

inductive ShuffleRamAddress
  | registerOnly (address : RegisterOnlyAccessAddress)
  | registerOrRam (address : RegisterOrRamAccessAddress)
deriving DecidableEq

structure ShuffleRamQueryReadColumns where
  inCycleWriteIndex : U32
  address : ShuffleRamAddress
  readTimestamp : ColumnSet 2
  readValue : ColumnSet 2
deriving DecidableEq

structure ShuffleRamQueryWriteColumns where
  inCycleWriteIndex : U32
  address : ShuffleRamAddress
  readTimestamp : ColumnSet 2
  readValue : ColumnSet 2
  writeValue : ColumnSet 2
deriving DecidableEq

inductive ShuffleRamQueryColumns
  | readonly (columns : ShuffleRamQueryReadColumns)
  | write (columns : ShuffleRamQueryWriteColumns)
deriving DecidableEq

structure ShuffleRamInitAndTeardownLayout where
  lazyInitAddressesColumns : ColumnSet 2
  lazyTeardownValuesColumns : ColumnSet 2
  lazyTeardownTimestampsColumns : ColumnSet 2
deriving DecidableEq

structure ShuffleRamAuxComparisonSet where
  auxLowHigh : ColumnAddress × ColumnAddress
  intermediateBorrow : ColumnAddress
  finalBorrow : ColumnAddress
deriving DecidableEq

inductive BatchedRamAccessColumns
  | readAccess (readTimestamp readValue : ColumnSet 2)
  | writeAccess (readTimestamp readValue writeValue : ColumnSet 2)
deriving DecidableEq

inductive RegisterAccessColumns
  | readAccess (registerIndex : U32) (readTimestamp readValue : ColumnSet 2)
  | writeAccess (registerIndex : U32) (readTimestamp readValue writeValue : ColumnSet 2)
deriving DecidableEq

inductive IndirectAccessColumns
  | readAccess (readTimestamp readValue : ColumnSet 2) (addressDerivationCarryBit : ColumnSet 1)
      (variableDependent : Option (U32 × ColumnSet 1 × Nat)) (offsetConstant : U32)
  | writeAccess (readTimestamp readValue writeValue : ColumnSet 2)
      (addressDerivationCarryBit : ColumnSet 1)
      (variableDependent : Option (U32 × ColumnSet 1 × Nat)) (offsetConstant : U32)
deriving DecidableEq

def IndirectAccessColumns.getAddressDerivationCarryBitColumn :
    IndirectAccessColumns → ColumnSet 1
  | readAccess _ _ carryBit _ _ => carryBit
  | writeAccess _ _ _ carryBit _ _ => carryBit

structure RegisterAndIndirectAccessDescription where
  registerAccess : RegisterAccessColumns
  indirectAccesses : List IndirectAccessColumns
deriving DecidableEq

structure DelegationRequestLayout where
  multiplicity : ColumnSet 1
  delegationType : ColumnSet 1
  abiMemOffsetHigh : ColumnSet 1
  inCycleWriteIndex : BitVec 16
deriving DecidableEq

structure DelegationProcessingLayout where
  multiplicity : ColumnSet 1
  abiMemOffsetHigh : ColumnSet 1
  writeTimestamp : ColumnSet 2
deriving DecidableEq

structure MachineStatePermutationVariables where
  pc : ColumnSet 2
  timestamp : ColumnSet 2
deriving DecidableEq

structure IntermediateStatePermutationVariables where
  execute : ColumnSet 1
  pc : ColumnSet 2
  timestamp : ColumnSet 2
  rs1Index : ColumnSet 1
  rs2Index : ColumnAddress
  rdIndex : ColumnAddress
  decoderWitnessIsInMemory : Bool
  rdIsZero : ColumnSet 1
  imm : ColumnSet 2
  funct3 : ColumnSet 1
  funct7 : ColumnSet 1
  circuitFamily : ColumnSet 1
  circuitFamilyExtraMask : ColumnAddress
deriving DecidableEq

structure MemorySubtree where
  shuffleRamInitsAndTeardowns : List ShuffleRamInitAndTeardownLayout
  shuffleRamAccessSets : List ShuffleRamQueryColumns
  delegationRequestLayout : Option DelegationRequestLayout
  delegationProcessorLayout : Option DelegationProcessingLayout
  machineStateLayout : Option MachineStatePermutationVariables
  intermediateStateLayout : Option IntermediateStatePermutationVariables
  batchedRamAccesses : List BatchedRamAccessColumns
  registerAndIndirectAccesses : List RegisterAndIndirectAccessDescription
  totalWidth : Nat
deriving DecidableEq

/-! ## The setup -/

/-- `EXECUTOR_FAMILY_CIRCUIT_DECODER_TABLE_WIDTH`. -/
def executorFamilyCircuitDecoderTableWidth : Nat := 2 + 1 + 1 + 1 + 1 + 2 + 1 + 1

structure SetupLayout where
  timestampSetupColumns : ColumnSet 2
  rangeCheck16SetupColumn : ColumnSet 1
  timestampRangeCheckSetupColumn : ColumnSet 1
  genericLookupSetupColumns : ColumnSet 4
  preprocessedDecoderSetupColumns : ColumnSet executorFamilyCircuitDecoderTableWidth
  totalWidth : Nat
deriving DecidableEq

/-! ## The second stage -/

structure OptimizedOraclesForLookupWidth1 where
  numPairs : Nat
  baseFieldOracles : AlignedColumnSet 1
  ext4FieldOracles : AlignedColumnSet 4
deriving DecidableEq

structure LookupAndMemoryArgumentLayout where
  intermediatePolysForRangeCheck16 : OptimizedOraclesForLookupWidth1
  remainderForRangeCheck16 : Option (AlignedColumnSet 4)
  lazyInitAddressRangeCheck16 : Option OptimizedOraclesForLookupWidth1
  intermediatePolysForTimestampRangeChecks : OptimizedOraclesForLookupWidth1
  intermediatePolysForGenericLookup : AlignedColumnSet 4
  intermediatePolyForDecoderAccesses : AlignedColumnSet 4
  intermediatePolyForRangeCheck16Multiplicity : AlignedColumnSet 4
  intermediatePolyForTimestampRangeCheckMultiplicity : AlignedColumnSet 4
  intermediatePolysForGenericMultiplicities : AlignedColumnSet 4
  intermediatePolysForDecoderMultiplicities : AlignedColumnSet 4
  delegationProcessingAuxPoly : Option (AlignedColumnSet 4)
  intermediatePolysForMemoryInitTeardown : AlignedColumnSet 4
  intermediatePolysForMemoryArgument : AlignedColumnSet 4
  intermediatePolysForStatePermutation : AlignedColumnSet 4
  intermediatePolysForPermutationMasking : AlignedColumnSet 4
  intermediatePolyForGrandProduct : AlignedColumnSet 4
  ext4PolysOffset : Nat
  totalWidth : Nat
deriving DecidableEq

end Airbender.Compiler
