import Airbender.Compiler.Timestamps
import Airbender.Compiler.GeneratedLayout

/-!
# The output of a circuit

What a circuit description hands to the compilers: variables, constraints, lookups and the
accesses to memory.
-/

namespace Airbender.Compiler

open Constraints (Variable Constraint Boolean)

/-! ## Memory -/

/-- A word as the variables of its two halves. -/
abbrev WordVariables := Variable × Variable

inductive ShuffleRamQueryType
  | registerOnly (registerIndex : Variable)
  | registerOrRam (isRegister : Boolean) (address : WordVariables)

structure ShuffleRamMemQuery where
  queryType : ShuffleRamQueryType
  localTimestampInCycle : Nat
  readValue : WordVariables
  writeValue : WordVariables

/-- `is_readonly`: a query that writes has other variables in both halves. -/
def ShuffleRamMemQuery.isReadonly (query : ShuffleRamMemQuery) : Option Bool :=
  if query.readValue = query.writeValue then some true
  else do
    guard (query.readValue.1 ≠ query.writeValue.1)
    guard (query.readValue.2 ≠ query.writeValue.2)
    some false

inductive RegisterAccessType
  | read (readValue : WordVariables)
  | write (readValue writeValue : WordVariables)

/-- The variable part of an offset is a multiplier, a variable and its index. -/
inductive IndirectAccessType
  | read (readValue : WordVariables) (variableDependent : Option (U32 × Variable × Nat))
      (offsetConstant : U32) (assumeNoAlignmentOverflow : Bool)
  | write (readValue writeValue : WordVariables)
      (variableDependent : Option (U32 × Variable × Nat)) (offsetConstant : U32)
      (assumeNoAlignmentOverflow : Bool)

namespace IndirectAccessType

def considerAligned : IndirectAccessType → Bool
  | read _ _ _ assumeNoAlignmentOverflow => assumeNoAlignmentOverflow
  | write _ _ _ _ assumeNoAlignmentOverflow => assumeNoAlignmentOverflow

def offsetConstant : IndirectAccessType → U32
  | read _ _ offsetConstant _ => offsetConstant
  | write _ _ _ offsetConstant _ => offsetConstant

def variableDependent : IndirectAccessType → Option (U32 × Variable × Nat)
  | read _ variableDependent _ _ => variableDependent
  | write _ _ variableDependent _ _ => variableDependent

end IndirectAccessType

structure RegisterAndIndirectAccesses where
  registerIndex : U32
  registerAccess : RegisterAccessType
  indirectsAlignmentLog2 : U32
  indirectAccesses : List IndirectAccessType

structure DelegatedComputationRequest where
  execute : Variable
  delegationType : Variable
  memoryOffsetHigh : Variable

structure DelegatedProcessingData where
  execute : Variable
  memoryOffsetHigh : Variable

/-! ## Lookups and range checks -/

inductive LookupQueryTableType
  | variable (var : Variable)
  | constant (tableType : TableType)

/-- A query of `COMMON_TABLE_WIDTH` inputs. -/
structure LookupQuery where
  row : LookupInput × LookupInput × LookupInput
  table : LookupQueryTableType

structure RangeCheckQuery where
  input : LookupInput
  width : Nat

def smallRangeCheckTableWidth : Nat := 8

def largeRangeCheckTableWidth : Nat := 16

/-- The tables of a circuit: how many rows they have together, and which of them are there. -/
structure CircuitTables where
  totalTablesLen : Nat
  isInitialized : TableType → Bool

/-! ## Machine state -/

structure MachineCycleStartOrEndState where
  pc : WordVariables
  timestamp : WordVariables

structure DecoderData where
  rs1Index : Variable
  rs2Index : Variable
  rdIndex : Variable
  rdIsZero : Variable
  imm : WordVariables
  funct3 : Variable
  funct7 : Option Variable
  circuitFamilyExtraMask : Variable

structure DecoderDataForDecoderCircuit where
  decoderData : DecoderData
  circuitFamily : Variable

structure DecoderCircuitMachineState where
  cycleStartState : MachineCycleStartOrEndState
  decoderData : DecoderDataForDecoderCircuit

structure OpcodeFamilyCircuitState where
  execute : Variable
  cycleStartState : MachineCycleStartOrEndState
  decoderData : DecoderData
  cycleEndState : MachineCycleStartOrEndState

/-! ## The output -/

/-- A constraint comes with a flag that keeps the optimizer away.  Of the substitutions the
compilers read the variables. -/
structure CircuitOutput where
  stateInput : List Variable
  stateOutput : List Variable
  tableDriver : CircuitTables
  numOfVariables : Nat
  constraints : List (Constraint × Bool)
  lookups : List LookupQuery
  shuffleRamQueries : List ShuffleRamMemQuery
  delegatedComputationRequests : List DelegatedComputationRequest
  degegatedRequestToProcess : Option DelegatedProcessingData
  registerAndIndirectMemoryAccesses : List RegisterAndIndirectAccesses
  decoderMachineState : Option DecoderCircuitMachineState
  executorMachineState : Option OpcodeFamilyCircuitState
  linkedVariables : List (Variable × Variable)
  rangeCheckExpressions : List RangeCheckQuery
  booleanVars : List Variable
  substitutions : List Variable

end Airbender.Compiler
