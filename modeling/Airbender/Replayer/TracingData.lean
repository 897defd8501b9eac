import Airbender.CommonConstants

/-!
# Tracing data

The rows a replay hands to the witness tracer: one per machine cycle and one per
delegation.
-/

namespace Airbender

/-! ## Timestamps of rows -/

/-- Three 16-bit limbs of a timestamp; higher bits are dropped. -/
structure TimestampData where
  l0 : BitVec 16
  l1 : BitVec 16
  l2 : BitVec 16
deriving DecidableEq, Repr

namespace TimestampData

def fromScalar (timestamp : TimestampScalar) : TimestampData where
  l0 := timestamp.setWidth 16
  l1 := (timestamp >>> 16).setWidth 16
  l2 := (timestamp >>> 32).setWidth 16

def asScalar (data : TimestampData) : TimestampScalar :=
  data.l0.setWidth 64 ||| (data.l1.setWidth 64 <<< 16) ||| (data.l2.setWidth 64 <<< 32)

end TimestampData

/-! ## Rows of machine cycles -/

structure NonMemoryOpcodeTracingData where
  initialPc : U32
  rs1Value : U32
  rs2Value : U32
  rdOldValue : U32
  rdValue : U32
  newPc : U32
  delegationType : BitVec 16
deriving DecidableEq, Repr

structure NonMemoryOpcodeTracingDataWithTimestamp where
  opcodeData : NonMemoryOpcodeTracingData
  rs1ReadTimestamp : TimestampData
  rs2ReadTimestamp : TimestampData
  rdReadTimestamp : TimestampData
  cycleTimestamp : TimestampData
deriving DecidableEq, Repr

structure LoadOpcodeTracingData where
  initialPc : U32
  rs1Value : U32
  alignedRamAddress : U32
  alignedRamReadValue : U32
  rdOldValue : U32
  rdValue : U32
deriving DecidableEq, Repr

structure StoreOpcodeTracingData where
  initialPc : U32
  rs1Value : U32
  alignedRamAddress : U32
  alignedRamOldValue : U32
  rs2Value : U32
  alignedRamWriteValue : U32
deriving DecidableEq, Repr

/-- The two layouts of `opcode_data`, told apart by `discr` in the source. -/
inductive MemoryOpcodeTracingData where
  | load (data : LoadOpcodeTracingData)
  | store (data : StoreOpcodeTracingData)
deriving DecidableEq, Repr

structure MemoryOpcodeTracingDataWithTimestamp where
  opcodeData : MemoryOpcodeTracingData
  rs1ReadTimestamp : TimestampData
  rs2OrRamReadTimestamp : TimestampData
  rdOrRamReadTimestamp : TimestampData
  cycleTimestamp : TimestampData
deriving DecidableEq, Repr

/-! ## Rows of delegations -/

structure RegisterOrIndirectReadData where
  readValue : U32
  timestamp : TimestampData
deriving DecidableEq, Repr

structure RegisterOrIndirectReadWriteData where
  readValue : U32
  writeValue : U32
  timestamp : TimestampData
deriving DecidableEq, Repr

/-- The arrays of a delegation witness; their lengths depend on the delegation. -/
structure DelegationWitness where
  writeTimestamp : TimestampScalar
  regAccesses : List RegisterOrIndirectReadWriteData
  indirectReads : List RegisterOrIndirectReadData
  indirectWrites : List RegisterOrIndirectReadWriteData
  variablesOffsets : List (BitVec 16)
deriving DecidableEq, Repr

/-! ## Tracers -/

/-- What a replay asks of its tracer and hands to it. -/
class WitnessTracer (T : Type) where
  needsTracingDataForCircuitFamily : CircuitFamily → T → Bool
  needsTracingDataForDelegationType : BitVec 16 → T → Bool
  writeNonMemoryFamilyData : CircuitFamily → NonMemoryOpcodeTracingDataWithTimestamp → T → T
  writeMemoryFamilyData : CircuitFamily → MemoryOpcodeTracingDataWithTimestamp → T → T
  writeDelegation : BitVec 16 → DelegationWitness → T → T

section Trace

variable {T : Type} [WitnessTracer T]

open WitnessTracer

def traceNonMemory (family : CircuitFamily) (data : NonMemoryOpcodeTracingDataWithTimestamp)
    (tracer : T) : T :=
  if needsTracingDataForCircuitFamily family tracer then
    writeNonMemoryFamilyData family data tracer
  else
    tracer

def traceMemory (family : CircuitFamily) (data : MemoryOpcodeTracingDataWithTimestamp)
    (tracer : T) : T :=
  if needsTracingDataForCircuitFamily family tracer then
    writeMemoryFamilyData family data tracer
  else
    tracer

end Trace

/-- A row of any kind. -/
inductive TraceRow where
  | nonMemory (family : CircuitFamily) (data : NonMemoryOpcodeTracingDataWithTimestamp)
  | memory (family : CircuitFamily) (data : MemoryOpcodeTracingDataWithTimestamp)
  | delegation (delegationType : BitVec 16) (witness : DelegationWitness)
deriving DecidableEq, Repr

/-- The tracer that asks for everything and keeps it. -/
instance : WitnessTracer (List TraceRow) where
  needsTracingDataForCircuitFamily := fun _ _ => true
  needsTracingDataForDelegationType := fun _ _ => true
  writeNonMemoryFamilyData := fun family data rows => rows ++ [.nonMemory family data]
  writeMemoryFamilyData := fun family data rows => rows ++ [.memory family data]
  writeDelegation := fun delegationType witness rows =>
    rows ++ [.delegation delegationType witness]

end Airbender
