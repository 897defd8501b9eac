import Airbender.Replayer.Ram
import Airbender.Replayer.TracingData
import Airbender.Vm.Step

/-!
# Instruction handlers of the replayer

Each handler does to the registers what the executor's handler does, returns the times
and values it found there, and offers the tracer a row.  It changes no counter.
-/

namespace Airbender.Replayer

variable {C : Type}

/-! ## Register access -/

/-- `read_register_with_ts`: the value and time found. -/
def readRegisterWithTs (offset : TimestampScalar) (index : RegisterIndex) (state : State C) :
    (U32 × TimestampScalar) × State C :=
  let register := state.registers index
  ((register.value, register.timestamp),
    state.setRegister index { register with timestamp := state.timestamp ||| offset })

def touchX0WithTs (offset : TimestampScalar) (state : State C) : TimestampScalar × State C :=
  ((state.registers 0).timestamp, state.touchX0 offset)

/-- `write_register_with_ts`: the value written, and the value and time found. -/
def writeRegisterWithTs (offset : TimestampScalar) (index : RegisterIndex) (value : U32)
    (state : State C) : (U32 × U32 × TimestampScalar) × State C :=
  let register := state.registers index
  ((State.maskRd index value, register.value, register.timestamp),
    state.setRegister index ⟨state.timestamp ||| offset, State.maskRd index value⟩)

/-- The second operand: what the row says, what the operation uses, and its time. -/
def secondOperandWithTs (useImm : Bool) (state : State C) (instr : Instruction) :
    (U32 × U32 × TimestampScalar) × State C :=
  if useImm then
    let (rs2Ts, state) := touchX0WithTs 1 state
    ((0, instr.imm, rs2Ts), state)
  else
    let ((rs2Value, rs2Ts), state) := readRegisterWithTs 1 instr.rs2 state
    ((rs2Value, rs2Value, rs2Ts), state)

/-- The row of a cycle: the first operand, the second operand and the target as found,
with the value left in the target. -/
def nonMemoryRow (state : State C) (rs1 rs2 : U32 × TimestampScalar)
    (rd : U32 × U32 × TimestampScalar) (newPc : U32) (delegationType : BitVec 16) :
    NonMemoryOpcodeTracingDataWithTimestamp where
  opcodeData :=
    { initialPc := state.pc
      rs1Value := rs1.1
      rs2Value := rs2.1
      rdOldValue := rd.2.1
      rdValue := rd.1
      newPc := newPc
      delegationType := delegationType }
  rs1ReadTimestamp := .fromScalar rs1.2
  rs2ReadTimestamp := .fromScalar rs2.2
  rdReadTimestamp := .fromScalar rd.2.2
  cycleTimestamp := .fromScalar state.timestamp

/-! ## Operations on register values -/

section Handlers

variable {T : Type} [WitnessTracer T]

/-- The handler of a register operation. -/
def aluOp (family : CircuitFamily) (op : U32 → U32 → U32) (useImm : Bool) (state : State C)
    (instr : Instruction) (tracer : T) : State C × T :=
  let (rs1, state) := readRegisterWithTs 0 instr.rs1 state
  let ((rs2Value, rs2ValueToUse, rs2Ts), state) := secondOperandWithTs useImm state instr
  let (rd, state) := writeRegisterWithTs 2 instr.rd (op rs1.1 rs2ValueToUse) state
  let tracedData := nonMemoryRow state rs1 (rs2Value, rs2Ts) rd (state.pc + 4) 0
  (state.defaultIncreasePc, traceNonMemory family tracedData tracer)

def addOp (useImm : Bool) : State C → Instruction → T → State C × T :=
  aluOp .addSubLuiAuipcMop (· + ·) useImm

def subOp : State C → Instruction → T → State C × T :=
  aluOp .addSubLuiAuipcMop (· - ·) false

def and (useImm : Bool) : State C → Instruction → T → State C × T :=
  aluOp .shiftBinaryCsr (· &&& ·) useImm

def or (useImm : Bool) : State C → Instruction → T → State C × T :=
  aluOp .shiftBinaryCsr (· ||| ·) useImm

def xor (useImm : Bool) : State C → Instruction → T → State C × T :=
  aluOp .shiftBinaryCsr (· ^^^ ·) useImm

def sll (useImm : Bool) : State C → Instruction → T → State C × T :=
  aluOp .shiftBinaryCsr Vm.wrappingShl useImm

def srl (useImm : Bool) : State C → Instruction → T → State C × T :=
  aluOp .shiftBinaryCsr Vm.wrappingShr useImm

def sra (useImm : Bool) : State C → Instruction → T → State C × T :=
  aluOp .shiftBinaryCsr Vm.wrappingSar useImm

def slt (useImm : Bool) : State C → Instruction → T → State C × T :=
  aluOp .jumpBranchSlt Vm.sltValue useImm

def sltu (useImm : Bool) : State C → Instruction → T → State C × T :=
  aluOp .jumpBranchSlt Vm.sltuValue useImm

def mul : State C → Instruction → T → State C × T :=
  aluOp .mulDiv (· * ·) false

def mulhu : State C → Instruction → T → State C × T :=
  aluOp .mulDiv Vm.mulhuValue false

def divu : State C → Instruction → T → State C × T :=
  aluOp .mulDiv Vm.divuValue false

def remu : State C → Instruction → T → State C × T :=
  aluOp .mulDiv Vm.remuValue false

def mopAddmod : State C → Instruction → T → State C × T :=
  aluOp .addSubLuiAuipcMop (Vm.mopValue Mersenne31.addMod) false

def mopSubmod : State C → Instruction → T → State C × T :=
  aluOp .addSubLuiAuipcMop (Vm.mopValue Mersenne31.subMod) false

def mopMulmod : State C → Instruction → T → State C × T :=
  aluOp .addSubLuiAuipcMop (Vm.mopValue Mersenne31.mulMod) false

/-! ## Upper immediates and jumps -/

/-- The handler of an upper immediate: `x0` twice, then the target. -/
def upperOp (value : U32 → U32 → U32) (state : State C) (instr : Instruction) (tracer : T) :
    State C × T :=
  let (rs1Ts, state) := touchX0WithTs 0 state
  let (rs2Ts, state) := touchX0WithTs 1 state
  let (rd, state) := writeRegisterWithTs 2 instr.rd (value state.pc instr.imm) state
  let tracedData := nonMemoryRow state (0, rs1Ts) (0, rs2Ts) rd (state.pc + 4) 0
  (state.defaultIncreasePc, traceNonMemory .addSubLuiAuipcMop tracedData tracer)

def lui : State C → Instruction → T → State C × T :=
  upperOp fun _ imm => imm

def auipc : State C → Instruction → T → State C × T :=
  upperOp fun pc imm => pc + imm

/-! The replay does not check the alignment of jump targets. -/

def jal (state : State C) (instr : Instruction) (tracer : T) : State C × T :=
  let (rs1Ts, state) := touchX0WithTs 0 state
  let (rs2Ts, state) := touchX0WithTs 1 state
  let (rd, state) := writeRegisterWithTs 2 instr.rd (state.pc + 4) state
  let jumpAddress := state.pc + instr.imm
  let tracedData := nonMemoryRow state (0, rs1Ts) (0, rs2Ts) rd jumpAddress 0
  (state.setPc jumpAddress, traceNonMemory .jumpBranchSlt tracedData tracer)

def jalr (state : State C) (instr : Instruction) (tracer : T) : State C × T :=
  let (rs1, state) := readRegisterWithTs 0 instr.rs1 state
  let (rs2Ts, state) := touchX0WithTs 1 state
  let (rd, state) := writeRegisterWithTs 2 instr.rd (state.pc + 4) state
  let jumpAddress := (rs1.1 + instr.imm) &&& ~~~1
  let tracedData := nonMemoryRow state rs1 (0, rs2Ts) rd jumpAddress 0
  (state.setPc jumpAddress, traceNonMemory .jumpBranchSlt tracedData tracer)

/-- A branch writes `x0` before it decides. -/
def branch (state : State C) (instr : Instruction) (tracer : T) : Option (State C × T) := do
  let (rs1, state) := readRegisterWithTs 0 instr.rs1 state
  let (rs2, state) := readRegisterWithTs 1 instr.rs2 state
  let ((_, rdOldValue, rdTs), state) := writeRegisterWithTs 2 0 0 state
  let shouldJump ← Vm.branchTaken instr.rd rs1.1 rs2.1
  let jumpAddress := if shouldJump then state.pc + instr.imm else state.pc + 4
  let tracedData := nonMemoryRow state rs1 rs2 (0, rdOldValue, rdTs) jumpAddress 0
  some (state.setPc jumpAddress, traceNonMemory .jumpBranchSlt tracedData tracer)

/-! ## Non-determinism CSR -/

/-- The value comes from the log, where it has time zero. -/
def ndRead {romBits : Nat} (state : State C) (ram : ReplayerRam romBits)
    (instr : Instruction) (tracer : T) : Option (State C × ReplayerRam romBits × T) := do
  let (rs1Ts, state) := touchX0WithTs 0 state
  let (rs2Ts, state) := touchX0WithTs 1 state
  let ((ts, value), ram) ← ram.readWord
  guard (ts = 0)
  let (rd, state) := writeRegisterWithTs 2 instr.rd value state
  let tracedData :=
    nonMemoryRow state (0, rs1Ts) (0, rs2Ts) rd (state.pc + 4)
      (nonDeterminismCsr.setWidth 16)
  some (state.defaultIncreasePc, ram, traceNonMemory .shiftBinaryCsr tracedData tracer)

def ndWrite (state : State C) (instr : Instruction) (tracer : T) : State C × T :=
  let (rs1, state) := readRegisterWithTs 0 instr.rs1 state
  let (rs2Ts, state) := touchX0WithTs 1 state
  let (rdTs, state) := touchX0WithTs 2 state
  let tracedData :=
    nonMemoryRow state rs1 (0, rs2Ts) (0, 0, rdTs) (state.pc + 4)
      (nonDeterminismCsr.setWidth 16)
  (state.defaultIncreasePc, traceNonMemory .shiftBinaryCsr tracedData tracer)

/-! ## Memory -/

section Memory

variable {romBits : Nat}

/-- The end of every load: the next entry of the log is the word. -/
def finishLoad (family : CircuitFamily) (address : U32) (value : U32 → U32)
    (rs1 : U32 × TimestampScalar) (rdIndex : RegisterIndex) (state : State C)
    (ram : ReplayerRam romBits) (tracer : T) : Option (State C × ReplayerRam romBits × T) := do
  let ((ramTimestamp, ramOldValue), ram) ← ram.readWord
  let ((rd, rdOldValue, rdTs), state) := writeRegisterWithTs 2 rdIndex (value ramOldValue) state
  let tracedData : MemoryOpcodeTracingDataWithTimestamp :=
    { opcodeData :=
        .load
          { initialPc := state.pc
            rs1Value := rs1.1
            alignedRamAddress := address
            alignedRamReadValue := ReplayerRam.maskReadForWitness romBits address ramOldValue
            rdOldValue := rdOldValue
            rdValue := rd }
      rs1ReadTimestamp := .fromScalar rs1.2
      rs2OrRamReadTimestamp := .fromScalar ramTimestamp
      rdOrRamReadTimestamp := .fromScalar rdTs
      cycleTimestamp := .fromScalar state.timestamp }
  some (state.defaultIncreasePc, ram, traceMemory family tracedData tracer)

/-- The end of every store: the next entry of the log is the word overwritten. -/
def finishStore (family : CircuitFamily) (address newValue : U32)
    (rs1 rs2 : U32 × TimestampScalar) (state : State C) (ram : ReplayerRam romBits)
    (tracer : T) : Option (State C × ReplayerRam romBits × T) := do
  let ((ramTimestamp, ramOldValue), ram) ← ram.readWord
  let tracedData : MemoryOpcodeTracingDataWithTimestamp :=
    { opcodeData :=
        .store
          { initialPc := state.pc
            rs1Value := rs1.1
            alignedRamAddress := address
            alignedRamOldValue := ramOldValue
            rs2Value := rs2.1
            alignedRamWriteValue := newValue }
      rs1ReadTimestamp := .fromScalar rs1.2
      rs2OrRamReadTimestamp := .fromScalar rs2.2
      rdOrRamReadTimestamp := .fromScalar ramTimestamp
      cycleTimestamp := .fromScalar state.timestamp }
  some (state.defaultIncreasePc, ram, traceMemory family tracedData tracer)

def sw (state : State C) (ram : ReplayerRam romBits) (instr : Instruction) (tracer : T) :
    Option (State C × ReplayerRam romBits × T) :=
  let (rs1, state) := readRegisterWithTs 0 instr.rs1 state
  let (rs2, state) := readRegisterWithTs 1 instr.rs2 state
  let address := rs1.1 + instr.imm
  finishStore .loadStoreWordOnly address rs2.1 rs1 rs2 state ram tracer

def lw (state : State C) (ram : ReplayerRam romBits) (instr : Instruction) (tracer : T) :
    Option (State C × ReplayerRam romBits × T) :=
  let (rs1, state) := readRegisterWithTs 0 instr.rs1 state
  let address := rs1.1 + instr.imm
  finishLoad .loadStoreWordOnly address id rs1 instr.rd state ram tracer

/-- The old word is peeked from the log before the store takes it. -/
def sh (state : State C) (ram : ReplayerRam romBits) (instr : Instruction) (tracer : T) :
    Option (State C × ReplayerRam romBits × T) := do
  let (rs1, state) := readRegisterWithTs 0 instr.rs1 state
  let (rs2, state) := readRegisterWithTs 1 instr.rs2 state
  let address := rs1.1 + instr.imm
  let value := rs2.1 &&& 0x0000ffff
  let existingValue ← ram.peekWord
  let mask ← Vm.halfwordMask address
  finishStore .loadStoreSubwordOnly (Vm.alignedAddress address)
    (Vm.mergeStore address value existingValue mask) rs1 rs2 state ram tracer

def sb (state : State C) (ram : ReplayerRam romBits) (instr : Instruction) (tracer : T) :
    Option (State C × ReplayerRam romBits × T) := do
  let (rs1, state) := readRegisterWithTs 0 instr.rs1 state
  let (rs2, state) := readRegisterWithTs 1 instr.rs2 state
  let address := rs1.1 + instr.imm
  let value := rs2.1 &&& 0x000000ff
  let existingValue ← ram.peekWord
  let mask ← Vm.byteMask address
  finishStore .loadStoreSubwordOnly (Vm.alignedAddress address)
    (Vm.mergeStore address value existingValue mask) rs1 rs2 state ram tracer

def lh (signExtend : Bool) (state : State C) (ram : ReplayerRam romBits)
    (instr : Instruction) (tracer : T) : Option (State C × ReplayerRam romBits × T) :=
  let (rs1, state) := readRegisterWithTs 0 instr.rs1 state
  let address := rs1.1 + instr.imm
  finishLoad .loadStoreSubwordOnly (Vm.alignedAddress address)
    (Vm.halfwordValue signExtend address) rs1 instr.rd state ram tracer

def lb (signExtend : Bool) (state : State C) (ram : ReplayerRam romBits)
    (instr : Instruction) (tracer : T) : Option (State C × ReplayerRam romBits × T) :=
  let (rs1, state) := readRegisterWithTs 0 instr.rs1 state
  let address := rs1.1 + instr.imm
  finishLoad .loadStoreSubwordOnly (Vm.alignedAddress address)
    (Vm.byteValue signExtend address) rs1 instr.rd state ram tracer

end Memory

end Handlers

end Airbender.Replayer
