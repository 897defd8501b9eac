import Airbender.Vm.Ram
import Airbender.Field.Mersenne31

/-!
# Instruction handlers of the executor

One definition per handler.  Handlers of one shape are a shared definition with
the operation and the circuit family as parameters.
-/

namespace Airbender.Vm

variable {C : Type}

/-! ## Non-determinism -/

/-- The source of non-deterministic values; writes may peek into memory. -/
class NonDeterminismCSRSource (ND : Type) where
  read : ND → Option (U32 × ND)
  writeWithMemoryAccess : (U32 → Option U32) → U32 → ND → Option ND

instance : NonDeterminismCSRSource Unit where
  read := fun source => some (0, source)
  writeWithMemoryAccess := fun _ _ source => some source

/-! ## Operations on register values -/

/-- The second operand of an operation with an immediate form. -/
def secondOperand (useImm : Bool) (state : State C) (instr : Instruction) : U32 × State C :=
  if useImm then
    (instr.imm, state.touchX0 1)
  else
    state.readRegister 1 instr.rs2

/-- The handler of a register operation: two operands, a result, the next word. -/
def aluOp [Counters C] (family : CircuitFamily) (op : U32 → U32 → U32) (useImm : Bool)
    (state : State C) (instr : Instruction) : State C :=
  let (rs1Value, state) := state.readRegister 0 instr.rs1
  let (rs2Value, state) := secondOperand useImm state instr
  let state := state.writeRegister 2 instr.rd (op rs1Value rs2Value)
  state.defaultIncreasePc.incrementFamilyCounter family

/-- `wrapping_shl`: the amount is taken modulo the width. -/
def wrappingShl (value amount : U32) : U32 := value <<< (amount.toNat % 32)

def wrappingShr (value amount : U32) : U32 := value >>> (amount.toNat % 32)

def wrappingSar (value amount : U32) : U32 := value.sshiftRight (amount.toNat % 32)

def sltValue (rs1Value rs2Value : U32) : U32 := if rs1Value.slt rs2Value then 1 else 0

def sltuValue (rs1Value rs2Value : U32) : U32 := if rs1Value.ult rs2Value then 1 else 0

/-- The high word of the unsigned product. -/
def mulhuValue (rs1Value rs2Value : U32) : U32 :=
  ((rs1Value.setWidth 64 * rs2Value.setWidth 64) >>> 32).setWidth 32

def divuValue (rs1Value rs2Value : U32) : U32 :=
  if rs2Value = 0 then 0xffffffff else rs1Value / rs2Value

def remuValue (rs1Value rs2Value : U32) : U32 :=
  if rs2Value = 0 then rs1Value else rs1Value % rs2Value

/-- A field operation on reduced operands. -/
def mopValue (op : U32 → U32 → U32) (rs1Value rs2Value : U32) : U32 :=
  Mersenne31.toReducedU32
    (op (Mersenne31.fromNonreducedU32 rs1Value) (Mersenne31.fromNonreducedU32 rs2Value))

section Alu

variable [Counters C]

def addOp (useImm : Bool) : State C → Instruction → State C :=
  aluOp .addSubLuiAuipcMop (· + ·) useImm

def subOp : State C → Instruction → State C :=
  aluOp .addSubLuiAuipcMop (· - ·) false

def and (useImm : Bool) : State C → Instruction → State C :=
  aluOp .shiftBinaryCsr (· &&& ·) useImm

def or (useImm : Bool) : State C → Instruction → State C :=
  aluOp .shiftBinaryCsr (· ||| ·) useImm

def xor (useImm : Bool) : State C → Instruction → State C :=
  aluOp .shiftBinaryCsr (· ^^^ ·) useImm

def sll (useImm : Bool) : State C → Instruction → State C :=
  aluOp .shiftBinaryCsr wrappingShl useImm

def srl (useImm : Bool) : State C → Instruction → State C :=
  aluOp .shiftBinaryCsr wrappingShr useImm

def sra (useImm : Bool) : State C → Instruction → State C :=
  aluOp .shiftBinaryCsr wrappingSar useImm

def slt (useImm : Bool) : State C → Instruction → State C :=
  aluOp .jumpBranchSlt sltValue useImm

def sltu (useImm : Bool) : State C → Instruction → State C :=
  aluOp .jumpBranchSlt sltuValue useImm

def mul : State C → Instruction → State C :=
  aluOp .mulDiv (· * ·) false

def mulhu : State C → Instruction → State C :=
  aluOp .mulDiv mulhuValue false

def divu : State C → Instruction → State C :=
  aluOp .mulDiv divuValue false

def remu : State C → Instruction → State C :=
  aluOp .mulDiv remuValue false

def mopAddmod : State C → Instruction → State C :=
  aluOp .addSubLuiAuipcMop (mopValue Mersenne31.addMod) false

def mopSubmod : State C → Instruction → State C :=
  aluOp .addSubLuiAuipcMop (mopValue Mersenne31.subMod) false

def mopMulmod : State C → Instruction → State C :=
  aluOp .addSubLuiAuipcMop (mopValue Mersenne31.mulMod) false

/-! ## Upper immediates -/

def lui (state : State C) (instr : Instruction) : State C :=
  let state := state.touchX0 1
  let state := state.writeRegister 2 instr.rd instr.imm
  state.defaultIncreasePc.incrementFamilyCounter .addSubLuiAuipcMop

def auipc (state : State C) (instr : Instruction) : State C :=
  let state := state.touchX0 1
  let state := state.writeRegister 2 instr.rd (state.pc + instr.imm)
  state.defaultIncreasePc.incrementFamilyCounter .addSubLuiAuipcMop

end Alu

/-! ## Jumps and branches -/

/-- Jumps to a word boundary; any other target is a panic. -/
def jumpTo (address : U32) (state : State C) : Option (State C) :=
  if address &&& 0x3 ≠ 0 then none else some (state.setPc address)

/-- Whether a branch is taken; `none` is the `unreachable_unchecked` arm. -/
def branchTaken (funct3 : RegisterIndex) (rs1Value rs2Value : U32) : Option Bool :=
  let negate := funct3 &&& 0b001 ≠ 0
  let condition : Option Bool :=
    match funct3 &&& 0b110 with
    | 0b000 => some (rs1Value == rs2Value)
    | 0b100 => some (rs1Value.slt rs2Value)
    | 0b110 => some (rs1Value.ult rs2Value)
    | _ => none
  condition.map fun shouldJump => if negate then !shouldJump else shouldJump

section Jumps

variable [Counters C]

def jal (state : State C) (instr : Instruction) : Option (State C) := do
  let state := state.touchX0 1
  let rd := state.pc + 4
  let state ← jumpTo (state.pc + instr.imm) state
  let state := state.writeRegister 2 instr.rd rd
  some (state.incrementFamilyCounter .jumpBranchSlt)

def jalr (state : State C) (instr : Instruction) : Option (State C) := do
  let (rs1Value, state) := state.readRegister 0 instr.rs1
  let state := state.touchX0 1
  let rd := state.pc + 4
  let state ← jumpTo ((rs1Value + instr.imm) &&& ~~~1) state
  let state := state.writeRegister 2 instr.rd rd
  some (state.incrementFamilyCounter .jumpBranchSlt)

def branch (state : State C) (instr : Instruction) : Option (State C) := do
  let (rs1Value, state) := state.readRegister 0 instr.rs1
  let (rs2Value, state) := state.readRegister 1 instr.rs2
  let shouldJump ← branchTaken instr.rd rs1Value rs2Value
  let state ←
    if shouldJump then
      jumpTo (state.pc + instr.imm) state
    else
      some state.defaultIncreasePc
  let state := state.writeRegister 2 0 0
  some (state.incrementFamilyCounter .jumpBranchSlt)

end Jumps

/-! ## Memory -/

section Memory

variable [Counters C] {romBits : Nat}

/-- The word a store leaves in memory; `mask` keeps the bytes it does not touch. -/
def mergeStore (address value existingValue mask : U32) : U32 :=
  (value <<< ((address % 4) * 8).toNat) ||| (existingValue &&& mask)

/-- The bytes a half-word store keeps; the other arm is undefined behaviour. -/
def halfwordMask (address : U32) : Option U32 :=
  match address % 4 with
  | 0 => some 0xffff0000
  | 2 => some 0x0000ffff
  | _ => none

def byteMask (address : U32) : Option U32 :=
  match address % 4 with
  | 0 => some 0xffffff00
  | 1 => some 0xffff00ff
  | 2 => some 0xff00ffff
  | 3 => some 0x00ffffff
  | _ => none

def alignedAddress (address : U32) : U32 := address &&& ~~~3

/-- The half-word at an address, taken from its word and extended. -/
def halfwordValue (signExtend : Bool) (address word : U32) : U32 :=
  let value := word >>> ((address % 4) * 8).toNat
  if signExtend then (value.setWidth 16).signExtend 32 else (value.setWidth 16).setWidth 32

def byteValue (signExtend : Bool) (address word : U32) : U32 :=
  let value := word >>> ((address % 4) * 8).toNat
  if signExtend then (value.setWidth 8).signExtend 32 else (value.setWidth 8).setWidth 32

/-- The end of every store: write the word, report it, go on. -/
def finishStore (family : CircuitFamily) (address word : U32) (state : State C)
    (ram : RamWithRomRegion romBits) :
    Option (State C × RamWithRomRegion romBits × List SnapshotEvent) := do
  let ((readTimestamp, oldValue), ram) ← ram.writeWord address word (state.timestamp ||| 2)
  let event := .memoryRead address oldValue readTimestamp (state.timestamp ||| 2)
  some (state.defaultIncreasePc.incrementFamilyCounter family, ram, [event])

/-- The end of every load: read the word, write the register, report, go on. -/
def finishLoad (family : CircuitFamily) (address : U32) (value : U32 → U32)
    (rd : RegisterIndex) (state : State C) (ram : RamWithRomRegion romBits) :
    Option (State C × RamWithRomRegion romBits × List SnapshotEvent) := do
  let ((readTimestamp, oldValue), ram) ← ram.readWord address (state.timestamp ||| 1)
  let state := state.writeRegister 2 rd (value oldValue)
  let event := .memoryRead address oldValue readTimestamp (state.timestamp ||| 1)
  some (state.defaultIncreasePc.incrementFamilyCounter family, ram, [event])

def sw (state : State C) (ram : RamWithRomRegion romBits) (instr : Instruction) :
    Option (State C × RamWithRomRegion romBits × List SnapshotEvent) :=
  let (rs1Value, state) := state.readRegister 0 instr.rs1
  let (rs2Value, state) := state.readRegister 1 instr.rs2
  let address := rs1Value + instr.imm
  if address % 4 ≠ 0 then
    none
  else
    finishStore .loadStoreWordOnly address rs2Value state ram

def lw (state : State C) (ram : RamWithRomRegion romBits) (instr : Instruction) :
    Option (State C × RamWithRomRegion romBits × List SnapshotEvent) :=
  let (rs1Value, state) := state.readRegister 0 instr.rs1
  let address := rs1Value + instr.imm
  if address % 4 ≠ 0 then
    none
  else
    finishLoad .loadStoreWordOnly address id instr.rd state ram

def sh (state : State C) (ram : RamWithRomRegion romBits) (instr : Instruction) :
    Option (State C × RamWithRomRegion romBits × List SnapshotEvent) := do
  let (rs1Value, state) := state.readRegister 0 instr.rs1
  let (rs2Value, state) := state.readRegister 1 instr.rs2
  let address := rs1Value + instr.imm
  if address % 2 ≠ 0 then
    none
  else
    let value := rs2Value &&& 0x0000ffff
    let existingValue ← ram.peekWord (alignedAddress address)
    let mask ← halfwordMask address
    finishStore .loadStoreSubwordOnly (alignedAddress address)
      (mergeStore address value existingValue mask) state ram

def sb (state : State C) (ram : RamWithRomRegion romBits) (instr : Instruction) :
    Option (State C × RamWithRomRegion romBits × List SnapshotEvent) := do
  let (rs1Value, state) := state.readRegister 0 instr.rs1
  let (rs2Value, state) := state.readRegister 1 instr.rs2
  let address := rs1Value + instr.imm
  let value := rs2Value &&& 0x000000ff
  let existingValue ← ram.peekWord (alignedAddress address)
  let mask ← byteMask address
  finishStore .loadStoreSubwordOnly (alignedAddress address)
    (mergeStore address value existingValue mask) state ram

def lh (signExtend : Bool) (state : State C) (ram : RamWithRomRegion romBits)
    (instr : Instruction) :
    Option (State C × RamWithRomRegion romBits × List SnapshotEvent) :=
  let (rs1Value, state) := state.readRegister 0 instr.rs1
  let address := rs1Value + instr.imm
  if address % 2 ≠ 0 then
    none
  else
    finishLoad .loadStoreSubwordOnly (alignedAddress address)
      (halfwordValue signExtend address) instr.rd state ram

def lb (signExtend : Bool) (state : State C) (ram : RamWithRomRegion romBits)
    (instr : Instruction) :
    Option (State C × RamWithRomRegion romBits × List SnapshotEvent) :=
  let (rs1Value, state) := state.readRegister 0 instr.rs1
  let address := rs1Value + instr.imm
  finishLoad .loadStoreSubwordOnly (alignedAddress address)
    (byteValue signExtend address) instr.rd state ram

end Memory

/-! ## Non-determinism CSR -/

section Zicsr

variable [Counters C] {ND : Type} [NonDeterminismCSRSource ND]

def ndRead (state : State C) (nd : ND) (instr : Instruction) :
    Option (State C × ND × List SnapshotEvent) := do
  let state := state.touchX0 1
  let (rd, nd) ← NonDeterminismCSRSource.read nd
  let state := state.writeRegister 2 instr.rd rd
  some (state.defaultIncreasePc.incrementFamilyCounter .shiftBinaryCsr, nd,
    [.arbitraryValue rd])

def ndWrite {romBits : Nat} (state : State C) (ram : RamWithRomRegion romBits) (nd : ND)
    (instr : Instruction) : Option (State C × ND) := do
  let (rs1Value, state) := state.readRegister 0 instr.rs1
  let state := state.touchX0 1
  let nd ← NonDeterminismCSRSource.writeWithMemoryAccess ram.peekWord rs1Value nd
  let state := state.writeRegister 2 instr.rd 0
  some (state.defaultIncreasePc.incrementFamilyCounter .shiftBinaryCsr, nd)

end Zicsr

end Airbender.Vm
