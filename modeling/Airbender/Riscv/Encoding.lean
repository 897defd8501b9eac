import Mathlib.Data.BitVec

/-!
# RISC-V instruction encodings

The base integer instructions, the multiplication extension, the three field operations in the
`Zimop` space and `CSRRW`, with their fields and immediates as the instruction formats lay them
out.
-/

namespace Airbender.Riscv

/-! ## Fields -/

def opcode (word : BitVec 32) : BitVec 7 := word.extractLsb' 0 7

def rd (word : BitVec 32) : BitVec 5 := word.extractLsb' 7 5

def funct3 (word : BitVec 32) : BitVec 3 := word.extractLsb' 12 3

def rs1 (word : BitVec 32) : BitVec 5 := word.extractLsb' 15 5

def rs2 (word : BitVec 32) : BitVec 5 := word.extractLsb' 20 5

def funct7 (word : BitVec 32) : BitVec 7 := word.extractLsb' 25 7

/-- The index of a control and status register. -/
def csr (word : BitVec 32) : BitVec 12 := word.extractLsb' 20 12

/-! ## Formats -/

inductive Format where
  | r
  | i
  | s
  | b
  | u
  | j
deriving DecidableEq, Repr

namespace Format

def immediate (word : BitVec 32) : Format → BitVec 32
  | r => 0
  | i => (word.extractLsb' 20 12).signExtend 32
  | s => (word.extractLsb' 25 7 ++ word.extractLsb' 7 5).signExtend 32
  | b => (word.extractLsb' 31 1 ++ word.extractLsb' 7 1 ++ word.extractLsb' 25 6 ++
      word.extractLsb' 8 4 ++ 0#1).signExtend 32
  | u => word.extractLsb' 12 20 ++ 0#12
  | j => (word.extractLsb' 31 1 ++ word.extractLsb' 12 8 ++ word.extractLsb' 20 1 ++
      word.extractLsb' 21 10 ++ 0#1).signExtend 32

def hasRs1 : Format → Bool
  | u | j => false
  | _ => true

def hasRs2 : Format → Bool
  | i | u | j => false
  | _ => true

def hasRd : Format → Bool
  | s | b => false
  | _ => true

end Format

/-! ## Operations -/

inductive Operation where
  | add | addi | sub | lui | auipc | addmod | submod | mulmod
  | jal | jalr | slti | sltiu | slt | sltu | beq | bne | blt | bge | bltu | bgeu
  | slli | srli | srai | sll | srl | sra | and | andi | or | ori | xor | xori | csrrw
  | lw | sw
  | lb | lh | lbu | lhu | sb | sh
  | mul | mulh | mulhsu | mulhu | div | divu | rem | remu
  | fence | ecall | ebreak
deriving DecidableEq, Repr

/-- The bits that fix an operation; `none` leaves a field open. -/
structure Encoding where
  opcode : BitVec 7
  funct3 : Option (BitVec 3)
  funct7 : Option (BitVec 7)
  format : Format
deriving DecidableEq, Repr

namespace Operation

def encoding : Operation → Encoding
  | lui => ⟨0b0110111, none, none, .u⟩
  | auipc => ⟨0b0010111, none, none, .u⟩
  | jal => ⟨0b1101111, none, none, .j⟩
  | jalr => ⟨0b1100111, some 0b000, none, .i⟩
  | beq => ⟨0b1100011, some 0b000, none, .b⟩
  | bne => ⟨0b1100011, some 0b001, none, .b⟩
  | blt => ⟨0b1100011, some 0b100, none, .b⟩
  | bge => ⟨0b1100011, some 0b101, none, .b⟩
  | bltu => ⟨0b1100011, some 0b110, none, .b⟩
  | bgeu => ⟨0b1100011, some 0b111, none, .b⟩
  | lb => ⟨0b0000011, some 0b000, none, .i⟩
  | lh => ⟨0b0000011, some 0b001, none, .i⟩
  | lw => ⟨0b0000011, some 0b010, none, .i⟩
  | lbu => ⟨0b0000011, some 0b100, none, .i⟩
  | lhu => ⟨0b0000011, some 0b101, none, .i⟩
  | sb => ⟨0b0100011, some 0b000, none, .s⟩
  | sh => ⟨0b0100011, some 0b001, none, .s⟩
  | sw => ⟨0b0100011, some 0b010, none, .s⟩
  | addi => ⟨0b0010011, some 0b000, none, .i⟩
  | slti => ⟨0b0010011, some 0b010, none, .i⟩
  | sltiu => ⟨0b0010011, some 0b011, none, .i⟩
  | xori => ⟨0b0010011, some 0b100, none, .i⟩
  | ori => ⟨0b0010011, some 0b110, none, .i⟩
  | andi => ⟨0b0010011, some 0b111, none, .i⟩
  | slli => ⟨0b0010011, some 0b001, some 0b0000000, .i⟩
  | srli => ⟨0b0010011, some 0b101, some 0b0000000, .i⟩
  | srai => ⟨0b0010011, some 0b101, some 0b0100000, .i⟩
  | add => ⟨0b0110011, some 0b000, some 0b0000000, .r⟩
  | sub => ⟨0b0110011, some 0b000, some 0b0100000, .r⟩
  | sll => ⟨0b0110011, some 0b001, some 0b0000000, .r⟩
  | slt => ⟨0b0110011, some 0b010, some 0b0000000, .r⟩
  | sltu => ⟨0b0110011, some 0b011, some 0b0000000, .r⟩
  | xor => ⟨0b0110011, some 0b100, some 0b0000000, .r⟩
  | srl => ⟨0b0110011, some 0b101, some 0b0000000, .r⟩
  | sra => ⟨0b0110011, some 0b101, some 0b0100000, .r⟩
  | or => ⟨0b0110011, some 0b110, some 0b0000000, .r⟩
  | and => ⟨0b0110011, some 0b111, some 0b0000000, .r⟩
  | mul => ⟨0b0110011, some 0b000, some 0b0000001, .r⟩
  | mulh => ⟨0b0110011, some 0b001, some 0b0000001, .r⟩
  | mulhsu => ⟨0b0110011, some 0b010, some 0b0000001, .r⟩
  | mulhu => ⟨0b0110011, some 0b011, some 0b0000001, .r⟩
  | div => ⟨0b0110011, some 0b100, some 0b0000001, .r⟩
  | divu => ⟨0b0110011, some 0b101, some 0b0000001, .r⟩
  | rem => ⟨0b0110011, some 0b110, some 0b0000001, .r⟩
  | remu => ⟨0b0110011, some 0b111, some 0b0000001, .r⟩
  | addmod => ⟨0b1110011, some 0b100, some 0b1000001, .r⟩
  | submod => ⟨0b1110011, some 0b100, some 0b1000011, .r⟩
  | mulmod => ⟨0b1110011, some 0b100, some 0b1000101, .r⟩
  | csrrw => ⟨0b1110011, some 0b001, none, .i⟩
  | fence => ⟨0b0001111, some 0b000, none, .i⟩
  | ecall | ebreak => ⟨0b1110011, some 0b000, some 0b0000000, .i⟩

/-- The word is an encoding of the operation. -/
def Encodes (op : Operation) (word : BitVec 32) : Prop :=
  match op with
  | ecall => word = 0x00000073
  | ebreak => word = 0x00100073
  | op => opcode word = op.encoding.opcode ∧
      (∀ value ∈ op.encoding.funct3, funct3 word = value) ∧
      ∀ value ∈ op.encoding.funct7, funct7 word = value

/-- A CSR index is not sign-extended. -/
def immediate (op : Operation) (word : BitVec 32) : BitVec 32 :=
  match op with
  | csrrw => (csr word).setWidth 32
  | op => op.encoding.format.immediate word

end Operation

end Airbender.Riscv
