import Airbender.CommonConstants

/-!
# Decoded instructions

The instruction records the executor and the replayer interpret.
-/

namespace Airbender

inductive DelegationType where
  | blake
  | bigInt
  | keccak
deriving DecidableEq, Repr

/-- The discriminant a `ZicsrDelegation` instruction carries as its immediate. -/
def DelegationType.code : DelegationType → U32
  | blake => 0
  | bigInt => 1
  | keccak => 2

inductive InstructionName where
  | illegal
  | lui
  | auipc
  | jal
  | jalr
  | addi
  | slli
  | srli
  | srai
  | slti
  | sltiu
  | xori
  | ori
  | andi
  | mul
  | mulh
  | mulhsu
  | mulhu
  | div
  | divu
  | rem
  | remu
  | add
  | sub
  | sll
  | rol
  | srl
  | sra
  | ror
  | slt
  | sltu
  | xor
  | or
  | and
  | branch
  | lhu
  | lbu
  | lw
  | lh
  | lb
  | sb
  | sh
  | sw
  | zimopAdd
  | zimopSub
  | zimopMul
  | zicsrDelegation
  | zicsrMarkerCsr
  | zicsrNonDeterminismRead
  | zicsrNonDeterminismWrite
  | formalEnd
deriving DecidableEq, Repr

/-- One decoded instruction; `imm` holds the delegation type of a delegation. -/
structure Instruction where
  name : InstructionName
  rs1 : RegisterIndex
  rs2 : RegisterIndex
  rd : RegisterIndex
  imm : U32
deriving DecidableEq, Repr

namespace Instruction

def fromImm
    (name : InstructionName) (rs1 rs2 rd : RegisterIndex) (imm : U32) : Instruction :=
  ⟨name, rs1, rs2, rd, imm⟩

/-- The filler the preprocessor puts wherever there is nothing to execute. -/
def illegalInstr : Instruction :=
  fromImm .illegal 0 0 0 0

end Instruction

end Airbender
