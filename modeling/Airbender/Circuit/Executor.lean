import Airbender.Circuit.Machine
import Airbender.Vm.Counters
import Airbender.Vm.Rom

/-!
# What a handler of the executor leaves behind

The destination register and the program counter after one instruction, which the circuits
are compared with.
-/

namespace Airbender

section WriteRegister

variable {C : Type}

theorem State.writeRegister_value_self (offset : TimestampScalar) (index : RegisterIndex)
    (value : U32) (state : State C) :
    ((state.writeRegister offset index value).registers index).value =
      State.maskRd index value := by
  rw [State.writeRegister, State.setRegister_registers, Function.update_self]

end WriteRegister

namespace Vm

variable {C : Type} [Counters C]

theorem aluOp_rd (family : CircuitFamily) (op : U32 → U32 → U32) (useImm : Bool)
    (state : State C) (instr : Instruction) :
    ((aluOp family op useImm state instr).registers instr.rd).value =
      State.maskRd instr.rd (op (state.registers instr.rs1).value
        (if useImm then instr.imm else (state.registers instr.rs2).value)) := by
  cases useImm with
  | true => exact State.writeRegister_value_self _ _ _ _
  | false =>
      have written := State.writeRegister_value_self 2 instr.rd
        (op (state.registers instr.rs1).value
          ((state.readRegister 0 instr.rs1).2.registers instr.rs2).value)
        ((state.readRegister 0 instr.rs1).2.readRegister 1 instr.rs2).2
      rw [State.readRegister_value] at written
      rw [← State.readRegister_value 0 instr.rs1 instr.rs2 state] at written ⊢
      exact written

/-! ## Loads and stores -/

section Memory

variable {romBits : Nat} {family : CircuitFamily} {size : U32} {state state' : State C}
  {ram ram' : RamWithRomRegion romBits} {instr : Instruction} {events : List SnapshotEvent}

theorem loadOp_aligned {value : U32 → U32 → U32}
    (loaded : loadOp family size value state ram instr = some (state', ram', events)) :
    ((state.registers instr.rs1).value + instr.imm) % size = 0 := by
  by_contra misaligned
  have refused : loadOp family size value state ram instr = none := if_pos misaligned
  rw [refused] at loaded
  cases loaded

theorem storeOp_aligned {newWord : U32 → U32 → U32 → Option U32}
    (stored : storeOp family size newWord state ram instr = some (state', ram', events)) :
    ((state.registers instr.rs1).value + instr.imm) % size = 0 := by
  by_contra misaligned
  have refused : storeOp family size newWord state ram instr = none := if_pos misaligned
  rw [refused] at stored
  cases stored

end Memory

end Vm

namespace Circuit

/-- The masked register of a circuit is the word that the executor writes. -/
theorem maskRd_ofU32 (index : RegisterIndex) (value : U32) :
    (if decide (index = 0) then Register.ofU32 0 else Register.ofU32 value) =
      Register.ofU32 (State.maskRd index value) := by
  rw [State.maskRd]
  by_cases zero : index = 0
  · rw [if_pos (decide_eq_true zero), if_pos zero]
  · rw [if_neg (by simpa using zero), if_neg zero]

/-- The record the executor would run with the fields of a decoder row. -/
def ExecutorFamilyDecoderData.instruction (data : ExecutorFamilyDecoderData)
    (name : InstructionName) : Instruction :=
  ⟨name, data.rs1Index, data.rs2Index, data.rdIndex, data.imm⟩

end Circuit

end Airbender
