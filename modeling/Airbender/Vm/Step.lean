import Airbender.Vm.Delegations
import Airbender.Vm.Instructions

/-!
# One cycle of the executor

`run_step` dispatches on the decoded instruction.  The executor and the replayer
dispatch alike, so the dispatch is stated once more over `Opcode`, which has one
case per handler shape.
-/

namespace Airbender.Vm

open Bigint

/-- What `read_instruction` returns; `none` is a read past the end of the tape. -/
abbrev InstructionTape := U32 → Option Instruction

/-- `SimpleTape`: the instruction of the word the program counter is in. -/
def simpleTape (instructions : List Instruction) : InstructionTape :=
  fun pc => instructions[(pc >>> 2).toNat]?

/-- Everything a step reads and writes besides the tape. -/
structure Machine (C : Type) (romBits : Nat) (ND : Type) where
  state : State C
  ram : RamWithRomRegion romBits
  nd : ND

namespace Machine

variable {C : Type} {romBits : Nat} {ND : Type}

/-- A handler that works on the state alone. -/
def onState (machine : Machine C romBits ND) (state : Option (State C)) :
    Option (Machine C romBits ND × List SnapshotEvent) :=
  state.map fun state => ({ machine with state := state }, [])

/-- A handler that works on the state and the RAM. -/
def onMemory (machine : Machine C romBits ND)
    (result : Option (State C × RamWithRomRegion romBits × List SnapshotEvent)) :
    Option (Machine C romBits ND × List SnapshotEvent) :=
  result.map fun (state, ram, events) => ({ machine with state := state, ram := ram }, events)

end Machine

section Step

variable {C : Type} [Counters C] {romBits : Nat} {ND : Type} [NonDeterminismCSRSource ND]
  [Ruint]

/-- The `match` of `run_step`. -/
def execute (machine : Machine C romBits ND) (instr : Instruction) :
    Option (Machine C romBits ND × List SnapshotEvent) :=
  let state := machine.state
  let ram := machine.ram
  match instr.name with
  | .illegal => none
  | .lui => machine.onState (some (lui state instr))
  | .auipc => machine.onState (some (auipc state instr))
  | .jal => machine.onState (jal state instr)
  | .jalr => machine.onState (jalr state instr)
  | .slt => machine.onState (some (slt false state instr))
  | .slti => machine.onState (some (slt true state instr))
  | .sltu => machine.onState (some (sltu false state instr))
  | .sltiu => machine.onState (some (sltu true state instr))
  | .branch => machine.onState (branch state instr)
  | .sw => machine.onMemory (sw state ram instr)
  | .lw => machine.onMemory (lw state ram instr)
  | .sh => machine.onMemory (sh state ram instr)
  | .lhu => machine.onMemory (lh false state ram instr)
  | .lh => machine.onMemory (lh true state ram instr)
  | .sb => machine.onMemory (sb state ram instr)
  | .lbu => machine.onMemory (lb false state ram instr)
  | .lb => machine.onMemory (lb true state ram instr)
  | .add => machine.onState (some (addOp false state instr))
  | .addi => machine.onState (some (addOp true state instr))
  | .sub => machine.onState (some (subOp state instr))
  | .xor => machine.onState (some (xor false state instr))
  | .xori => machine.onState (some (xor true state instr))
  | .and => machine.onState (some (and false state instr))
  | .andi => machine.onState (some (and true state instr))
  | .or => machine.onState (some (or false state instr))
  | .ori => machine.onState (some (or true state instr))
  | .sll => machine.onState (some (sll false state instr))
  | .slli => machine.onState (some (sll true state instr))
  | .srl => machine.onState (some (srl false state instr))
  | .srli => machine.onState (some (srl true state instr))
  | .sra => machine.onState (some (sra false state instr))
  | .srai => machine.onState (some (sra true state instr))
  | .mul => machine.onState (some (mul state instr))
  | .mulhu => machine.onState (some (mulhu state instr))
  | .divu => machine.onState (some (divu state instr))
  | .remu => machine.onState (some (remu state instr))
  | .zimopAdd => machine.onState (some (mopAddmod state instr))
  | .zimopSub => machine.onState (some (mopSubmod state instr))
  | .zimopMul => machine.onState (some (mopMulmod state instr))
  | .zicsrNonDeterminismRead =>
      (ndRead state machine.nd instr).map fun (state, nd, events) =>
        ({ machine with state := state, nd := nd }, events)
  | .zicsrNonDeterminismWrite =>
      (ndWrite state ram machine.nd instr).map fun (state, nd) =>
        ({ machine with state := state, nd := nd }, [])
  | .zicsrDelegation => machine.onMemory (callDelegation state ram instr)
  | .mulh | .mulhsu | .div | .rem | .rol | .ror | .zicsrMarkerCsr | .formalEnd => none

/-- `run_step`: one instruction of the tape, and what it reports. -/
def runStep (tape : InstructionTape) (machine : Machine C romBits ND) :
    Option (Machine C romBits ND × List SnapshotEvent) := do
  let instr ← tape machine.state.pc
  execute machine instr

/-- A step followed by the default timestamp step of the run loops. -/
def runCycle (tape : InstructionTape) (machine : Machine C romBits ND) :
    Option (Machine C romBits ND × List SnapshotEvent) := do
  let (machine, events) ← runStep tape machine
  let state ← machine.state.advance timestampStep
  some ({ machine with state := state }, events)

end Step

end Airbender.Vm
