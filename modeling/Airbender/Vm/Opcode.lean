import Mathlib.Tactic.IntervalCases
import Airbender.Vm.DelegationCalls
import Airbender.Vm.Step

/-!
# Instructions by handler shape

The executor has some forty instruction names and far fewer shapes of handlers.
`opcodeOf` names the shape, and the proofs about steps are by cases on it.
-/

namespace Airbender.Vm

open Bigint

/-- A handler up to its parameters. -/
inductive Opcode where
  | alu (family : CircuitFamily) (op : U32 → U32 → U32) (useImm : Bool)
  | lui
  | auipc
  | jal
  | jalr
  | branch
  | load (family : CircuitFamily) (size : U32) (value : U32 → U32 → U32)
  | store (family : CircuitFamily) (size : U32) (newWord : U32 → U32 → U32 → Option U32)
  | ndRead
  | ndWrite
  | delegation

/-- The word a half-word store leaves at an address. -/
def halfwordStored (address rs2Value existingValue : U32) : Option U32 :=
  (halfwordMask address).map (mergeStore address (rs2Value &&& 0x0000ffff) existingValue)

def byteStored (address rs2Value existingValue : U32) : Option U32 :=
  (byteMask address).map (mergeStore address (rs2Value &&& 0x000000ff) existingValue)

/-- The handler of each instruction name; the others panic. -/
def opcodeOf : InstructionName → Option Opcode
  | .lui => some .lui
  | .auipc => some .auipc
  | .jal => some .jal
  | .jalr => some .jalr
  | .slt => some (.alu .jumpBranchSlt sltValue false)
  | .slti => some (.alu .jumpBranchSlt sltValue true)
  | .sltu => some (.alu .jumpBranchSlt sltuValue false)
  | .sltiu => some (.alu .jumpBranchSlt sltuValue true)
  | .branch => some .branch
  | .sw => some (.store .loadStoreWordOnly 4 fun _ rs2Value _ => some rs2Value)
  | .lw => some (.load .loadStoreWordOnly 4 fun _ word => word)
  | .sh => some (.store .loadStoreSubwordOnly 2 halfwordStored)
  | .lhu => some (.load .loadStoreSubwordOnly 2 (halfwordValue false))
  | .lh => some (.load .loadStoreSubwordOnly 2 (halfwordValue true))
  | .sb => some (.store .loadStoreSubwordOnly 1 byteStored)
  | .lbu => some (.load .loadStoreSubwordOnly 1 (byteValue false))
  | .lb => some (.load .loadStoreSubwordOnly 1 (byteValue true))
  | .add => some (.alu .addSubLuiAuipcMop (· + ·) false)
  | .addi => some (.alu .addSubLuiAuipcMop (· + ·) true)
  | .sub => some (.alu .addSubLuiAuipcMop (· - ·) false)
  | .xor => some (.alu .shiftBinaryCsr (· ^^^ ·) false)
  | .xori => some (.alu .shiftBinaryCsr (· ^^^ ·) true)
  | .and => some (.alu .shiftBinaryCsr (· &&& ·) false)
  | .andi => some (.alu .shiftBinaryCsr (· &&& ·) true)
  | .or => some (.alu .shiftBinaryCsr (· ||| ·) false)
  | .ori => some (.alu .shiftBinaryCsr (· ||| ·) true)
  | .sll => some (.alu .shiftBinaryCsr wrappingShl false)
  | .slli => some (.alu .shiftBinaryCsr wrappingShl true)
  | .srl => some (.alu .shiftBinaryCsr wrappingShr false)
  | .srli => some (.alu .shiftBinaryCsr wrappingShr true)
  | .sra => some (.alu .shiftBinaryCsr wrappingSar false)
  | .srai => some (.alu .shiftBinaryCsr wrappingSar true)
  | .mul => some (.alu .mulDiv (· * ·) false)
  | .mulhu => some (.alu .mulDiv mulhuValue false)
  | .divu => some (.alu .mulDiv divuValue false)
  | .remu => some (.alu .mulDiv remuValue false)
  | .zimopAdd => some (.alu .addSubLuiAuipcMop (mopValue Mersenne31.addMod) false)
  | .zimopSub => some (.alu .addSubLuiAuipcMop (mopValue Mersenne31.subMod) false)
  | .zimopMul => some (.alu .addSubLuiAuipcMop (mopValue Mersenne31.mulMod) false)
  | .zicsrNonDeterminismRead => some .ndRead
  | .zicsrNonDeterminismWrite => some .ndWrite
  | .zicsrDelegation => some .delegation
  | .illegal | .mulh | .mulhsu | .div | .rem | .rol | .ror | .zicsrMarkerCsr
  | .formalEnd => none

/-! ## Loads and stores -/

section Memory

variable {C : Type} [Counters C] {romBits : Nat}

/-- Every load: read the word around the address and extract the value. -/
def loadOp (family : CircuitFamily) (size : U32) (value : U32 → U32 → U32)
    (state : State C) (ram : RamWithRomRegion romBits) (instr : Instruction) :
    Option (State C × RamWithRomRegion romBits × List SnapshotEvent) :=
  let (rs1Value, state) := state.readRegister 0 instr.rs1
  let address := rs1Value + instr.imm
  if address % size ≠ 0 then
    none
  else
    finishLoad family (alignedAddress address) (value address) instr.rd state ram

/-- Every store: merge the value into the word around the address. -/
def storeOp (family : CircuitFamily) (size : U32) (newWord : U32 → U32 → U32 → Option U32)
    (state : State C) (ram : RamWithRomRegion romBits) (instr : Instruction) :
    Option (State C × RamWithRomRegion romBits × List SnapshotEvent) := do
  let (rs1Value, state) := state.readRegister 0 instr.rs1
  let (rs2Value, state) := state.readRegister 1 instr.rs2
  let address := rs1Value + instr.imm
  if address % size ≠ 0 then
    none
  else
    let existingValue ← ram.peekWord (alignedAddress address)
    let word ← newWord address rs2Value existingValue
    finishStore family (alignedAddress address) word state ram

theorem alignedAddress_of_mod_four {address : U32} (aligned : address % 4 = 0) :
    alignedAddress address = address := by
  have lowBits : address.toNat % 4 = 0 := congrArg BitVec.toNat aligned
  have mask (i : Nat) : (3 : U32).getLsbD i = decide (i < 2) := by
    rcases Nat.lt_or_ge i 2 with small | large
    · interval_cases i <;> rfl
    · have zero : (3 : Nat).testBit i = false :=
        Nat.testBit_lt_two_pow (Nat.lt_of_lt_of_le (show 3 < 2 ^ 2 by decide)
          (Nat.pow_le_pow_right (by decide) large))
      simp [BitVec.getLsbD, zero, Nat.not_lt.mpr large]
  apply BitVec.eq_of_getLsbD_eq
  intro i bound
  rw [alignedAddress, BitVec.getLsbD_and, BitVec.getLsbD_not, mask]
  rcases Nat.lt_or_ge i 2 with small | large
  · have zero : address.getLsbD i = false := by
      rw [BitVec.getLsbD, Nat.testBit_eq_decide_div_mod_eq]
      interval_cases i
      · simp only [decide_eq_false_iff_not]
        omega
      · simp only [decide_eq_false_iff_not]
        omega
    simp [zero]
  · rw [decide_eq_true bound, decide_eq_false (Nat.not_lt.mpr large), Bool.not_false, Bool.and_true,
      Bool.and_true]

theorem mod_one (address : U32) : address % 1 = 0 := by
  apply BitVec.eq_of_toNat_eq
  exact Nat.mod_one _

variable (state : State C) (ram : RamWithRomRegion romBits) (instr : Instruction)

theorem lw_eq : lw state ram instr =
    loadOp .loadStoreWordOnly 4 (fun _ word => word) state ram instr := by
  simp only [lw, loadOp]
  split
  · rfl
  · next aligned =>
      rw [alignedAddress_of_mod_four (Decidable.not_not.mp aligned)]
      rfl

theorem lh_eq (signExtend : Bool) : lh signExtend state ram instr =
    loadOp .loadStoreSubwordOnly 2 (halfwordValue signExtend) state ram instr := rfl

theorem lb_eq (signExtend : Bool) : lb signExtend state ram instr =
    loadOp .loadStoreSubwordOnly 1 (byteValue signExtend) state ram instr := by
  simp only [lb, loadOp, mod_one, ne_eq, not_true_eq_false, if_false]

theorem sw_eq : sw state ram instr =
    storeOp .loadStoreWordOnly 4 (fun _ rs2Value _ => some rs2Value) state ram instr := by
  simp only [sw, storeOp]
  split
  · rfl
  · next aligned =>
      rw [alignedAddress_of_mod_four (Decidable.not_not.mp aligned)]
      cases peeked : ram.peekWord
          ((state.readRegister 0 instr.rs1).1 + instr.imm) with
      | some existingValue => rfl
      | none =>
          simp only [RamWithRomRegion.peekWord, ite_eq_right_iff, reduceCtorEq,
            imp_false] at peeked
          simp only [finishStore, RamWithRomRegion.writeWord, if_neg peeked]
          rfl

theorem sh_eq : sh state ram instr =
    storeOp .loadStoreSubwordOnly 2 halfwordStored state ram instr := by
  simp only [sh, storeOp, halfwordStored, Option.bind_eq_bind, Option.bind_map]
  rfl

theorem sb_eq : sb state ram instr =
    storeOp .loadStoreSubwordOnly 1 byteStored state ram instr := by
  simp only [sb, storeOp, byteStored, mod_one, ne_eq, not_true_eq_false, if_false,
    Option.bind_eq_bind, Option.bind_map]
  rfl

end Memory

/-! ## Dispatch -/

section Execute

variable {C : Type} [Counters C] {romBits : Nat} {ND : Type} [NonDeterminismCSRSource ND]
  [Ruint]

def executeOpcode (opcode : Opcode) (machine : Machine C romBits ND) (instr : Instruction) :
    Option (Machine C romBits ND × List SnapshotEvent) :=
  let state := machine.state
  let ram := machine.ram
  match opcode with
  | .alu family op useImm => machine.onState (some (aluOp family op useImm state instr))
  | .lui => machine.onState (some (Vm.lui state instr))
  | .auipc => machine.onState (some (Vm.auipc state instr))
  | .jal => machine.onState (Vm.jal state instr)
  | .jalr => machine.onState (Vm.jalr state instr)
  | .branch => machine.onState (Vm.branch state instr)
  | .load family size value => machine.onMemory (loadOp family size value state ram instr)
  | .store family size newWord =>
      machine.onMemory (storeOp family size newWord state ram instr)
  | .ndRead =>
      (Vm.ndRead state machine.nd instr).map fun (state, nd, events) =>
        ({ machine with state := state, nd := nd }, events)
  | .ndWrite =>
      (Vm.ndWrite state ram machine.nd instr).map fun (state, nd) =>
        ({ machine with state := state, nd := nd }, [])
  | .delegation => machine.onMemory (callDelegation state ram instr)

/-- The dispatch by name is the dispatch by shape. -/
theorem execute_eq (machine : Machine C romBits ND) (instr : Instruction) :
    execute machine instr =
      (opcodeOf instr.name).bind fun opcode => executeOpcode opcode machine instr := by
  obtain ⟨name, rs1, rs2, rd, imm⟩ := instr
  cases name
  case sw => exact congrArg machine.onMemory (sw_eq machine.state machine.ram _)
  case lw => exact congrArg machine.onMemory (lw_eq machine.state machine.ram _)
  case sh => exact congrArg machine.onMemory (sh_eq machine.state machine.ram _)
  case sb => exact congrArg machine.onMemory (sb_eq machine.state machine.ram _)
  case lbu => exact congrArg machine.onMemory (lb_eq machine.state machine.ram _ false)
  case lb => exact congrArg machine.onMemory (lb_eq machine.state machine.ram _ true)
  all_goals rfl

/-- What a successful step is made of. -/
theorem runStep_eq_some_iff
    {tape : InstructionTape} {machine machine' : Machine C romBits ND}
    {events : List SnapshotEvent} :
    runStep tape machine = some (machine', events) ↔
      ∃ instr opcode, tape machine.state.pc = some instr ∧
        opcodeOf instr.name = some opcode ∧
          executeOpcode opcode machine instr = some (machine', events) := by
  simp only [runStep, Option.bind_eq_bind, Option.bind_eq_some_iff, execute_eq]
  constructor
  · rintro ⟨instr, read, opcode, named, executed⟩
    exact ⟨instr, opcode, read, named, executed⟩
  · rintro ⟨instr, opcode, read, named, executed⟩
    exact ⟨instr, read, opcode, named, executed⟩

/-- What a successful cycle is made of. -/
theorem runCycle_eq_some_iff
    {tape : InstructionTape} {machine machine' : Machine C romBits ND}
    {events : List SnapshotEvent} :
    runCycle tape machine = some (machine', events) ↔
      ∃ stepped timestamp, runStep tape machine = some (stepped, events) ∧
        checkedAdd stepped.state.timestamp timestampStep = some timestamp ∧
          machine' = { stepped with state := stepped.state.setTimestamp timestamp } := by
  simp only [runCycle, State.advance, Option.bind_eq_bind, Option.bind_eq_some_iff,
    Option.some.injEq, Prod.mk.injEq, Prod.exists]
  constructor
  · rintro ⟨stepped, _, step, _, ⟨timestamp, added, rfl⟩, rfl, rfl⟩
    exact ⟨stepped, timestamp, step, added, rfl⟩
  · rintro ⟨stepped, timestamp, step, added, rfl⟩
    exact ⟨stepped, events, step, _, ⟨timestamp, added, rfl⟩, rfl, rfl⟩

end Execute

end Airbender.Vm
