import Airbender.Vm.Opcode
import Airbender.Vm.Timestamps

/-!
# What every step preserves

Time does not go back and stays on multiples of the timestamp step, and `x0` keeps
the value zero.
-/

namespace Airbender

open Bigint

/-! ## The value of `x0` -/

section ZeroX0

variable {C : Type}

/-- `x0` holds zero. -/
def State.ZeroX0 (state : State C) : Prop := (state.registers 0).value = 0

variable {state : State C}

theorem State.ZeroX0.setRegister
    (zero : state.ZeroX0) {index : RegisterIndex} {register : Register}
    (keeps : index = 0 → register.value = 0) : (state.setRegister index register).ZeroX0 := by
  unfold State.ZeroX0 at zero ⊢
  by_cases same : index = 0
  · rw [same, State.setRegister_registers, Function.update_self]
    exact keeps same
  · rw [State.setRegister_registers, Function.update_of_ne (Ne.symm same)]
    exact zero

theorem State.ZeroX0.touchX0
    (zero : state.ZeroX0) (offset : TimestampScalar) : (state.touchX0 offset).ZeroX0 :=
  zero.setRegister fun _ => zero

theorem State.ZeroX0.readRegister
    (zero : state.ZeroX0) (offset : TimestampScalar) (index : RegisterIndex) :
    (state.readRegister offset index).2.ZeroX0 := by
  refine zero.setRegister fun same => ?_
  rw [same]
  exact zero

theorem State.ZeroX0.writeRegister
    (zero : state.ZeroX0) (offset : TimestampScalar) (index : RegisterIndex) (value : U32) :
    (state.writeRegister offset index value).ZeroX0 := by
  refine zero.setRegister fun same => ?_
  rw [same]
  rfl

theorem State.ZeroX0.setPc (zero : state.ZeroX0) (pc : U32) : (state.setPc pc).ZeroX0 := zero

theorem State.ZeroX0.setTimestamp
    (zero : state.ZeroX0) (timestamp : TimestampScalar) :
    (state.setTimestamp timestamp).ZeroX0 := zero

end ZeroX0

namespace Vm

variable {C : Type}

/-! ## One step -/

/-- What a step does to the time and to `x0`. -/
structure StepFacts (state state' : State C) : Prop where
  timestamp_le : state.timestamp.toNat ≤ state'.timestamp.toNat
  timestamp_mod : state'.timestamp.toNat % 4 = state.timestamp.toNat % 4
  zeroX0 : state.ZeroX0 → state'.ZeroX0

theorem StepFacts.of_timestamp_eq
    {state state' : State C} (sameTime : state'.timestamp = state.timestamp)
    (zeroX0 : state.ZeroX0 → state'.ZeroX0) : StepFacts state state' where
  timestamp_le := by rw [sameTime]
  timestamp_mod := by rw [sameTime]
  zeroX0 := zeroX0

theorem jumpTo_eq_some_iff {address : U32} {state state' : State C} :
    jumpTo address state = some state' ↔
      address &&& 0x3 = 0 ∧ state' = state.setPc address := by
  simp only [jumpTo]
  split <;> simp_all [eq_comm]

/-- The second operand leaves the time alone, and the value of `x0`. -/
theorem secondOperand_facts (useImm : Bool) (state : State C) (instr : Instruction) :
    StepFacts state (secondOperand useImm state instr).2 := by
  cases useImm with
  | true => exact .of_timestamp_eq rfl fun zero => zero.touchX0 1
  | false => exact .of_timestamp_eq rfl fun zero => zero.readRegister 1 instr.rs2

theorem checkedAdd_toNat
    {left right sum : U64} (added : checkedAdd left right = some sum) :
    sum.toNat = left.toNat + right.toNat := by
  obtain ⟨fits, rfl⟩ := (checkedAdd_eq_some_iff left right sum).mp added
  rw [BitVec.toNat_add, Nat.mod_eq_of_lt fits]

theorem batchDuration_mod (numCalls : Nat) : (batchDuration numCalls).toNat % 4 = 0 := by
  have step : timestampStep.toNat = 4 := rfl
  rw [batchDuration, BitVec.toNat_mul, step]
  omega

section Execute

variable [Counters C]

theorem aluOp_facts
    (family : CircuitFamily) (op : U32 → U32 → U32) (useImm : Bool) (state : State C)
    (instr : Instruction) : StepFacts state (aluOp family op useImm state instr) := by
  refine .of_timestamp_eq ?_ fun zero => ?_
  · cases useImm <;> rfl
  · have operands :=
      (secondOperand_facts useImm (state.readRegister 0 instr.rs1).2 instr).zeroX0
        (zero.readRegister 0 instr.rs1)
    exact operands.writeRegister 2 instr.rd _

theorem jal_facts {state state' : State C} {instr : Instruction}
    (jumped : Vm.jal state instr = some state') : StepFacts state state' := by
  simp only [Vm.jal, Option.bind_eq_bind, Option.bind_eq_some_iff, jumpTo_eq_some_iff,
    Option.some.injEq] at jumped
  obtain ⟨_, ⟨_, rfl⟩, rfl⟩ := jumped
  exact .of_timestamp_eq rfl fun zero => (zero.touchX0 1).writeRegister 2 instr.rd _

theorem jalr_facts {state state' : State C} {instr : Instruction}
    (jumped : Vm.jalr state instr = some state') : StepFacts state state' := by
  simp only [Vm.jalr, Option.bind_eq_bind, Option.bind_eq_some_iff, jumpTo_eq_some_iff,
    Option.some.injEq] at jumped
  obtain ⟨_, ⟨_, rfl⟩, rfl⟩ := jumped
  exact .of_timestamp_eq rfl fun zero =>
    ((zero.readRegister 0 instr.rs1).touchX0 1).writeRegister 2 instr.rd _

/-- A branch changes the program counter of the touched state and nothing else. -/
theorem branch_eq_some
    {state state' : State C} {instr : Instruction}
    (branched : Vm.branch state instr = some state') :
    ∃ shouldJump,
      branchTaken instr.rd (state.registers instr.rs1).value
          (state.registers instr.rs2).value = some shouldJump ∧
        state' =
          let touched := ((state.readRegister 0 instr.rs1).2.readRegister 1 instr.rs2).2
          let pc := if shouldJump then state.pc + instr.imm else state.pc + 4
          State.incrementFamilyCounter .jumpBranchSlt
            ((touched.setPc pc).writeRegister 2 0 0) := by
  simp only [Vm.branch, Option.bind_eq_bind, Option.bind_eq_some_iff,
    State.readRegister_fst, State.readRegister_value] at branched
  obtain ⟨shouldJump, taken, moved⟩ := branched
  refine ⟨shouldJump, taken, ?_⟩
  cases shouldJump with
  | true =>
      rw [if_pos rfl] at moved
      simp only [Option.bind_eq_some_iff, jumpTo_eq_some_iff, Option.some.injEq] at moved
      obtain ⟨_, ⟨_, rfl⟩, rfl⟩ := moved
      rfl
  | false =>
      rw [if_neg (by simp)] at moved
      simp only [Option.bind_some, Option.some.injEq] at moved
      rw [← moved]
      rfl

theorem branch_facts {state state' : State C} {instr : Instruction}
    (branched : Vm.branch state instr = some state') : StepFacts state state' := by
  obtain ⟨shouldJump, _, rfl⟩ := branch_eq_some branched
  refine .of_timestamp_eq rfl fun zero => ?_
  have touched := (zero.readRegister 0 instr.rs1).readRegister 1 instr.rs2
  exact (touched.setPc _).writeRegister 2 0 0

/-! Loads and stores -/

section Memory

variable {romBits : Nat}

/-- A successful load: the slot it finds and the state it leaves. -/
theorem loadOp_eq_some
    {family : CircuitFamily} {size : U32} {value : U32 → U32 → U32} {state state' : State C}
    {ram ram' : RamWithRomRegion romBits} {instr : Instruction} {events : List SnapshotEvent}
    (loaded : loadOp family size value state ram instr = some (state', ram', events)) :
    ∃ readTimestamp word,
      let address := (state.registers instr.rs1).value + instr.imm
      let slot := wordIdx (alignedAddress address)
      slot < ram.len ∧
        ram.backing slot = ⟨readTimestamp, word⟩ ∧
        ram' = ram.setSlot slot ⟨state.timestamp ||| 1, word⟩ ∧
        events =
          [.memoryRead (alignedAddress address) word readTimestamp (state.timestamp ||| 1)] ∧
        state' =
          let touched := (state.readRegister 0 instr.rs1).2
          let written := touched.writeRegister 2 instr.rd (value address word)
          written.defaultIncreasePc.incrementFamilyCounter family := by
  simp only [loadOp] at loaded
  split_ifs at loaded
  · simp only [finishLoad, State.readRegister_fst, State.readRegister_timestamp,
      State.writeRegister_timestamp, Option.bind_eq_bind,
      Option.bind_eq_some_iff, RamWithRomRegion.readWord_eq_some_iff, Option.some.injEq,
      Prod.mk.injEq, Prod.exists] at loaded
    obtain ⟨readTimestamp, word, _, ⟨inRange, found, rfl⟩, rfl, rfl, rfl⟩ := loaded
    refine ⟨readTimestamp, word, inRange, found, ?_, rfl, rfl⟩
    rw [BitVec.or_assoc]
    rfl

/-- A successful store: the slot it finds, the word it leaves and the state. -/
theorem storeOp_eq_some
    {family : CircuitFamily} {size : U32} {newWord : U32 → U32 → U32 → Option U32}
    {state state' : State C} {ram ram' : RamWithRomRegion romBits} {instr : Instruction}
    {events : List SnapshotEvent}
    (stored : storeOp family size newWord state ram instr = some (state', ram', events)) :
    ∃ readTimestamp oldValue word,
      let rs2Value := (state.registers instr.rs2).value
      let address := (state.registers instr.rs1).value + instr.imm
      let slot := wordIdx (alignedAddress address)
      newWord address rs2Value oldValue = some word ∧
        slot < ram.len ∧ romWords romBits ≤ slot ∧
        ram.backing slot = ⟨readTimestamp, oldValue⟩ ∧
        ram' = ram.setSlot slot ⟨state.timestamp ||| 2, word⟩ ∧
        events =
          [.memoryRead (alignedAddress address) oldValue readTimestamp
            (state.timestamp ||| 2)] ∧
        state' =
          let touched := ((state.readRegister 0 instr.rs1).2.readRegister 1 instr.rs2).2
          touched.defaultIncreasePc.incrementFamilyCounter family := by
  simp only [storeOp] at stored
  split_ifs at stored
  · simp only [finishStore, State.readRegister_fst, State.readRegister_value,
      State.readRegister_timestamp, Option.bind_eq_bind,
      Option.bind_eq_some_iff, RamWithRomRegion.peekWord_eq_some_iff,
      RamWithRomRegion.writeWord_eq_some_iff, Option.some.injEq, Prod.mk.injEq,
      Prod.exists] at stored
    obtain ⟨existingValue, ⟨_, existing⟩, word, computed, readTimestamp, oldValue, _,
      ⟨inRange, aboveRom, found, rfl⟩, rfl, rfl, rfl⟩ := stored
    have sameValue : existingValue = oldValue := by
      rw [← existing, found]
    rw [sameValue] at computed
    refine ⟨readTimestamp, oldValue, word, computed, inRange, aboveRom, found, ?_, rfl, rfl⟩
    rw [BitVec.or_assoc]
    rfl

theorem loadOp_facts
    {family : CircuitFamily} {size : U32} {value : U32 → U32 → U32} {state state' : State C}
    {ram ram' : RamWithRomRegion romBits} {instr : Instruction} {events : List SnapshotEvent}
    (loaded : loadOp family size value state ram instr = some (state', ram', events)) :
    StepFacts state state' := by
  obtain ⟨_, _, _, _, _, _, rfl⟩ := loadOp_eq_some loaded
  exact .of_timestamp_eq rfl fun zero =>
    ((zero.readRegister 0 instr.rs1).writeRegister 2 instr.rd _)

theorem storeOp_facts
    {family : CircuitFamily} {size : U32} {newWord : U32 → U32 → U32 → Option U32}
    {state state' : State C} {ram ram' : RamWithRomRegion romBits} {instr : Instruction}
    {events : List SnapshotEvent}
    (stored : storeOp family size newWord state ram instr = some (state', ram', events)) :
    StepFacts state state' := by
  obtain ⟨_, _, _, _, _, _, _, _, _, rfl⟩ := storeOp_eq_some stored
  exact .of_timestamp_eq rfl fun zero =>
    ((zero.readRegister 0 instr.rs1).readRegister 1 instr.rs2)

/-! Delegations -/

variable {state state' : State C} {ram ram' : RamWithRomRegion romBits}
  {events : List SnapshotEvent}

omit [Counters C] in
private theorem facts_of_last
    {numCalls : Nat} {lastTimestamp : TimestampScalar}
    (last : checkedAdd state.timestamp (batchDuration numCalls) = some lastTimestamp)
    (moved : state'.timestamp = lastTimestamp) (zeroX0 : state.ZeroX0 → state'.ZeroX0) :
    StepFacts state state' := by
  have duration := batchDuration_mod numCalls
  have sum := checkedAdd_toNat last
  refine ⟨?_, ?_, zeroX0⟩
  · rw [moved]
    omega
  · rw [moved]
    omega

theorem blake2RoundFunctionCall_facts
    (call : blake2RoundFunctionCall state ram = some (state', ram', events)) :
    StepFacts state state' := by
  obtain ⟨_, _, _, _, spec⟩ := blake2RoundFunctionCall_eq_some call
  refine facts_of_last spec.last ?_ fun zero => ?_
  · rw [spec.state_eq]
    rfl
  · rw [spec.state_eq]
    simpa [State.ZeroX0, finishBatch, State.incrementFamilyCounterBy,
      Function.update_apply] using zero

theorem keccakSpecial5Call_facts
    (call : keccakSpecial5Call state ram = some (state', ram', events)) :
    StepFacts state state' := by
  obtain ⟨_, _, _, spec⟩ := keccakSpecial5Call_eq_some call
  refine facts_of_last spec.last ?_ fun zero => ?_
  · rw [spec.state_eq]
    rfl
  · rw [spec.state_eq]
    simpa [State.ZeroX0, finishBatch, State.incrementFamilyCounterBy,
      Function.update_apply] using zero

theorem bigintCall_facts [Ruint] (call : bigintCall state ram = some (state', ram', events)) :
    StepFacts state state' := by
  obtain ⟨_, flag, _, _, spec⟩ := bigintCall_eq_some call
  rw [spec.state_eq]
  exact .of_timestamp_eq rfl fun zero =>
    (((zero.touchX0 2).readRegister 3 10).readRegister 3 11).writeRegister 3 12 flag

theorem callDelegation_facts [Ruint] {instr : Instruction}
    (call : callDelegation state ram instr = some (state', ram', events)) :
    StepFacts state state' := by
  unfold callDelegation at call
  split_ifs at call
  · exact bigintCall_facts call
  · exact blake2RoundFunctionCall_facts call
  · exact keccakSpecial5Call_facts call

end Memory

/-! Non-determinism -/

section Zicsr

variable {ND : Type} [NonDeterminismCSRSource ND]

theorem ndRead_eq_some
    {state state' : State C} {nd nd' : ND} {instr : Instruction} {events : List SnapshotEvent}
    (read : Vm.ndRead state nd instr = some (state', nd', events)) :
    ∃ value,
      events = [.arbitraryValue value] ∧
        state' =
          ((state.touchX0 1).writeRegister 2 instr.rd value).defaultIncreasePc.incrementFamilyCounter
            .shiftBinaryCsr := by
  simp only [Vm.ndRead, Option.bind_eq_bind, Option.bind_eq_some_iff, Option.some.injEq,
    Prod.mk.injEq, Prod.exists] at read
  obtain ⟨value, _, _, rfl, _, rfl⟩ := read
  exact ⟨value, rfl, rfl⟩

theorem ndWrite_eq_some
    {romBits : Nat} {state state' : State C} {ram : RamWithRomRegion romBits} {nd nd' : ND}
    {instr : Instruction} (written : Vm.ndWrite state ram nd instr = some (state', nd')) :
    state' =
      let touched := (state.readRegister 0 instr.rs1).2.touchX0 1
      (touched.writeRegister 2 instr.rd 0).defaultIncreasePc.incrementFamilyCounter
        .shiftBinaryCsr := by
  simp only [Vm.ndWrite, Option.bind_eq_bind, Option.bind_eq_some_iff, Option.some.injEq,
    Prod.mk.injEq] at written
  obtain ⟨_, _, rfl, _⟩ := written
  rfl

end Zicsr

/-! ## Steps and cycles -/

section Machine

variable {romBits : Nat} {ND : Type} [NonDeterminismCSRSource ND] [Ruint]

theorem executeOpcode_facts
    {opcode : Opcode} {machine machine' : Machine C romBits ND} {instr : Instruction}
    {events : List SnapshotEvent}
    (executed : executeOpcode opcode machine instr = some (machine', events)) :
    StepFacts machine.state machine'.state := by
  cases opcode <;>
    simp only [executeOpcode, Machine.onState, Machine.onMemory, Option.map_eq_some_iff,
      Prod.mk.injEq, Prod.exists, exists_eq_left', Option.some.injEq] at executed
  case alu family op useImm =>
    obtain ⟨rfl, rfl⟩ := executed
    exact aluOp_facts family op useImm machine.state instr
  case lui =>
    obtain ⟨rfl, rfl⟩ := executed
    exact .of_timestamp_eq rfl fun zero => (zero.touchX0 1).writeRegister 2 instr.rd _
  case auipc =>
    obtain ⟨rfl, rfl⟩ := executed
    exact .of_timestamp_eq rfl fun zero => (zero.touchX0 1).writeRegister 2 instr.rd _
  case jal =>
    obtain ⟨state', jumped, rfl, rfl⟩ := executed
    exact jal_facts jumped
  case jalr =>
    obtain ⟨state', jumped, rfl, rfl⟩ := executed
    exact jalr_facts jumped
  case branch =>
    obtain ⟨state', branched, rfl, rfl⟩ := executed
    exact branch_facts branched
  case load family size value =>
    obtain ⟨state', ram', _, loaded, rfl, rfl⟩ := executed
    exact loadOp_facts loaded
  case store family size newWord =>
    obtain ⟨state', ram', _, stored, rfl, rfl⟩ := executed
    exact storeOp_facts stored
  case ndRead =>
    obtain ⟨state', nd', _, read, rfl, rfl⟩ := executed
    obtain ⟨value, _, rfl⟩ := ndRead_eq_some read
    exact .of_timestamp_eq rfl fun zero => (zero.touchX0 1).writeRegister 2 instr.rd value
  case ndWrite =>
    obtain ⟨state', nd', written, rfl, rfl⟩ := executed
    rw [ndWrite_eq_some written]
    exact .of_timestamp_eq rfl fun zero =>
      ((zero.readRegister 0 instr.rs1).touchX0 1).writeRegister 2 instr.rd 0
  case delegation =>
    obtain ⟨state', ram', _, call, rfl, rfl⟩ := executed
    exact callDelegation_facts call

theorem runStep_facts
    {tape : InstructionTape} {machine machine' : Machine C romBits ND}
    {events : List SnapshotEvent}
    (step : runStep tape machine = some (machine', events)) :
    StepFacts machine.state machine'.state := by
  obtain ⟨instr, opcode, _, _, executed⟩ := runStep_eq_some_iff.mp step
  exact executeOpcode_facts executed

/-- A cycle takes at least one timestamp step and keeps the other invariants. -/
theorem runCycle_facts
    {tape : InstructionTape} {machine machine' : Machine C romBits ND}
    {events : List SnapshotEvent}
    (cycle : runCycle tape machine = some (machine', events)) :
    machine.state.timestamp.toNat + 4 ≤ machine'.state.timestamp.toNat ∧
      machine'.state.timestamp.toNat % 4 = machine.state.timestamp.toNat % 4 ∧
      (machine.state.ZeroX0 → machine'.state.ZeroX0) := by
  obtain ⟨stepped, timestamp, step, added, rfl⟩ := runCycle_eq_some_iff.mp cycle
  have facts := runStep_facts step
  have sum : timestamp.toNat = stepped.state.timestamp.toNat + 4 := checkedAdd_toNat added
  have le := facts.timestamp_le
  have mod := facts.timestamp_mod
  refine ⟨?_, ?_, fun zero => (facts.zeroX0 zero).setTimestamp timestamp⟩
  · rw [State.setTimestamp_timestamp]
    omega
  · rw [State.setTimestamp_timestamp]
    omega

end Machine

end Execute

end Vm

end Airbender
