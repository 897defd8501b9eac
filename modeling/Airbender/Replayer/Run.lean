import Airbender.Replayer.Delegations
import Airbender.Vm.StepFacts

/-!
# The replay loop

`replay_by_timestamp_bound`: one handler after the other until the bound, or until the
program counter stays.
-/

namespace Airbender.Replayer

open Bigint

/-- What a replay reads and writes besides the tape. -/
structure Replay (C : Type) (romBits : Nat) (T : Type) where
  state : State C
  ram : ReplayerRam romBits
  tracer : T

variable {C : Type} {romBits : Nat} {T : Type} [WitnessTracer T] [Ruint]

namespace Replay

/-- A handler that works on the registers alone. -/
def onState (replay : Replay C romBits T) (result : State C × T) : Replay C romBits T where
  state := result.1
  ram := replay.ram
  tracer := result.2

/-- A handler that also takes entries of the log. -/
def onLog (result : Option (State C × ReplayerRam romBits × T)) : Option (Replay C romBits T) :=
  result.map fun (state, ram, tracer) => ⟨state, ram, tracer⟩

end Replay

/-- The `match` of the loop. -/
def execute (replay : Replay C romBits T) (instr : Instruction) : Option (Replay C romBits T) :=
  let state := replay.state
  let ram := replay.ram
  let tracer := replay.tracer
  match instr.name with
  | .illegal => none
  | .lui => some (replay.onState (lui state instr tracer))
  | .auipc => some (replay.onState (auipc state instr tracer))
  | .jal => some (replay.onState (jal state instr tracer))
  | .jalr => some (replay.onState (jalr state instr tracer))
  | .slt => some (replay.onState (slt false state instr tracer))
  | .slti => some (replay.onState (slt true state instr tracer))
  | .sltu => some (replay.onState (sltu false state instr tracer))
  | .sltiu => some (replay.onState (sltu true state instr tracer))
  | .branch => (branch state instr tracer).map replay.onState
  | .sw => Replay.onLog (sw state ram instr tracer)
  | .lw => Replay.onLog (lw state ram instr tracer)
  | .sh => Replay.onLog (sh state ram instr tracer)
  | .lhu => Replay.onLog (lh false state ram instr tracer)
  | .lh => Replay.onLog (lh true state ram instr tracer)
  | .sb => Replay.onLog (sb state ram instr tracer)
  | .lbu => Replay.onLog (lb false state ram instr tracer)
  | .lb => Replay.onLog (lb true state ram instr tracer)
  | .add => some (replay.onState (addOp false state instr tracer))
  | .addi => some (replay.onState (addOp true state instr tracer))
  | .sub => some (replay.onState (subOp state instr tracer))
  | .xor => some (replay.onState (xor false state instr tracer))
  | .xori => some (replay.onState (xor true state instr tracer))
  | .and => some (replay.onState (and false state instr tracer))
  | .andi => some (replay.onState (and true state instr tracer))
  | .or => some (replay.onState (or false state instr tracer))
  | .ori => some (replay.onState (or true state instr tracer))
  | .sll => some (replay.onState (sll false state instr tracer))
  | .slli => some (replay.onState (sll true state instr tracer))
  | .srl => some (replay.onState (srl false state instr tracer))
  | .srli => some (replay.onState (srl true state instr tracer))
  | .sra => some (replay.onState (sra false state instr tracer))
  | .srai => some (replay.onState (sra true state instr tracer))
  | .mul => some (replay.onState (mul state instr tracer))
  | .mulhu => some (replay.onState (mulhu state instr tracer))
  | .divu => some (replay.onState (divu state instr tracer))
  | .remu => some (replay.onState (remu state instr tracer))
  | .zimopAdd => some (replay.onState (mopAddmod state instr tracer))
  | .zimopSub => some (replay.onState (mopSubmod state instr tracer))
  | .zimopMul => some (replay.onState (mopMulmod state instr tracer))
  | .zicsrNonDeterminismRead => Replay.onLog (ndRead state ram instr tracer)
  | .zicsrNonDeterminismWrite => some (replay.onState (ndWrite state instr tracer))
  | .zicsrDelegation => Replay.onLog (callDelegation state ram instr tracer)
  | .mulh | .mulhsu | .div | .rem | .rol | .ror | .zicsrMarkerCsr | .formalEnd => none

/-! ## Handlers by shape -/

section Shapes

omit [Ruint]

/-- Word accesses use the address as it is, the others the word around it. -/
def accessAddress (size address : U32) : U32 :=
  if size = 4 then address else Vm.alignedAddress address

def loadOp (family : CircuitFamily) (size : U32) (value : U32 → U32 → U32) (state : State C)
    (ram : ReplayerRam romBits) (instr : Instruction) (tracer : T) :
    Option (State C × ReplayerRam romBits × T) :=
  let (rs1, state) := readRegisterWithTs 0 instr.rs1 state
  let address := rs1.1 + instr.imm
  finishLoad family (accessAddress size address) (value address) rs1 instr.rd state ram tracer

def storeOp (family : CircuitFamily) (size : U32) (newWord : U32 → U32 → U32 → Option U32)
    (state : State C) (ram : ReplayerRam romBits) (instr : Instruction) (tracer : T) :
    Option (State C × ReplayerRam romBits × T) := do
  let (rs1, state) := readRegisterWithTs 0 instr.rs1 state
  let (rs2, state) := readRegisterWithTs 1 instr.rs2 state
  let address := rs1.1 + instr.imm
  let existingValue ← ram.peekWord
  let word ← newWord address rs2.1 existingValue
  finishStore family (accessAddress size address) word rs1 rs2 state ram tracer

theorem sw_eq (state : State C) (ram : ReplayerRam romBits) (instr : Instruction) (tracer : T) :
    sw state ram instr tracer =
      storeOp .loadStoreWordOnly 4 (fun _ rs2Value _ => some rs2Value) state ram instr
        tracer := by
  rcases ram with ⟨log⟩
  cases log with
  | nil => rfl
  | cons slice rest => cases slice <;> rfl

theorem sh_eq (state : State C) (ram : ReplayerRam romBits) (instr : Instruction) (tracer : T) :
    sh state ram instr tracer =
      storeOp .loadStoreSubwordOnly 2 Vm.halfwordStored state ram instr tracer := by
  simp only [sh, storeOp, Vm.halfwordStored, Option.bind_eq_bind, Option.bind_map]
  rfl

theorem sb_eq (state : State C) (ram : ReplayerRam romBits) (instr : Instruction) (tracer : T) :
    sb state ram instr tracer =
      storeOp .loadStoreSubwordOnly 1 Vm.byteStored state ram instr tracer := by
  simp only [sb, storeOp, Vm.byteStored, Option.bind_eq_bind, Option.bind_map]
  rfl

end Shapes

open Vm in
/-- The handler of a shape; `none` is a name without handler. -/
def executeOpcode (opcode : Opcode) (replay : Replay C romBits T) (instr : Instruction) :
    Option (Replay C romBits T) :=
  let state := replay.state
  let ram := replay.ram
  let tracer := replay.tracer
  match opcode with
  | .alu family op useImm =>
      some (replay.onState (aluOp family op useImm state instr tracer))
  | .lui => some (replay.onState (Replayer.lui state instr tracer))
  | .auipc => some (replay.onState (Replayer.auipc state instr tracer))
  | .jal => some (replay.onState (Replayer.jal state instr tracer))
  | .jalr => some (replay.onState (Replayer.jalr state instr tracer))
  | .branch => (Replayer.branch state instr tracer).map replay.onState
  | .load family size value =>
      Replay.onLog (loadOp family size value state ram instr tracer)
  | .store family size newWord =>
      Replay.onLog (storeOp family size newWord state ram instr tracer)
  | .ndRead => Replay.onLog (Replayer.ndRead state ram instr tracer)
  | .ndWrite => some (replay.onState (Replayer.ndWrite state instr tracer))
  | .delegation => Replay.onLog (callDelegation state ram instr tracer)

/-- The replayer gives every name the shape the executor gives it. -/
theorem execute_eq (replay : Replay C romBits T) (instr : Instruction) :
    execute replay instr =
      (Vm.opcodeOf instr.name).bind fun opcode => executeOpcode opcode replay instr := by
  rcases instr with ⟨name, rs1, rs2, rd, imm⟩
  cases name
  case sw => exact congrArg Replay.onLog (sw_eq replay.state replay.ram _ replay.tracer)
  case sh => exact congrArg Replay.onLog (sh_eq replay.state replay.ram _ replay.tracer)
  case sb => exact congrArg Replay.onLog (sb_eq replay.state replay.ram _ replay.tracer)
  all_goals rfl

/-- One pass of the loop: an instruction of the tape and the default timestamp step. -/
def replayCycle (tape : Vm.InstructionTape) (replay : Replay C romBits T) :
    Option (Replay C romBits T) := do
  let instr ← tape replay.state.pc
  let replay ← execute replay instr
  let state ← replay.state.advance timestampStep
  some { replay with state := state }

/-! ## Time -/

section Time

omit [WitnessTracer T] [Ruint] in
theorem finishLoad_timestamp [WitnessTracer T] {family : CircuitFamily} {address : U32}
    {value : U32 → U32} {rs1 : U32 × TimestampScalar} {rd : RegisterIndex} {state : State C}
    {ram : ReplayerRam romBits} {tracer : T} {result : State C × ReplayerRam romBits × T}
    (finished : finishLoad family address value rs1 rd state ram tracer = some result) :
    result.1.timestamp = state.timestamp := by
  simp only [finishLoad, Option.bind_eq_bind, Option.bind_eq_some_iff, Option.some.injEq]
    at finished
  rcases finished with ⟨_, _, rfl⟩
  rfl

omit [Ruint] in
theorem finishStore_timestamp {family : CircuitFamily} {address newValue : U32}
    {rs1 rs2 : U32 × TimestampScalar} {state : State C} {ram : ReplayerRam romBits}
    {tracer : T} {result : State C × ReplayerRam romBits × T}
    (finished : finishStore family address newValue rs1 rs2 state ram tracer = some result) :
    result.1.timestamp = state.timestamp := by
  simp only [finishStore, Option.bind_eq_bind, Option.bind_eq_some_iff, Option.some.injEq]
    at finished
  rcases finished with ⟨_, _, rfl⟩
  rfl

omit [WitnessTracer T] [Ruint] in
theorem advance_timestamp {amount : TimestampScalar} {state state' : State C}
    (advanced : state.advance amount = some state') :
    state.timestamp.toNat ≤ state'.timestamp.toNat := by
  simp only [State.advance, Option.bind_eq_bind, Option.bind_eq_some_iff,
    Option.some.injEq] at advanced
  rcases advanced with ⟨timestamp, added, rfl⟩
  have sum := Vm.checkedAdd_toNat added
  rw [State.setTimestamp_timestamp]
  omega

omit [Ruint] in
theorem delegationCycles_timestamp {csr : BitVec 16} {count : Nat} {state : State C}
    {tracer : T} {result : State C × T}
    (cycles : delegationCycles csr count state tracer = some result) :
    state.timestamp.toNat ≤ result.1.timestamp.toNat := by
  induction count generalizing state tracer with
  | zero =>
      rw [delegationCycles, Option.some.injEq] at cycles
      rw [← cycles]
  | succ remaining inductionHypothesis =>
      simp only [delegationCycles, Option.bind_eq_bind, Option.bind_eq_some_iff] at cycles
      rcases cycles with ⟨next, moved, rest⟩
      have later := inductionHypothesis rest
      have start : (delegationCycle csr state tracer).1.timestamp = state.timestamp := rfl
      rw [stepUnlessLast] at moved
      split at moved
      · rw [Option.some.injEq] at moved
        rw [← moved, start] at later
        exact later
      · have advanced := advance_timestamp moved
        rw [start] at advanced
        exact advanced.trans later

omit [Ruint] in
theorem cyclesOrSkip_timestamp {needsCycleData : Bool} {csr : BitVec 16} {numCalls : Nat}
    {state : State C} {tracer : T} {result : State C × T}
    (cycles : cyclesOrSkip needsCycleData csr numCalls state tracer = some result) :
    state.timestamp.toNat ≤ result.1.timestamp.toNat := by
  rw [cyclesOrSkip] at cycles
  split at cycles
  · exact delegationCycles_timestamp cycles
  · simp only [skipCycles, Option.map_eq_some_iff, Option.bind_eq_bind,
      Option.bind_eq_some_iff, Option.some.injEq] at cycles
    rcases cycles with ⟨_, ⟨advanced, moved, rfl⟩, rfl⟩
    have later := advance_timestamp moved
    exact later

theorem bigintCall_timestamp {state : State C} {ram : ReplayerRam romBits} {tracer : T}
    {result : State C × ReplayerRam romBits × T}
    (call : bigintCall state ram tracer = some result) :
    result.1.timestamp = state.timestamp := by
  have cycled (needsCycleData : Bool) :
      (cycleOrSkip needsCycleData bigintCsr state tracer).1.timestamp = state.timestamp := by
    cases needsCycleData <;> rfl
  simp only [bigintCall] at call
  split at call
  · simp only [bigintDelegation, Option.bind_eq_bind, Option.bind_eq_some_iff,
      Option.guard_eq_some', exists_const, Option.some.injEq] at call
    rcases call with ⟨_, _, _, _, _, _, _, _, _, _, rfl⟩
    exact cycled _
  · simp only [skipBigint, Option.map_eq_some_iff, Option.bind_eq_bind,
      Option.bind_eq_some_iff, Option.guard_eq_some', exists_const, Option.some.injEq] at call
    rcases call with ⟨_, ⟨_, _, _, _, _, rfl⟩, rfl⟩
    exact cycled _

omit [Ruint] in
theorem blake2RoundFunctionCall_timestamp {state : State C} {ram : ReplayerRam romBits}
    {tracer : T} {result : State C × ReplayerRam romBits × T}
    (call : blake2RoundFunctionCall state ram tracer = some result) :
    state.timestamp.toNat ≤ result.1.timestamp.toNat := by
  simp only [blake2RoundFunctionCall, Option.bind_eq_bind, Option.bind_eq_some_iff,
    Option.guard_eq_some', exists_const] at call
  rcases call with ⟨_, _, _, _, _, _, cycled, cycles, call⟩
  have later := cyclesOrSkip_timestamp cycles
  split at call
  · simp only [blakeDelegations, Option.bind_eq_bind, Option.bind_eq_some_iff,
      Option.guard_eq_some', exists_const, Option.some.injEq] at call
    rcases call with ⟨_, _, _, _, _, rfl⟩
    exact later
  · simp only [Option.bind_eq_some_iff, Option.some.injEq] at call
    rcases call with ⟨_, _, rfl⟩
    exact later

omit [Ruint] in
theorem keccakSpecial5Call_timestamp {state : State C} {ram : ReplayerRam romBits}
    {tracer : T} {result : State C × ReplayerRam romBits × T}
    (call : keccakSpecial5Call state ram tracer = some result) :
    state.timestamp.toNat ≤ result.1.timestamp.toNat := by
  simp only [keccakSpecial5Call, Option.bind_eq_bind, Option.bind_eq_some_iff,
    Option.guard_eq_some', exists_const] at call
  rcases call with ⟨_, _, _, _, cycled, cycles, _, _, _, call⟩
  have later := cyclesOrSkip_timestamp cycles
  split at call
  · simp only [keccakDelegations, Option.bind_eq_bind, Option.bind_eq_some_iff,
      Option.guard_eq_some', exists_const, Option.some.injEq] at call
    rcases call with ⟨_, _, _, _, _, rfl⟩
    exact later
  · simp only [Option.bind_eq_some_iff, Option.some.injEq] at call
    rcases call with ⟨_, _, rfl⟩
    exact later

theorem callDelegation_timestamp {state : State C} {ram : ReplayerRam romBits}
    {instr : Instruction} {tracer : T} {result : State C × ReplayerRam romBits × T}
    (call : callDelegation state ram instr tracer = some result) :
    state.timestamp.toNat ≤ result.1.timestamp.toNat := by
  rw [callDelegation] at call
  split_ifs at call
  · rw [bigintCall_timestamp call]
  · exact blake2RoundFunctionCall_timestamp call
  · exact keccakSpecial5Call_timestamp call

omit [WitnessTracer T] [Ruint] in
theorem onLog_eq_some {result : Option (State C × ReplayerRam romBits × T)}
    {replay' : Replay C romBits T} (logged : Replay.onLog result = some replay') :
    ∃ state ram tracer,
      result = some (state, ram, tracer) ∧ replay' = ⟨state, ram, tracer⟩ := by
  rcases Option.map_eq_some_iff.mp logged with ⟨⟨state, ram, tracer⟩, found, rfl⟩
  exact ⟨state, ram, tracer, found, rfl⟩

omit [Ruint] in
theorem aluOp_timestamp (family : CircuitFamily) (op : U32 → U32 → U32) (useImm : Bool)
    (state : State C) (instr : Instruction) (tracer : T) :
    (aluOp family op useImm state instr tracer).1.timestamp = state.timestamp := by
  cases useImm <;> rfl

/-- No handler goes back in time. -/
theorem executeOpcode_timestamp {opcode : Vm.Opcode} {replay replay' : Replay C romBits T}
    {instr : Instruction} (executed : executeOpcode opcode replay instr = some replay') :
    replay.state.timestamp.toNat ≤ replay'.state.timestamp.toNat := by
  cases opcode <;> simp only [executeOpcode, Option.some.injEq] at executed
  case alu family op useImm =>
    have sameTime := aluOp_timestamp family op useImm replay.state instr replay.tracer
    rw [← executed, Replay.onState, sameTime]
  case branch =>
    simp only [branch, Option.map_eq_some_iff, Option.bind_eq_bind, Option.bind_eq_some_iff,
      Option.some.injEq] at executed
    rcases executed with ⟨_, ⟨_, _, rfl⟩, rfl⟩
    exact le_refl _
  case load family size value =>
    rcases onLog_eq_some executed with ⟨state, ram, tracer, loaded, rfl⟩
    have finished := finishLoad_timestamp loaded
    exact (congrArg BitVec.toNat finished).ge
  case store family size newWord =>
    rcases onLog_eq_some executed with ⟨state, ram, tracer, stored, rfl⟩
    simp only [storeOp, Option.bind_eq_bind, Option.bind_eq_some_iff] at stored
    rcases stored with ⟨_, _, _, _, stored⟩
    have finished := finishStore_timestamp stored
    exact (congrArg BitVec.toNat finished).ge
  case ndRead =>
    rcases onLog_eq_some executed with ⟨state, ram, tracer, read, rfl⟩
    simp only [ndRead, Option.bind_eq_bind, Option.bind_eq_some_iff, Option.guard_eq_some',
      exists_const, Option.some.injEq, Prod.mk.injEq] at read
    rcases read with ⟨_, _, _, rfl, _, _⟩
    exact le_refl _
  case delegation =>
    rcases onLog_eq_some executed with ⟨state, ram, tracer, call, rfl⟩
    have later := callDelegation_timestamp call
    exact later
  all_goals
    rw [← executed]
    exact le_refl _

theorem replayCycle_timestamp {tape : Vm.InstructionTape} {replay replay' : Replay C romBits T}
    (cycle : replayCycle tape replay = some replay') :
    replay.state.timestamp.toNat < replay'.state.timestamp.toNat := by
  simp only [replayCycle, State.advance, Option.bind_eq_bind, Option.bind_eq_some_iff,
    Option.some.injEq] at cycle
  rcases cycle with ⟨instr, _, executed, execution, _, ⟨timestamp, added, rfl⟩, rfl⟩
  rw [execute_eq, Option.bind_eq_some_iff] at execution
  rcases execution with ⟨opcode, _, handled⟩
  have later := executeOpcode_timestamp handled
  have sum : timestamp.toNat = executed.state.timestamp.toNat + 4 := Vm.checkedAdd_toNat added
  rw [State.setTimestamp_timestamp]
  omega

end Time

/-! ## The loop -/

/-- Every pass moves the time forward, so the loop ends. -/
def replayByTimestampBound (tape : Vm.InstructionTape) (timestampBound : TimestampScalar)
    (replay : Replay C romBits T) : Option (Replay C romBits T) :=
  if replay.state.timestamp < timestampBound then
    match _pass : replayCycle tape replay with
    | none => none
    | some replay' =>
        if replay'.state.pc = replay.state.pc then
          some replay'
        else
          replayByTimestampBound tape timestampBound replay'
  else
    some replay
termination_by timestampBound.toNat - replay.state.timestamp.toNat
decreasing_by
  have later := replayCycle_timestamp _pass
  have early : replay.state.timestamp.toNat < timestampBound.toNat :=
    BitVec.lt_def.mp ‹replay.state.timestamp < timestampBound›
  omega

theorem replayByTimestampBound_of_early {tape : Vm.InstructionTape}
    {timestampBound : TimestampScalar} {replay replay' : Replay C romBits T}
    (early : replay.state.timestamp < timestampBound)
    (cycle : replayCycle tape replay = some replay') :
    replayByTimestampBound tape timestampBound replay =
      if replay'.state.pc = replay.state.pc then
        some replay'
      else
        replayByTimestampBound tape timestampBound replay' := by
  rw [replayByTimestampBound, if_pos early]
  split
  · next failed =>
      rw [failed] at cycle
      cases cycle
  · next passed =>
      rw [passed, Option.some.injEq] at cycle
      rw [cycle]

theorem replayByTimestampBound_of_late {tape : Vm.InstructionTape}
    {timestampBound : TimestampScalar} {replay : Replay C romBits T}
    (late : ¬ replay.state.timestamp < timestampBound) :
    replayByTimestampBound tape timestampBound replay = some replay := by
  rw [replayByTimestampBound, if_neg late]

end Airbender.Replayer
