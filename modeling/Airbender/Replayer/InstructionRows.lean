import Airbender.Replayer.RowAccesses

/-!
# The rows of an instruction

Every handler other than a delegation call writes one row.  The row belongs to the circuit family
that the executor counts, and its accesses are what the executor does.
-/

namespace Airbender

/-! ## Families and times of rows -/

namespace TraceRow

/-- The circuit family of the row of a machine cycle. -/
def family : TraceRow → Option CircuitFamily
  | nonMemory family _ => some family
  | memory family _ => some family
  | delegation _ _ => none

/-- The type of the row of a delegation. -/
def delegationType : TraceRow → Option (BitVec 16)
  | nonMemory _ _ => none
  | memory _ _ => none
  | delegation delegationType _ => some delegationType

/-- The row of a delegation, whose accesses are at the end of a cycle. -/
def IsDelegation (delegationType : BitVec 16) (row : TraceRow) : Prop :=
  ∃ witness start,
    row = delegation delegationType witness ∧ witness.writeTimestamp = start ||| 3

theorem IsDelegation.family {delegationType : BitVec 16} {row : TraceRow}
    (isDelegation : row.IsDelegation delegationType) : row.family = none := by
  rcases isDelegation with ⟨witness, start, rfl, _⟩
  rfl

theorem IsDelegation.delegationType_eq {delegationType : BitVec 16} {row : TraceRow}
    (isDelegation : row.IsDelegation delegationType) :
    row.delegationType = some delegationType := by
  rcases isDelegation with ⟨witness, start, rfl, _⟩
  rfl

/-- The time of the row of a machine cycle. -/
def cycleTimestamp : TraceRow → Option TimestampData
  | nonMemory _ row => some row.cycleTimestamp
  | memory _ row => some row.cycleTimestamp
  | delegation _ _ => none

/-- The accesses of the row of a cycle are inside the cycle. -/
theorem ordered_of_cycle {tape : Vm.InstructionTape} {timestamp : TimestampScalar}
    (aligned : timestamp.toNat % 4 = 0) (fits : timestamp.toNat + 4 ≤ 2 ^ 48) (row : TraceRow)
    (isTime : row.cycleTimestamp = some (.fromScalar timestamp)) :
    OfflineMemory.Ordered cellTime timestamp.toNat (timestamp.toNat + 4) (row.accesses tape) := by
  cases row with
  | nonMemory _ row => exact row.ordered aligned fits (Option.some.inj isTime) _ _ _
  | memory _ row => exact row.ordered aligned fits (Option.some.inj isTime) _ _ _
  | delegation _ _ => cases isTime

end TraceRow

namespace DelegationType

def csr : DelegationType → BitVec 16
  | bigInt => Replayer.bigintCsr
  | blake => Replayer.blakeCsr
  | keccak => Replayer.keccakCsr

/-- The counter of a delegation. -/
def bump {C : Type} [Counters C] : DelegationType → Nat → C → C
  | bigInt => Counters.bumpBigint
  | blake => Counters.bumpBlake2RoundFunction
  | keccak => Counters.bumpKeccakSpecial5

end DelegationType

namespace Replayer

open Bigint OfflineMemory Vm

variable {C : Type} [Counters C]

/-- What the executor counts for the rows of a step. -/
inductive Counted (before after : C) (rows : List TraceRow) : Prop
  | single (row : TraceRow) (family : CircuitFamily) (isRow : rows = [row])
      (isFamily : row.family = some family)
      (counted : after = Counters.logMultipleCircuitFamilyCalls family 1 before)
  | batch (delegation : DelegationType) (calls : Nat) (cycles delegations : List TraceRow)
      (isRows : rows = cycles ++ delegations) (numCycles : cycles.length = calls)
      (numDelegations : delegations.length = calls)
      (areCycles : ∀ row ∈ cycles, row.family = some .shiftBinaryCsr ∧ row.delegationType = none)
      (areDelegations : ∀ row ∈ delegations, row.IsDelegation delegation.csr)
      (counted : after = Counters.logMultipleCircuitFamilyCalls .shiftBinaryCsr calls
        (delegation.bump calls before))

/-- The times of consecutive cycles. -/
def cycleTimes (start : TimestampScalar) (cycles : Nat) : List TimestampData :=
  (List.range cycles).map fun i => .fromScalar (start + BitVec.ofNat 64 (4 * i))

/-- The rows of a step: the executor counts them, and their cycles follow each other.  When the
windows of a call are `apart`, their accesses are what the step does to the registers and the RAM,
in the order of their times. -/
structure StepRows {romBits : Nat} (apart : Prop) (tape : InstructionTape) (state : State C)
    (ram : RamWithRomRegion romBits) (state' : State C) (ram' : RamWithRomRegion romBits)
    (rows : List TraceRow) : Prop where
  performs : apart → Performs (memoryOf state ram) (rows.flatMap (TraceRow.accesses tape))
    (memoryOf state' ram')
  ordered : apart → state.timestamp.toNat % 4 = 0 → state'.timestamp.toNat + 4 ≤ 2 ^ 48 →
    Ordered cellTime state.timestamp.toNat (state'.timestamp.toNat + 4)
      (rows.flatMap (TraceRow.accesses tape))
  counted : Counted state.counters state'.counters rows
  times : ∃ last, rows.filterMap TraceRow.cycleTimestamp = cycleTimes state.timestamp (last + 1) ∧
    state'.timestamp.toNat = state.timestamp.toNat + 4 * last

theorem StepRows.imp {romBits : Nat} {apart other : Prop} {tape : InstructionTape}
    {state state' : State C} {ram ram' : RamWithRomRegion romBits} {rows : List TraceRow}
    (written : StepRows apart tape state ram state' ram' rows) (implies : other → apart) :
    StepRows other tape state ram state' ram' rows where
  performs := fun isOther => written.performs (implies isOther)
  ordered := fun isOther => written.ordered (implies isOther)
  counted := written.counted
  times := written.times

/-- A step with one row. -/
theorem StepRows.single {romBits : Nat} {apart : Prop} {tape : InstructionTape}
    {state state' : State C} {ram ram' : RamWithRomRegion romBits} (row : TraceRow)
    (family : CircuitFamily) (isFamily : row.family = some family)
    (isTime : row.cycleTimestamp = some (.fromScalar state.timestamp))
    (sameTime : state'.timestamp = state.timestamp)
    (counted : state'.counters = Counters.logMultipleCircuitFamilyCalls family 1 state.counters)
    (performs : Performs (memoryOf state ram) (row.accesses tape) (memoryOf state' ram')) :
    StepRows apart tape state ram state' ram' [row] where
  performs := by
    intro _
    rw [List.flatMap_singleton]
    exact performs
  ordered := by
    intro _ aligned fits
    rw [sameTime] at fits ⊢
    rw [List.flatMap_singleton]
    exact row.ordered_of_cycle aligned fits isTime
  counted := .single row family rfl isFamily counted
  times := by
    refine ⟨0, ?_, ?_⟩
    · have start : state.timestamp + BitVec.ofNat 64 (4 * 0) = state.timestamp :=
        BitVec.add_zero _
      simp only [List.filterMap_cons, isTime, List.filterMap_nil, cycleTimes, Nat.zero_add,
        List.range_one, List.map_cons, List.map_nil, start]
    · rw [sameTime, Nat.mul_zero, Nat.add_zero]

/-! ## Registers of canonical instructions -/

section Registers

variable {tape : InstructionTape} {instr : Instruction} {pc : U32} {delegations : List U32}

theorem rowRegisters_eq (read : tape pc = some instr) {delegationType : BitVec 16}
    (notDelegation : delegationType ∉ [bigintCsr, blakeCsr, keccakCsr]) :
    rowRegisters tape pc delegationType =
      (instr.rs1, instr.rs2, if instr.name = .branch then 0 else instr.rd) := by
  rw [rowRegisters, if_neg (by simpa using notDelegation), read, Option.elim_some]

/-- The registers that a handler does not use are zero in a canonical instruction. -/
theorem canonical_registers {opcode : Opcode} (named : opcodeOf instr.name = some opcode)
    (canonical : instr.Canonical delegations) :
    match opcode with
    | .alu _ _ useImm => instr.name ≠ .branch ∧ (useImm = true → instr.rs2 = 0)
    | .lui | .auipc | .jal | .ndRead => instr.name ≠ .branch ∧ instr.rs1 = 0 ∧ instr.rs2 = 0
    | .jalr => instr.name ≠ .branch ∧ instr.rs2 = 0
    | .load _ _ _ => instr.name ≠ .branch
    | .store _ _ _ => instr.name ≠ .branch
    | .branch => instr.name = .branch
    | .ndWrite => instr.name ≠ .branch ∧ instr.rs2 = 0 ∧ instr.rd = 0
    | .delegation => instr.name = .zicsrDelegation := by
  rcases instr with ⟨name, rs1, rs2, rd, imm⟩
  cases name <;> simp only [opcodeOf, Option.some.injEq, reduceCtorEq] at named <;>
    subst named <;> simp_all [Instruction.Canonical]

end Registers

/-! ## Handlers without memory -/

section NonMemory

variable {romBits : Nat} {apart : Prop} {tape : InstructionTape} {state state' : State C}
  {ram : RamWithRomRegion romBits} {instr : Instruction}

/-- A step with the row of its instruction. -/
theorem stepRows_nonMemory (family : CircuitFamily)
    {row : NonMemoryOpcodeTracingDataWithTimestamp} (read : tape state.pc = some instr)
    (isPc : row.opcodeData.initialPc = state.pc)
    (isTime : row.cycleTimestamp = .fromScalar state.timestamp)
    (notDelegation : row.opcodeData.delegationType ∉ [bigintCsr, blakeCsr, keccakCsr])
    (performs : Performs (memoryOf state ram)
      (row.accesses instr.rs1 instr.rs2 (if instr.name = .branch then 0 else instr.rd))
      (memoryOf state' ram))
    (sameTime : state'.timestamp = state.timestamp)
    (counted : state'.counters =
      Counters.logMultipleCircuitFamilyCalls family 1 state.counters) :
    StepRows apart tape state ram state' ram [.nonMemory family row] := by
  apply StepRows.single (.nonMemory family row) family rfl (congrArg some isTime) sameTime counted
  rw [TraceRow.accesses, isPc, rowRegisters_eq read notDelegation]
  exact performs

theorem zero_notDelegation : (0 : BitVec 16) ∉ [bigintCsr, blakeCsr, keccakCsr] := by decide

theorem nonDeterminism_notDelegation :
    nonDeterminismCsr.setWidth 16 ∉ [bigintCsr, blakeCsr, keccakCsr] := by decide

variable (counters : C) (before : List TraceRow)

theorem aluOp_stepRows (family : CircuitFamily) (op : U32 → U32 → U32) (useImm : Bool)
    (read : tape state.pc = some instr) (notBranch : instr.name ≠ .branch)
    (immediate : useImm = true → instr.rs2 = 0) (zero : state.ZeroX0) :
    ∃ rows, aluOp family op useImm (state.withCounters counters) instr before =
        ((Vm.aluOp family op useImm state instr).withCounters counters, before ++ rows) ∧
      StepRows apart tape state ram (Vm.aluOp family op useImm state instr) ram rows := by
  cases useImm with
  | true =>
      refine ⟨_, rfl, stepRows_nonMemory family read rfl rfl zero_notDelegation ?_ rfl rfl⟩
      have touched := zero.readRegister 0 instr.rs1
      rw [if_neg notBranch, immediate rfl]
      refine @nonMemoryRow_performs C romBits ram state instr.rs1 0 instr.rd _ _ _ _ _ 0 rfl ?_ rfl
      exact Prod.ext touched.symm rfl
  | false =>
      refine ⟨_, rfl, stepRows_nonMemory family read rfl rfl zero_notDelegation ?_ rfl rfl⟩
      rw [if_neg notBranch]
      exact @nonMemoryRow_performs C romBits ram state instr.rs1 instr.rs2 instr.rd _ _ _ _ _ 0
        rfl rfl rfl

omit [Counters C] in
/-- The row of two accesses to `x0` and a write. -/
theorem touchRow_performs (zero : state.ZeroX0) (value newPc : U32) (delegationType : BitVec 16) :
    let touched := (touchX0WithTs 1 (touchX0WithTs 0 state).2).2
    Performs (memoryOf state ram)
      ((nonMemoryRow state (0, (touchX0WithTs 0 state).1)
        (0, (touchX0WithTs 1 (touchX0WithTs 0 state).2).1)
        (writeRegisterWithTs 2 instr.rd value touched).1 newPc delegationType).accesses 0 0
          instr.rd)
      (memoryOf (writeRegisterWithTs 2 instr.rd value touched).2 ram) := by
  have touched := zero.touchX0 0
  refine @nonMemoryRow_performs C romBits ram state 0 0 instr.rd value _ _ _ newPc delegationType
    ?_ ?_ rfl
  · exact Prod.ext zero.symm rfl
  · exact Prod.ext touched.symm rfl

theorem upperOp_stepRows (value : U32 → U32 → U32) (read : tape state.pc = some instr)
    (notBranch : instr.name ≠ .branch) (rs1 : instr.rs1 = 0) (rs2 : instr.rs2 = 0)
    (zero : state.ZeroX0) :
    let state' := ((state.touchX0 1).writeRegister 2 instr.rd
      (value state.pc instr.imm)).defaultIncreasePc.incrementFamilyCounter .addSubLuiAuipcMop
    ∃ rows, upperOp value (state.withCounters counters) instr before =
        (state'.withCounters counters, before ++ rows) ∧
      StepRows apart tape state ram state' ram rows := by
  intro state'
  have sameState : (upperOp value (state.withCounters counters) instr before).1 =
      state'.withCounters counters := upperOp_replays value state counters before
  refine ⟨_, Prod.ext sameState rfl,
    stepRows_nonMemory .addSubLuiAuipcMop read rfl rfl zero_notDelegation ?_ rfl rfl⟩
  have performs := @touchRow_performs C romBits state ram instr zero
    (value state.pc instr.imm) (state.pc + 4) 0
  have sameMemory : memoryOf state' ram =
      memoryOf (upperOp value (state.withCounters counters) instr before).1 ram := by
    rw [sameState]
    rfl
  rw [if_neg notBranch, rs1, rs2, sameMemory]
  exact performs

theorem jal_stepRows (jumped : Vm.jal state instr = some state')
    (read : tape state.pc = some instr) (notBranch : instr.name ≠ .branch)
    (rs1 : instr.rs1 = 0) (rs2 : instr.rs2 = 0) (zero : state.ZeroX0) :
    ∃ rows, jal (state.withCounters counters) instr before =
        (state'.withCounters counters, before ++ rows) ∧
      StepRows apart tape state ram state' ram rows := by
  have sameState := jal_replays jumped counters before
  simp only [Vm.jal, Option.bind_eq_bind, Option.bind_eq_some_iff, jumpTo_eq_some_iff,
    Option.some.injEq] at jumped
  rcases jumped with ⟨_, ⟨_, rfl⟩, rfl⟩
  refine ⟨_, Prod.ext sameState rfl,
    stepRows_nonMemory .jumpBranchSlt read rfl rfl zero_notDelegation ?_ rfl rfl⟩
  have performs := @touchRow_performs C romBits state ram instr zero (state.pc + 4)
    (state.pc + instr.imm) 0
  have sameMemory := congrArg (fun state => memoryOf state ram) sameState
  rw [if_neg notBranch, rs1, rs2]
  exact sameMemory ▸ performs

theorem jalr_stepRows (jumped : Vm.jalr state instr = some state')
    (read : tape state.pc = some instr) (notBranch : instr.name ≠ .branch)
    (rs2 : instr.rs2 = 0) (zero : state.ZeroX0) :
    ∃ rows, jalr (state.withCounters counters) instr before =
        (state'.withCounters counters, before ++ rows) ∧
      StepRows apart tape state ram state' ram rows := by
  have sameState := jalr_replays jumped counters before
  simp only [Vm.jalr, Option.bind_eq_bind, Option.bind_eq_some_iff, jumpTo_eq_some_iff,
    Option.some.injEq] at jumped
  rcases jumped with ⟨_, ⟨_, rfl⟩, rfl⟩
  refine ⟨_, Prod.ext sameState rfl,
    stepRows_nonMemory .jumpBranchSlt read rfl rfl zero_notDelegation ?_ rfl rfl⟩
  have touched := zero.readRegister 0 instr.rs1
  rw [if_neg notBranch, rs2]
  refine @nonMemoryRow_performs C romBits ram state instr.rs1 0 instr.rd (state.pc + 4) _ _ _ _ 0
    rfl ?_ rfl
  exact Prod.ext touched.symm rfl

theorem branch_stepRows (branched : Vm.branch state instr = some state')
    (read : tape state.pc = some instr) (isBranch : instr.name = .branch) :
    ∃ rows, branch (state.withCounters counters) instr before =
        some (state'.withCounters counters, before ++ rows) ∧
      StepRows apart tape state ram state' ram rows := by
  rcases branch_eq_some branched with ⟨shouldJump, taken, rfl⟩
  have first :
      (readRegisterWithTs 0 instr.rs1 (state.withCounters counters)).1.1 =
        (state.registers instr.rs1).value := rfl
  have second :
      (readRegisterWithTs 1 instr.rs2
        (readRegisterWithTs 0 instr.rs1 (state.withCounters counters)).2).1.1 =
          (state.registers instr.rs2).value :=
    State.readRegister_value 0 instr.rs1 instr.rs2 state
  simp only [branch, first, second, taken, Option.bind_eq_bind, Option.bind_some]
  refine ⟨_, rfl, stepRows_nonMemory .jumpBranchSlt read rfl rfl zero_notDelegation ?_ rfl rfl⟩
  rw [if_pos isBranch]
  exact @nonMemoryRow_performs C romBits ram state instr.rs1 instr.rs2 0 0 _ _ _ _ 0 rfl rfl rfl

variable {ND : Type} [NonDeterminismCSRSource ND] {nd nd' : ND} {events : List SnapshotEvent}
  {rest : List LogEntry}

theorem ndRead_stepRows (performed : Vm.ndRead state nd instr = some (state', nd', events))
    (read : tape state.pc = some instr) (notBranch : instr.name ≠ .branch)
    (rs1 : instr.rs1 = 0) (rs2 : instr.rs2 = 0) (zero : state.ZeroX0) :
    ∃ rows, ndRead (state.withCounters counters)
        (ReplayerRam.ofEntries (events.map SnapshotEvent.logEntry ++ rest) :
          ReplayerRam romBits) instr before =
        some (state'.withCounters counters, .ofEntries rest, before ++ rows) ∧
      StepRows apart tape state ram state' ram rows := by
  rcases ndRead_eq_some performed with ⟨value, rfl, rfl⟩
  have taken :
      (ReplayerRam.ofEntries
          ([SnapshotEvent.arbitraryValue value].map SnapshotEvent.logEntry ++ rest) :
        ReplayerRam romBits).readWord = some ((0, value), .ofEntries rest) :=
    ReplayerRam.readWord_arbitraryValue value rest
  have touched := touchX0_touchX0 0 1 (state.withCounters counters)
  have start :
      (touchX0WithTs 1 (touchX0WithTs 0 (state.withCounters counters)).2).2 =
        (state.withCounters counters).touchX0 1 := touched
  have performs := @touchRow_performs C romBits state ram instr zero value (state.pc + 4)
    (nonDeterminismCsr.setWidth 16)
  have sameState : (touchX0WithTs 1 (touchX0WithTs 0 state).2).2 = state.touchX0 1 :=
    touchX0_touchX0 0 1 state
  simp only [ndRead, taken, start, Option.bind_eq_bind, Option.bind_some, guard_true]
  refine ⟨_, rfl,
    stepRows_nonMemory .shiftBinaryCsr read rfl rfl nonDeterminism_notDelegation ?_ rfl rfl⟩
  rw [if_neg notBranch, rs1, rs2]
  simp only [sameState] at performs
  exact performs

theorem ndWrite_stepRows (performed : Vm.ndWrite state ram nd instr = some (state', nd'))
    (read : tape state.pc = some instr) (notBranch : instr.name ≠ .branch)
    (rs2 : instr.rs2 = 0) (rd : instr.rd = 0) (zero : state.ZeroX0) :
    ∃ rows, ndWrite (state.withCounters counters) instr before =
        (state'.withCounters counters, before ++ rows) ∧
      StepRows apart tape state ram state' ram rows := by
  have sameState := ndWrite_replays performed rd zero counters before
  have first := (zero.readRegister 0 instr.rs1)
  have second := first.touchX0 1
  rw [ndWrite_eq_some performed] at sameState ⊢
  refine ⟨_, Prod.ext sameState rfl,
    stepRows_nonMemory .shiftBinaryCsr read rfl rfl nonDeterminism_notDelegation ?_ rfl rfl⟩
  rw [if_neg notBranch, rs2, rd]
  refine @nonMemoryRow_performs C romBits ram state instr.rs1 0 0 0 _ _ _ _ _ rfl ?_ ?_
  · exact Prod.ext first.symm rfl
  · exact Prod.ext rfl (Prod.ext second.symm rfl)

end NonMemory

/-! ## Loads and stores -/

section Memory

variable {romBits : Nat} {apart : Prop} {tape : InstructionTape} {state state' : State C}
  {ram ram' : RamWithRomRegion romBits} {instr : Instruction} {events : List SnapshotEvent}
  {rest : List LogEntry}

theorem wordIdx_accessAddress (size address : U32) :
    wordIdx (accessAddress size address) = wordIdx address := by
  rw [accessAddress]
  split
  · rfl
  · exact wordIdx_alignedAddress address

/-- A step with the row of its load or store. -/
theorem stepRows_memory (family : CircuitFamily) {row : MemoryOpcodeTracingDataWithTimestamp}
    (read : tape state.pc = some instr) (isPc : row.initialPc = state.pc)
    (isTime : row.cycleTimestamp = .fromScalar state.timestamp)
    (performs : Performs (memoryOf state ram)
      (row.accesses instr.rs1 instr.rs2 (if instr.name = .branch then 0 else instr.rd))
      (memoryOf state' ram'))
    (sameTime : state'.timestamp = state.timestamp)
    (counted : state'.counters =
      Counters.logMultipleCircuitFamilyCalls family 1 state.counters) :
    StepRows apart tape state ram state' ram' [.memory family row] := by
  apply StepRows.single (.memory family row) family rfl (congrArg some isTime) sameTime counted
  rw [TraceRow.accesses, isPc, rowRegisters_eq read zero_notDelegation]
  exact performs

theorem loadOp_stepRows {family : CircuitFamily} {size : U32} {value : U32 → U32 → U32}
    (loaded : Vm.loadOp family size value state ram instr = some (state', ram', events))
    (read : tape state.pc = some instr) (notBranch : instr.name ≠ .branch) (counters : C)
    (before : List TraceRow) :
    ∃ rows, loadOp family size value (state.withCounters counters)
        (ReplayerRam.ofEntries (events.map SnapshotEvent.logEntry ++ rest) :
          ReplayerRam romBits) instr before =
        some (state'.withCounters counters, .ofEntries rest, before ++ rows) ∧
      StepRows apart tape state ram state' ram' rows := by
  rcases loadOp_eq_some loaded with ⟨readTimestamp, word, _, found, rfl, rfl, rfl⟩
  let address := (state.registers instr.rs1).value + instr.imm
  let access : RamAccess :=
    ⟨alignedAddress address, ⟨readTimestamp, word⟩, ⟨state.timestamp ||| 1, word⟩⟩
  have taken :
      (ReplayerRam.ofEntries (access.event.logEntry :: rest) : ReplayerRam romBits).readWord =
        some ((readTimestamp, word), .ofEntries rest) :=
    ReplayerRam.readWord_event access rest
  have entries :
      List.map SnapshotEvent.logEntry
          [.memoryRead (alignedAddress address) word readTimestamp (state.timestamp ||| 1)] ++
        rest = access.event.logEntry :: rest := rfl
  have slot : wordIdx (alignedAddress address) = wordIdx (accessAddress size address) := by
    rw [wordIdx_alignedAddress, wordIdx_accessAddress]
  rw [entries]
  simp only [loadOp, finishLoad, taken, Option.bind_eq_bind, Option.bind_some]
  refine ⟨_, rfl, stepRows_memory family read rfl rfl ?_ rfl rfl⟩
  rw [if_neg notBranch]
  simp only [MemoryOpcodeTracingDataWithTimestamp.accesses, TimestampData.plusOffset_fromScalar]
  change ram.backing (wordIdx (alignedAddress address)) = _ at found
  change Performs _ _ (memoryOf _ (ram.setSlot (wordIdx (alignedAddress address)) _))
  rw [slot] at found ⊢
  apply performs_read
  apply performs_wordRead found
  apply performs_write
  exact .refl _

theorem storeOp_stepRows {family : CircuitFamily} {size : U32}
    {newWord : U32 → U32 → U32 → Option U32}
    (stored : Vm.storeOp family size newWord state ram instr = some (state', ram', events))
    (read : tape state.pc = some instr) (counters : C) (before : List TraceRow) :
    ∃ rows, storeOp family size newWord (state.withCounters counters)
        (ReplayerRam.ofEntries (events.map SnapshotEvent.logEntry ++ rest) :
          ReplayerRam romBits) instr before =
        some (state'.withCounters counters, .ofEntries rest, before ++ rows) ∧
      StepRows apart tape state ram state' ram' rows := by
  rcases storeOp_eq_some stored with
    ⟨readTimestamp, oldValue, word, computed, _, aboveRom, found, rfl, rfl, rfl⟩
  let address := (state.registers instr.rs1).value + instr.imm
  let access : RamAccess :=
    ⟨alignedAddress address, ⟨readTimestamp, oldValue⟩, ⟨state.timestamp ||| 2, word⟩⟩
  have peeked :
      (ReplayerRam.ofEntries (access.event.logEntry :: rest) : ReplayerRam romBits).peekWord =
        some oldValue :=
    ReplayerRam.peekWord_event access rest
  have taken :
      (ReplayerRam.ofEntries (access.event.logEntry :: rest) : ReplayerRam romBits).readWord =
        some ((readTimestamp, oldValue), .ofEntries rest) :=
    ReplayerRam.readWord_event access rest
  have first :
      (readRegisterWithTs 0 instr.rs1 (state.withCounters counters)).1.1 =
        (state.registers instr.rs1).value := rfl
  have second :
      (readRegisterWithTs 1 instr.rs2
        (readRegisterWithTs 0 instr.rs1 (state.withCounters counters)).2).1.1 =
          (state.registers instr.rs2).value :=
    State.readRegister_value 0 instr.rs1 instr.rs2 state
  have entries :
      List.map SnapshotEvent.logEntry
          [.memoryRead (alignedAddress address) oldValue readTimestamp
            (state.timestamp ||| 2)] ++ rest = access.event.logEntry :: rest := rfl
  have slot : wordIdx (alignedAddress address) = wordIdx (accessAddress size address) := by
    rw [wordIdx_alignedAddress, wordIdx_accessAddress]
  rw [entries]
  simp only [storeOp, peeked, first, second, computed, finishStore, taken, Option.bind_eq_bind,
    Option.bind_some]
  refine ⟨_, rfl, stepRows_memory family read rfl rfl ?_ rfl rfl⟩
  simp only [MemoryOpcodeTracingDataWithTimestamp.accesses, TimestampData.plusOffset_fromScalar]
  change romWords romBits ≤ wordIdx (alignedAddress address) at aboveRom
  change ram.backing (wordIdx (alignedAddress address)) = _ at found
  change Performs _ _ (memoryOf _ (ram.setSlot (wordIdx (alignedAddress address)) _))
  rw [slot] at aboveRom found ⊢
  apply performs_read
  rw [← second]
  apply performs_read
  apply performs_wordWrite aboveRom found
  exact .refl _

end Memory

end Replayer

end Airbender
