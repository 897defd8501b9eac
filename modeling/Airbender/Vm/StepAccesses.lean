import Airbender.Vm.StepFacts

/-!
# The RAM accesses of a step

Each step performs a list of accesses and reports exactly these.  All of them fall
into the time of the step.  They are to distinct words, except in a Blake2s call whose
input window starts inside its state window.
-/

namespace Airbender.Vm

open Bigint OfflineMemory

/-! ## Windows -/

/-- Two blocks of words that do not meet name distinct slots. -/
theorem nodup_wordIdx_append
    {left right : U32} {leftCount rightCount : Nat}
    (leftAligned : left.toNat % 4 = 0) (leftFits : left.toNat + 4 * leftCount ≤ 2 ^ 32)
    (rightAligned : right.toNat % 4 = 0) (rightFits : right.toNat + 4 * rightCount ≤ 2 ^ 32)
    (apart : left.toNat + 4 * leftCount ≤ right.toNat ∨
      right.toNat + 4 * rightCount ≤ left.toNat) :
    ((wordAddresses left leftCount ++ wordAddresses right rightCount).map wordIdx).Nodup := by
  have wordSize : (4 : U32).toNat = 4 := rfl
  have leftStart : wordIdx left = left.toNat / 4 := by
    rw [wordIdx, BitVec.toNat_udiv, wordSize]
  have rightStart : wordIdx right = right.toNat / 4 := by
    rw [wordIdx, BitVec.toNat_udiv, wordSize]
  rw [List.map_append, List.nodup_append']
  refine ⟨nodup_wordIdx leftAligned leftFits, nodup_wordIdx rightAligned rightFits, ?_⟩
  rw [wordIdx_wordAddresses leftAligned leftFits, wordIdx_wordAddresses rightAligned rightFits]
  intro index inLeft inRight
  rw [List.mem_range'_1] at inLeft inRight
  omega

/-- The input window of a Blake2s call does not start inside its state window. -/
def WindowsApart {C : Type} (instr : Instruction) (state : State C) : Prop :=
  instr.name = .zicsrDelegation → instr.imm = DelegationType.blake.code →
    (state.registers 11).value ≠ (state.registers 10).value + 64

section Calls

variable {C : Type} [Counters C] {romBits : Nat} {state state' : State C}
  {ram ram' : RamWithRomRegion romBits} {events : List SnapshotEvent}

theorem BigintCall.nodup [Ruint] {result : U256} {flag : U32} {reads writes : List RamAccess}
    (call : BigintCall state ram state' ram' events result flag reads writes) :
    (((reads ++ writes).map RamAccess.address).map wordIdx).Nodup := by
  obtain ⟨x10Aligned, x10Fits⟩ :=
    toNat_of_aligned (show 32 ∣ 2 ^ 32 by decide) (by decide) call.x10_aligned
  obtain ⟨x11Aligned, x11Fits⟩ :=
    toNat_of_aligned (show 32 ∣ 2 ^ 32 by decide) (by decide) call.x11_aligned
  have distinct :
      (state.registers 10).value.toNat ≠ (state.registers 11).value.toNat :=
    fun same => call.pointers_ne (BitVec.eq_of_toNat_eq same)
  rw [List.map_append, call.reads_address, call.writes_address]
  apply nodup_wordIdx_append <;> omega

theorem BlakeCall.nodup
    {lastTimestamp registerTimestamp : TimestampScalar} {writes reads : List RamAccess}
    (call : BlakeCall state ram state' ram' events lastTimestamp registerTimestamp writes reads)
    (apart : (state.registers 11).value ≠ (state.registers 10).value + 64) :
    (((writes ++ reads).map RamAccess.address).map wordIdx).Nodup := by
  obtain ⟨x10Aligned, x10Fits⟩ :=
    toNat_of_aligned (show 128 ∣ 2 ^ 32 by decide) (by decide) call.x10_aligned
  obtain ⟨x11Aligned, x11Fits⟩ :=
    toNat_of_aligned (show 64 ∣ 2 ^ 32 by decide) (by decide) call.x11_aligned
  have distinct :
      (state.registers 10).value.toNat ≠ (state.registers 11).value.toNat :=
    fun same => call.pointers_ne (BitVec.eq_of_toNat_eq same)
  have halfBlock :
      ((state.registers 10).value + 64).toNat = (state.registers 10).value.toNat + 64 := by
    have offset : (64 : U32).toNat = 64 := rfl
    rw [BitVec.toNat_add, offset]
    omega
  have notInside :
      (state.registers 11).value.toNat ≠ (state.registers 10).value.toNat + 64 := by
    rw [← halfBlock]
    exact fun same => apart (BitVec.eq_of_toNat_eq same)
  rw [List.map_append, call.writes_address, call.reads_address]
  apply nodup_wordIdx_append <;> omega

theorem KeccakCall.nodup
    {lastTimestamp registerTimestamp : TimestampScalar} {writes : List RamAccess}
    (call : KeccakCall state ram state' ram' events lastTimestamp registerTimestamp writes) :
    ((writes.map RamAccess.address).map wordIdx).Nodup := by
  obtain ⟨aligned, fits⟩ :=
    toNat_of_aligned (show 256 ∣ 2 ^ 32 by decide) (by decide) call.x11_aligned
  rw [call.writes_address]
  exact nodup_wordIdx (by omega) (by omega)

/-- Every write of a Keccak batch is at the end of one of its cycles. -/
theorem KeccakCall.after_timestamp
    {lastTimestamp registerTimestamp : TimestampScalar} {writes : List RamAccess}
    (call : KeccakCall state ram state' ram' events lastTimestamp registerTimestamp writes)
    (aligned : state.timestamp.toNat % 4 = 0) {access : RamAccess} (member : access ∈ writes) :
    ∃ step < 649, access.after.timestamp.toNat = state.timestamp.toNat + 4 * step + 3 := by
  have inAfters : access.after ∈ writes.map RamAccess.after := List.mem_map_of_mem member
  rw [call.writes_after] at inAfters
  obtain ⟨pair, inPairs, written⟩ := List.mem_map.mp inAfters
  obtain ⟨i, _, inLane⟩ := List.mem_flatMap.mp inPairs
  have stamp : pair.2 = (state.timestamp ||| 3) + Keccak.finalTimestampOffsets.get i := by
    rcases List.mem_cons.mp inLane with rfl | inHigh
    · rfl
    · rw [List.mem_singleton.mp inHigh]
  obtain ⟨step, inRun, _, _, offset⟩ := Keccak.finalTimestampOffsets_getElem i
  have lastTime := checkedAdd_toNat call.last
  have registerTime := checkedAdd_toNat call.register
  have duration : (batchDuration numDelegationCallsForKeccakF1600).toNat = 2592 := rfl
  have three : (3 : TimestampScalar).toNat = 3 := rfl
  have bound := registerTimestamp.isLt
  refine ⟨step, inRun, ?_⟩
  rw [← written, stamp, offset, BitVec.toNat_add, or_offset_toNat aligned (by decide),
    Keccak.offset_toNat inRun, three]
  omega

end Calls

/-! ## Steps -/

section Step

variable {C : Type} [Counters C] {romBits : Nat} {ND : Type} [NonDeterminismCSRSource ND]
  [Ruint]

/-- What a step does to the RAM and what it reports. -/
structure StepAccesses (instr : Instruction) (machine machine' : Machine C romBits ND)
    (events : List SnapshotEvent) (accesses : List RamAccess) (values : List U32) : Prop where
  performs :
    Performs machine.ram.backing (accesses.map RamAccess.toAccess) machine'.ram.backing
  len_eq : machine'.ram.len = machine.ram.len
  events_eq : events = accesses.map RamAccess.event ++ values.map .arbitraryValue
  window :
    machine.state.timestamp.toNat % 4 = 0 → ∀ access ∈ accesses,
      machine.state.timestamp.toNat ≤ access.after.timestamp.toNat ∧
        access.after.timestamp.toNat < machine'.state.timestamp.toNat + 4
  nodup : WindowsApart instr machine.state →
    ((accesses.map RamAccess.address).map wordIdx).Nodup

omit [Counters C] [NonDeterminismCSRSource ND] [Ruint] in
theorem StepAccesses.of_ram_eq
    {instr : Instruction} {machine machine' : Machine C romBits ND}
    {events : List SnapshotEvent} {values : List U32}
    (sameRam : machine'.ram = machine.ram) (events_eq : events = values.map .arbitraryValue) :
    StepAccesses instr machine machine' events [] values where
  performs := congrArg RamWithRomRegion.backing sameRam
  len_eq := by rw [sameRam]
  events_eq := events_eq
  window := fun _ _ member => absurd member List.not_mem_nil
  nodup := fun _ => List.nodup_nil

omit [Counters C] [NonDeterminismCSRSource ND] [Ruint] in
/-- A load or a store: one access at a small offset. -/
theorem StepAccesses.single
    {instr : Instruction} {machine machine' : Machine C romBits ND}
    {events : List SnapshotEvent} (access : RamAccess) (offset : TimestampScalar)
    (small : offset.toNat < 4) (reported : events = [access.event])
    (found : machine.ram.backing (wordIdx access.address) = access.before)
    (ram_eq : machine'.ram = machine.ram.setSlot (wordIdx access.address) access.after)
    (stamp : access.after.timestamp = machine.state.timestamp ||| offset)
    (sameTime : machine'.state.timestamp = machine.state.timestamp) :
    StepAccesses instr machine machine' events [access] [] where
  performs := by
    rw [ram_eq]
    exact .singleton found
  len_eq := by
    rw [ram_eq, RamWithRomRegion.setSlot_len]
  events_eq := reported
  window := by
    intro aligned other member
    rw [List.mem_singleton.mp member, stamp, or_offset_toNat aligned small, sameTime]
    omega
  nodup := fun _ => List.nodup_singleton _

omit [NonDeterminismCSRSource ND] in
theorem callDelegation_accesses
    {instr : Instruction} (named : instr.name = .zicsrDelegation)
    {machine : Machine C romBits ND} {state' : State C} {ram' : RamWithRomRegion romBits}
    {events : List SnapshotEvent}
    (call : callDelegation machine.state machine.ram instr = some (state', ram', events)) :
    ∃ accesses values,
      StepAccesses instr machine { machine with state := state', ram := ram' } events accesses
        values := by
  have three : (3 : TimestampScalar).toNat = 3 := rfl
  unfold callDelegation at call
  split_ifs at call with isBigint isBlake isKeccak
  · obtain ⟨result, flag, reads, writes, spec⟩ := bigintCall_eq_some call
    refine ⟨reads ++ writes, [flag], spec.performs, spec.len_eq, spec.events_eq, ?_,
      fun _ => spec.nodup⟩
    intro aligned access member
    have sameTime : state'.timestamp = machine.state.timestamp := by
      rw [spec.state_eq]
      rfl
    have stamp : access.after.timestamp = machine.state.timestamp ||| 3 := by
      rcases List.mem_append.mp member with inReads | inWrites
      · rw [spec.reads_after access inReads]
      · have inAfters := List.mem_map_of_mem (f := RamAccess.after) inWrites
        rw [spec.writes_after] at inAfters
        obtain ⟨_, _, written⟩ := List.mem_map.mp inAfters
        rw [← written]
    rw [stamp, or_offset_toNat aligned (by decide), sameTime, three]
    omega
  · obtain ⟨lastTimestamp, registerTimestamp, writes, reads, spec⟩ :=
      blake2RoundFunctionCall_eq_some call
    refine ⟨writes ++ reads, [], spec.performs, spec.len_eq, ?_, ?_,
      fun apart => spec.nodup (apart named isBlake)⟩
    · rw [spec.events_eq, List.map_nil, List.append_nil]
    · intro aligned access member
      have lastTime : state'.timestamp = lastTimestamp := by
        rw [spec.state_eq]
        rfl
      have sum := checkedAdd_toNat spec.last
      have duration :=
        batchDuration_mod (Blake2s.numRounds (machine.state.registers 12).value)
      have stamp : access.after.timestamp = lastTimestamp ||| 3 := by
        rcases List.mem_append.mp member with inWrites | inReads
        · have inAfters := List.mem_map_of_mem (f := RamAccess.after) inWrites
          rw [spec.writes_after] at inAfters
          obtain ⟨_, _, written⟩ := List.mem_map.mp inAfters
          rw [← written]
        · rw [spec.reads_after access inReads]
      rw [stamp, or_offset_toNat (by omega) (by decide), lastTime, three]
      omega
  · obtain ⟨lastTimestamp, registerTimestamp, writes, spec⟩ := keccakSpecial5Call_eq_some call
    refine ⟨writes, [], spec.performs, spec.len_eq, ?_, ?_, fun _ => spec.nodup⟩
    · rw [spec.events_eq, List.map_nil, List.append_nil]
    · intro aligned access member
      have lastTime : state'.timestamp = lastTimestamp := by
        rw [spec.state_eq]
        rfl
      have sum := checkedAdd_toNat spec.last
      have duration : (batchDuration numDelegationCallsForKeccakF1600).toNat = 2592 := rfl
      obtain ⟨step, inRun, stamp⟩ := spec.after_timestamp aligned member
      rw [stamp, lastTime]
      omega

omit [Ruint] in
theorem opcodeOf_eq_delegation {name : InstructionName}
    (delegation : opcodeOf name = some .delegation) : name = .zicsrDelegation := by
  cases name <;> first | rfl | cases delegation

theorem executeOpcode_accesses
    {opcode : Opcode} {machine machine' : Machine C romBits ND} {instr : Instruction}
    {events : List SnapshotEvent} (named : opcodeOf instr.name = some opcode)
    (executed : executeOpcode opcode machine instr = some (machine', events)) :
    ∃ accesses values, StepAccesses instr machine machine' events accesses values := by
  cases opcode <;>
    simp only [executeOpcode, Machine.onState, Machine.onMemory, Option.map_eq_some_iff,
      Prod.mk.injEq, Prod.exists, exists_eq_left', Option.some.injEq] at executed
  case load family size value =>
    obtain ⟨state', ram', _, loaded, rfl, rfl⟩ := executed
    obtain ⟨readTimestamp, word, _, found, rfl, rfl, rfl⟩ := loadOp_eq_some loaded
    let access : RamAccess :=
      { address := alignedAddress ((machine.state.registers instr.rs1).value + instr.imm)
        before := ⟨readTimestamp, word⟩
        after := ⟨machine.state.timestamp ||| 1, word⟩ }
    exact ⟨[access], [], .single access 1 (by decide) rfl found rfl rfl rfl⟩
  case store family size newWord =>
    obtain ⟨state', ram', _, stored, rfl, rfl⟩ := executed
    obtain ⟨readTimestamp, oldValue, word, _, _, _, found, rfl, rfl, rfl⟩ :=
      storeOp_eq_some stored
    let access : RamAccess :=
      { address := alignedAddress ((machine.state.registers instr.rs1).value + instr.imm)
        before := ⟨readTimestamp, oldValue⟩
        after := ⟨machine.state.timestamp ||| 2, word⟩ }
    exact ⟨[access], [], .single access 2 (by decide) rfl found rfl rfl rfl⟩
  case ndRead =>
    obtain ⟨state', nd', _, read, rfl, rfl⟩ := executed
    obtain ⟨value, reported, _⟩ := ndRead_eq_some read
    exact ⟨[], [value], .of_ram_eq rfl reported⟩
  case ndWrite =>
    obtain ⟨state', nd', _, rfl, rfl⟩ := executed
    exact ⟨[], [], .of_ram_eq rfl rfl⟩
  case delegation =>
    obtain ⟨state', ram', _, call, rfl, rfl⟩ := executed
    exact callDelegation_accesses (opcodeOf_eq_delegation named) call
  case alu family op useImm =>
    obtain ⟨rfl, rfl⟩ := executed
    exact ⟨[], [], .of_ram_eq rfl rfl⟩
  case lui =>
    obtain ⟨rfl, rfl⟩ := executed
    exact ⟨[], [], .of_ram_eq rfl rfl⟩
  case auipc =>
    obtain ⟨rfl, rfl⟩ := executed
    exact ⟨[], [], .of_ram_eq rfl rfl⟩
  all_goals
    obtain ⟨state', _, rfl, rfl⟩ := executed
    exact ⟨[], [], .of_ram_eq rfl rfl⟩

end Step

end Airbender.Vm
