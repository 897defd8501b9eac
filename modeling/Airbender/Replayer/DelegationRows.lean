import Airbender.Replayer.InstructionRows

/-!
# The rows of a delegation call

A call writes a row for every machine cycle of its batch and a row for every single delegation.
The accesses of the cycles are to `x0`, those of the delegations to their registers and to the
words at their pointers.
-/

namespace Airbender.Replayer

open Bigint OfflineMemory Vm

variable {C : Type} {romBits : Nat} {tape : InstructionTape}

/-! ## Machine cycles -/

section Cycles

variable {state : State C} {ram : RamWithRomRegion romBits} {csr : BitVec 16}

/-- The rows of the cycles of a batch. -/
structure CycleRows (tape : InstructionTape) (state : State C) (ram : RamWithRomRegion romBits)
    (state' : State C) (numCalls : Nat) (rows : List TraceRow) : Prop where
  performs : Performs (memoryOf state ram) (rows.flatMap (TraceRow.accesses tape))
    (memoryOf state' ram)
  length : rows.length = numCalls
  areCycles : ∀ row ∈ rows, row.family = some .shiftBinaryCsr ∧ row.delegationType = none
  times : rows.filterMap TraceRow.cycleTimestamp = cycleTimes state.timestamp numCalls
  ordered : state.timestamp.toNat % 4 = 0 → state.timestamp.toNat + 4 * numCalls ≤ 2 ^ 48 →
    Ordered cellTime state.timestamp.toNat (state.timestamp.toNat + 4 * numCalls)
      (rows.flatMap (TraceRow.accesses tape))
  cells : ∀ access ∈ rows.flatMap (TraceRow.accesses tape), access.cell = .register 0

/-- The row of one cycle. -/
def cycleRow (csr : BitVec 16) (state : State C) : TraceRow :=
  .nonMemory .shiftBinaryCsr
    (nonMemoryRow state (0, (state.registers 0).timestamp) (0, state.timestamp)
      (0, 0, state.timestamp ||| 1) (state.pc + 4) csr)

/-- The three accesses of a cycle are to `x0`. -/
theorem cycleRow_accesses (isDelegation : csr ∈ [bigintCsr, blakeCsr, keccakCsr]) :
    (cycleRow csr state).accesses tape =
      (nonMemoryRow state (0, (state.registers 0).timestamp) (0, state.timestamp)
        (0, 0, state.timestamp ||| 1) (state.pc + 4) csr).accesses 0 0 0 := by
  let row := nonMemoryRow state (0, (state.registers 0).timestamp) (0, state.timestamp)
    (0, 0, state.timestamp ||| 1) (state.pc + 4) csr
  have registers : rowRegisters tape state.pc csr = (0, 0, 0) :=
    if_pos (by simpa using isDelegation)
  exact congrArg (fun indices : RegisterIndex × RegisterIndex × RegisterIndex =>
    row.accesses indices.1 indices.2.1 indices.2.2) registers

theorem cycleRow_cells (isDelegation : csr ∈ [bigintCsr, blakeCsr, keccakCsr])
    {access : MemoryAccess} (member : access ∈ (cycleRow csr state).accesses tape) :
    access.cell = .register 0 := by
  rw [cycleRow_accesses isDelegation] at member
  simp only [NonMemoryOpcodeTracingDataWithTimestamp.accesses, List.mem_cons, List.not_mem_nil,
    or_false] at member
  rcases member with rfl | rfl | rfl <;> rfl

/-- They keep its zero. -/
theorem cycleRow_performs (isDelegation : csr ∈ [bigintCsr, blakeCsr, keccakCsr])
    (zero : state.ZeroX0) :
    Performs (memoryOf state ram) ((cycleRow csr state).accesses tape)
      (memoryOf (state.touchX0 2) ram) := by
  have first := zero.readRegister 0 0
  have second := first.readRegister 1 0
  have start : state.timestamp ||| 0 = state.timestamp := BitVec.or_zero
  have performs := @nonMemoryRow_performs C romBits ram state 0 0 0 0
    (0, (state.registers 0).timestamp) (0, state.timestamp) (0, 0, state.timestamp ||| 1)
    (state.pc + 4) csr (Prod.ext zero.symm rfl)
    (Prod.ext first.symm start.symm) (Prod.ext rfl (Prod.ext second.symm rfl))
  have target :
      (writeRegisterWithTs 2 0 0 (readRegisterWithTs 1 0
        (readRegisterWithTs 0 0 state).2).2).2.registers = (state.touchX0 2).registers := by
    funext index
    by_cases isZero : index = 0
    · subst isZero
      exact congrArg (Register.mk (state.timestamp ||| 2)) zero.symm
    · simp only [writeRegisterWithTs, readRegisterWithTs, State.touchX0,
        State.setRegister_registers, Function.update_of_ne isZero]
  rw [memoryOf_congr ram target] at performs
  rw [cycleRow_accesses isDelegation]
  exact performs

theorem cycleTimes_succ (start : TimestampScalar) (cycles : Nat) :
    cycleTimes start (cycles + 1) =
      .fromScalar start :: cycleTimes (start + timestampStep) cycles := by
  have first : start + BitVec.ofNat 64 (4 * 0) = start := BitVec.add_zero start
  rw [cycleTimes, List.range_succ_eq_map, List.map_cons, List.map_map, first, cycleTimes]
  congr 1
  apply List.map_congr_left
  intro i _
  have step : BitVec.ofNat 64 (4 * (i + 1)) = timestampStep + BitVec.ofNat 64 (4 * i) := by
    rw [Nat.mul_succ, Nat.add_comm, BitVec.ofNat_add]
    rfl
  rw [Function.comp_apply, step, BitVec.add_assoc]

theorem cycleRow_rows (isDelegation : csr ∈ [bigintCsr, blakeCsr, keccakCsr])
    (zero : state.ZeroX0) :
    CycleRows tape state ram (afterCycles 1 state.timestamp state) 1 [cycleRow csr state] where
  performs := by
    rw [List.flatMap_singleton]
    exact cycleRow_performs isDelegation zero
  length := rfl
  areCycles := by
    intro row member
    rw [List.mem_singleton.mp member]
    exact ⟨rfl, rfl⟩
  times := by
    rw [cycleTimes_succ]
    rfl
  ordered := by
    intro aligned fits
    rw [List.flatMap_singleton]
    exact (cycleRow csr state).ordered_of_cycle aligned fits rfl
  cells := by
    intro access member
    rw [List.flatMap_singleton] at member
    exact cycleRow_cells isDelegation member

/-- The cycles one by one, with the rows they write. -/
theorem delegationCycles_rows (isDelegation : csr ∈ [bigintCsr, blakeCsr, keccakCsr])
    {numCalls : Nat} {last : TimestampScalar} (zero : state.ZeroX0)
    (lastTime : last.toNat = state.timestamp.toNat + 4 * numCalls) (before : List TraceRow) :
    ∃ rows, delegationCycles csr (numCalls + 1) state before =
        some (afterCycles (numCalls + 1) last state, before ++ rows) ∧
      CycleRows tape state ram (afterCycles (numCalls + 1) last state) (numCalls + 1) rows := by
  induction numCalls generalizing state before with
  | zero =>
      have sameTime : last = state.timestamp := BitVec.eq_of_toNat_eq lastTime
      refine ⟨[cycleRow csr state], ?_, ?_⟩
      · rw [sameTime]
        rfl
      · rw [sameTime]
        exact cycleRow_rows isDelegation zero
  | succ numCalls inductionHypothesis =>
      have bound := last.isLt
      have step : timestampStep.toNat = 4 := rfl
      have fits : state.timestamp.toNat + timestampStep.toNat < 2 ^ 64 := by
        omega
      have added : checkedAdd state.timestamp timestampStep =
          some (state.timestamp + timestampStep) :=
        (checkedAdd_eq_some_iff _ _ _).mpr ⟨fits, rfl⟩
      let next := ((state.touchX0 2).setPc (state.pc + 4)).setTimestamp
        (state.timestamp + timestampStep)
      have sum : next.timestamp.toNat = state.timestamp.toNat + 4 := checkedAdd_toNat added
      have nextTime : last.toNat = next.timestamp.toNat + 4 * numCalls := by
        omega
      have nextZero : next.ZeroX0 := zero.touchX0 2
      rcases inductionHypothesis nextZero nextTime (before ++ [cycleRow csr state]) with
        ⟨rows, cycles, rest⟩
      have ended := afterCycles_succ numCalls (state.timestamp + timestampStep) last state
      have moved :
          stepUnlessLast (numCalls + 1) (delegationCycle csr state before).1 = some next := by
        have notLast : numCalls + 1 ≠ 0 := Nat.succ_ne_zero numCalls
        have time : (delegationCycle csr state before).1.timestamp = state.timestamp := rfl
        simp only [stepUnlessLast, if_neg notLast, State.advance, time, added,
          Option.bind_eq_bind, Option.bind_some]
        rfl
      rw [← ended]
      refine ⟨cycleRow csr state :: rows, ?_, ?_⟩
      · rw [delegationCycles]
        simp only [moved, Option.bind_eq_bind, Option.bind_some]
        rw [← List.append_cons] at cycles
        exact cycles
      · have performs : Performs _ _ _ := @cycleRow_performs C romBits tape state ram csr
          isDelegation zero
        refine ⟨?_, congrArg Nat.succ rest.length, ?_, ?_, ?_, ?_⟩
        · rw [List.flatMap_cons]
          exact performs.append rest.performs
        · intro row member
          rcases List.mem_cons.mp member with rfl | inRest
          · exact ⟨rfl, rfl⟩
          · exact rest.areCycles row inRest
        · rw [cycleTimes_succ]
          exact congrArg (List.cons _) rest.times
        · intro aligned fits
          have first :=
            @TraceRow.ordered_of_cycle tape _ aligned (by omega) (cycleRow csr state) rfl
          have later := rest.ordered (by omega) (by omega)
          have stop : next.timestamp.toNat + 4 * (numCalls + 1) =
              state.timestamp.toNat + 4 * (numCalls + 1 + 1) := by
            omega
          rw [sum] at later stop
          rw [List.flatMap_cons, ← stop]
          exact first.append later (by omega) (by omega)
        · intro access member
          rw [List.flatMap_cons] at member
          rcases List.mem_append.mp member with now | inRest
          · exact cycleRow_cells isDelegation now
          · exact rest.cells access inRest

/-- The same from the batch duration that the executor checks, in a replay with counters of its
own. -/
theorem cyclesOrSkip_rows (isDelegation : csr ∈ [bigintCsr, blakeCsr, keccakCsr])
    {numCalls : Nat} {last : TimestampScalar} (zero : state.ZeroX0) (positive : 0 < numCalls)
    (small : numCalls < 2 ^ 32)
    (fits : checkedAdd state.timestamp (batchDuration numCalls) = some last) (counters : C)
    (before : List TraceRow) :
    ∃ rows, cyclesOrSkip true csr numCalls (state.withCounters counters) before =
        some (afterCycles numCalls last (state.withCounters counters), before ++ rows) ∧
      CycleRows tape state ram (afterCycles numCalls last state) numCalls rows := by
  have step : timestampStep.toNat = 4 := rfl
  have lastTime : last.toNat = state.timestamp.toNat + 4 * (numCalls - 1) := by
    have sum := checkedAdd_toNat fits
    rw [batchDuration, BitVec.toNat_mul, BitVec.toNat_ofNat, step] at sum
    omega
  rcases Nat.exists_eq_succ_of_ne_zero positive.ne' with ⟨others, rfl⟩
  rcases @delegationCycles_rows C romBits tape (state.withCounters counters) ram csr isDelegation
    _ _ zero lastTime before with ⟨rows, cycles, cycleRows⟩
  exact ⟨rows, cycles, cycleRows.performs, cycleRows.length, cycleRows.areCycles,
    cycleRows.times, cycleRows.ordered, cycleRows.cells⟩

end Cycles

/-! ## Single delegations -/

section Delegations

variable {apart : Prop} {csr : BitVec 16} {start : TimestampScalar} {numCalls : Nat}
  {rows : List TraceRow}

/-- The rows of the delegations of a batch that starts at a time. -/
structure DelegationRows (apart : Prop) (tape : InstructionTape) (csr : BitVec 16)
    (start : TimestampScalar) (numCalls : Nat) (rows : List TraceRow) : Prop where
  length : rows.length = numCalls
  areDelegations : ∀ row ∈ rows, row.IsDelegation csr
  ordered : apart → start.toNat % 4 = 0 → start.toNat + 4 * numCalls ≤ 2 ^ 48 →
    Ordered cellTime start.toNat (start.toNat + 4 * numCalls)
      (rows.flatMap (TraceRow.accesses tape))

theorem DelegationRows.nil (apart : Prop) (tape : InstructionTape) (csr : BitVec 16)
    (start : TimestampScalar) : DelegationRows apart tape csr start 0 [] where
  length := rfl
  areDelegations := fun _ member => absurd member List.not_mem_nil
  ordered := fun _ _ _ => .nil cellTime _ _

/-- A row whose accesses are to distinct cells, before the rows from the next cycle on. -/
theorem DelegationRows.cons {witness : DelegationWitness}
    (isTime : witness.writeTimestamp = start ||| 3)
    (nodup : apart → ((witness.accesses csr).map Access.cell).Nodup)
    (rest : DelegationRows apart tape csr (start + timestampStep) numCalls rows) :
    DelegationRows apart tape csr start (numCalls + 1) (.delegation csr witness :: rows) where
  length := congrArg Nat.succ rest.length
  areDelegations := by
    intro row member
    rcases List.mem_cons.mp member with rfl | inRest
    · exact ⟨witness, start, rfl, isTime⟩
    · exact rest.areDelegations row inRest
  ordered := by
    intro windows aligned fits
    have step : timestampStep.toNat = 4 := rfl
    have three : (3 : TimestampScalar).toNat = 3 := rfl
    have next : (start + timestampStep).toNat = start.toNat + 4 := by
      rw [BitVec.toNat_add, step]
      omega
    have later := rest.ordered windows (by omega) (by omega)
    have first : Ordered cellTime start.toNat (start.toNat + 4) (witness.accesses csr) := by
      apply Ordered.of_nodup (nodup windows)
      intro access member
      have sum := or_offset_toNat aligned (show (3 : TimestampScalar).toNat < 4 by decide)
      rw [← Prod.eta access.after, (DelegationWitness.of_mem_accesses member).1, isTime,
        cellTime_fromScalar (by omega), sum]
      omega
    have stop : start.toNat + 4 + 4 * numCalls = start.toNat + 4 * (numCalls + 1) := by
      omega
    rw [next, stop] at later
    rw [List.flatMap_cons]
    exact first.append later (by omega) (by omega)

/-- A call with the rows of its cycles and those of its single delegations. -/
theorem StepRows.batch [Counters C] {state cycled state' : State C}
    {ram ram' : RamWithRomRegion romBits} (delegation : DelegationType)
    {cycles delegations : List TraceRow} (positive : 0 < numCalls)
    (cycleRows : CycleRows tape state ram cycled numCalls cycles)
    (rows : DelegationRows apart tape delegation.csr state.timestamp numCalls delegations)
    (performs : apart → Performs (memoryOf cycled ram)
      (delegations.flatMap (TraceRow.accesses tape)) (memoryOf state' ram'))
    (counted : state'.counters = Counters.logMultipleCircuitFamilyCalls .shiftBinaryCsr numCalls
      (delegation.bump numCalls state.counters))
    (lastTime : state'.timestamp.toNat = state.timestamp.toNat + 4 * (numCalls - 1)) :
    StepRows apart tape state ram state' ram' (cycles ++ delegations) where
  performs := by
    intro windows
    rw [List.flatMap_append]
    exact cycleRows.performs.append (performs windows)
  ordered := by
    intro windows aligned fits
    have stop : state'.timestamp.toNat + 4 = state.timestamp.toNat + 4 * numCalls := by
      omega
    rw [stop] at fits ⊢
    rw [List.flatMap_append]
    apply (cycleRows.ordered aligned fits).append_of_disjoint (rows.ordered windows aligned fits)
    -- the cycles access `x0` only, and no delegation accesses it
    intro access inCycles other inDelegations same
    rcases List.mem_flatMap.mp inDelegations with ⟨row, isRow, member⟩
    rcases rows.areDelegations row isRow with ⟨witness, start, rfl, _⟩
    rw [cycleRows.cells access inCycles] at same
    exact (DelegationWitness.of_mem_accesses member).2 same.symm
  counted := .batch delegation numCalls cycles delegations rfl cycleRows.length rows.length
    cycleRows.areCycles rows.areDelegations counted
  times := by
    refine ⟨numCalls - 1, ?_, lastTime⟩
    have none : delegations.filterMap TraceRow.cycleTimestamp = [] := by
      rw [List.filterMap_eq_nil_iff]
      intro row member
      rcases rows.areDelegations row member with ⟨witness, start, rfl, _⟩
      rfl
    rw [List.filterMap_append, none, List.append_nil, cycleRows.times,
      Nat.sub_add_cancel positive]

end Delegations

/-! ## Accesses of witnesses -/

section Witnesses

theorem map_zipWith_left {Left Right Result Value : Type} {combine : Left → Right → Result}
    {value : Result → Value} (leftValue : Left → Value)
    (same : ∀ left right, value (combine left right) = leftValue left) :
    ∀ {lefts : List Left} {rights : List Right}, lefts.length ≤ rights.length →
      (List.zipWith combine lefts rights).map value = lefts.map leftValue
  | [], _, _ => rfl
  | left :: lefts, right :: rights, enough => by
      rw [List.zipWith_cons_cons, List.map_cons, List.map_cons, same,
        map_zipWith_left leftValue same (Nat.le_of_succ_le_succ enough)]

theorem map_zipWith_right {Left Right Result Value : Type} {combine : Left → Right → Result}
    {value : Result → Value} (rightValue : Right → Value)
    (same : ∀ left right, value (combine left right) = rightValue right)
    {lefts : List Left} {rights : List Right} (enough : rights.length ≤ lefts.length) :
    (List.zipWith combine lefts rights).map value = rights.map rightValue := by
  rw [List.zipWith_comm]
  exact map_zipWith_left rightValue (fun right left => same left right) enough

/-- The cell of the word at an address. -/
def wordCell (address : U32) : MemoryCell := .word (wordIdx address)

/-- Words with their times, as the memory argument sees them. -/
def wordContents (words : List (TimestampScalar × U32)) : List CellContent :=
  words.map fun word => (.fromScalar word.1, word.2)

/-- Values left at one time. -/
def writtenContents (timestamp : TimestampScalar) (values : List U32) : List CellContent :=
  values.map fun value => (.fromScalar timestamp, value)

@[simp]
theorem length_readWriteData {words : List (TimestampScalar × U32)} {values : List U32}
    (length : values.length = words.length) :
    (readWriteData words values).length = words.length := by
  rw [readWriteData, List.length_zipWith, length, Nat.min_self]

variable {witness : DelegationWitness} {addresses values : List U32}
  {words : List (TimestampScalar × U32)}

/-- The reads of a witness. -/
theorem readAccesses_maps (isReads : witness.indirectReads = readData words)
    (length : addresses.length = words.length) :
    (witness.readAccesses addresses).map Access.cell = addresses.map wordCell ∧
      (witness.readAccesses addresses).map Access.before = wordContents words ∧
      (witness.readAccesses addresses).map Access.after =
        writtenContents witness.writeTimestamp (words.map Prod.snd) := by
  have dataLength : (readData words).length = addresses.length := by
    rw [readData, List.length_map, length]
  rw [DelegationWitness.readAccesses, isReads]
  refine ⟨?_, ?_, ?_⟩
  · exact map_zipWith_left wordCell (by intros; rfl) dataLength.ge
  · rw [map_zipWith_right (fun data => (data.timestamp, data.readValue)) (fun _ _ => rfl)
      dataLength.le, readData, List.map_map]
    rfl
  · rw [map_zipWith_right (fun data => (.fromScalar witness.writeTimestamp, data.readValue))
      (fun _ _ => rfl) dataLength.le, readData, List.map_map, writtenContents, List.map_map]
    rfl

/-- The writes of a witness. -/
theorem writeAccesses_maps (isWrites : witness.indirectWrites = readWriteData words values)
    (length : addresses.length = words.length) (valuesLength : values.length = words.length) :
    (witness.writeAccesses addresses).map Access.cell = addresses.map wordCell ∧
      (witness.writeAccesses addresses).map Access.before = wordContents words ∧
      (witness.writeAccesses addresses).map Access.after =
        writtenContents witness.writeTimestamp values := by
  have dataLength : (readWriteData words values).length = addresses.length := by
    rw [length_readWriteData valuesLength, length]
  rw [DelegationWitness.writeAccesses, isWrites]
  refine ⟨?_, ?_, ?_⟩
  · exact map_zipWith_left wordCell (by intros; rfl) dataLength.ge
  · rw [map_zipWith_right (fun data => (data.timestamp, data.readValue)) (fun _ _ => rfl)
      dataLength.le, readWriteData]
    apply map_zipWith_left _ _ valuesLength.ge
    intro word writeValue
    rfl
  · rw [map_zipWith_right (fun data => (.fromScalar witness.writeTimestamp, data.writeValue))
      (fun _ _ => rfl) dataLength.le, readWriteData]
    apply map_zipWith_right _ _ valuesLength.le
    intro word writeValue
    rfl

/-- A row with three registers, reads at the second and writes at the first. -/
theorem accesses_maps {delegationType : BitVec 16} (notKeccak : delegationType ≠ keccakCsr)
    {x10 x11 x12 : RegisterOrIndirectReadWriteData} {reads writes : List (TimestampScalar × U32)}
    (isRegisters : witness.regAccesses = [x10, x11, x12])
    (isReads : witness.indirectReads = readData reads)
    (isWrites : witness.indirectWrites = readWriteData writes values)
    (valuesLength : values.length = writes.length) :
    let accesses := witness.accesses delegationType
    accesses.map Access.cell =
        [.register 10, .register 11, .register 12] ++
          (wordAddresses x11.readValue reads.length ++
            wordAddresses x10.readValue writes.length).map wordCell ∧
      accesses.map Access.before =
        [(x10.timestamp, x10.readValue), (x11.timestamp, x11.readValue),
          (x12.timestamp, x12.readValue)] ++ (wordContents reads ++ wordContents writes) ∧
      accesses.map Access.after =
        writtenContents witness.writeTimestamp
          ([x10.writeValue, x11.writeValue, x12.writeValue] ++ (reads.map Prod.snd ++ values)) := by
  intro accesses
  have readsLength : witness.indirectReads.length = reads.length := by
    rw [isReads, readData, List.length_map]
  have writesLength : witness.indirectWrites.length = writes.length := by
    rw [isWrites, length_readWriteData valuesLength]
  have pointers : witness.pointer 1 = x11.readValue ∧ witness.pointer 0 = x10.readValue := by
    simp only [DelegationWitness.pointer, isRegisters]
    exact ⟨rfl, rfl⟩
  have readMaps := @readAccesses_maps witness (wordAddresses x11.readValue reads.length) reads
    isReads (length_wordAddresses _ _)
  have writeMaps := @writeAccesses_maps witness (wordAddresses x10.readValue writes.length) values
    writes isWrites (length_wordAddresses _ _) valuesLength
  have unfolded : accesses =
      witness.registerAccesses [10, 11, 12] ++
        witness.readAccesses (wordAddresses x11.readValue reads.length) ++
        witness.writeAccesses (wordAddresses x10.readValue writes.length) := by
    rw [← pointers.1, ← pointers.2, ← readsLength, ← writesLength]
    exact if_neg notKeccak
  rw [unfolded, DelegationWitness.registerAccesses, isRegisters]
  simp only [List.map_append, readMaps.1, readMaps.2.1, readMaps.2.2, writeMaps.1, writeMaps.2.1,
    writeMaps.2.2, writtenContents, List.append_assoc]
  exact ⟨rfl, rfl, rfl⟩

end Witnesses

/-! ## The memory of the executor -/

section Executor

variable {state state' : State C} {ram ram' : RamWithRomRegion romBits}

/-- A call leaves new contents in some registers and at the words that it accesses, and nothing
else.  The words may be listed in another order than that of the accesses. -/
theorem holdsAt_memoryOf {accesses listed : List RamAccess} (order : listed.Perm accesses)
    (performs : Performs ram.backing (accesses.map RamAccess.toAccess) ram'.backing)
    (nodup : ((accesses.map RamAccess.address).map wordIdx).Nodup)
    (aboveRom : ∀ access ∈ accesses, romWords romBits ≤ wordIdx access.address)
    (indices : List RegisterIndex)
    (registers : ∀ index, index ∉ indices → state'.registers index = state.registers index) :
    HoldsAt (memoryOf state ram)
      (indices.map .register ++ (listed.map RamAccess.address).map wordCell)
      (indices.map (fun index => (state'.registers index).content) ++
        listed.map fun access => access.after.content) (memoryOf state' ram') := by
  rw [← map_toAccess_cell] at nodup
  refine ⟨?_, ?_⟩
  · rw [List.map_append, List.map_map, List.map_map, List.map_map]
    refine congrArg (_ ++ ·) (List.map_congr_left ?_)
    intro access member
    have inAccesses := order.mem_iff.mp member
    have left := performs.after_of_nodup nodup (List.mem_map_of_mem inAccesses)
    change wordContent romBits (wordIdx access.address) (ram'.backing (wordIdx access.address)) = _
    rw [wordContent_of_above (aboveRom access inAccesses)]
    exact congrArg Register.content left
  · intro cell untouched
    cases cell with
    | register index =>
        have notIndex : index ∉ indices := fun member =>
          untouched (List.mem_append_left _ (List.mem_map_of_mem member))
        exact congrArg Register.content (registers index notIndex)
    | word slot =>
        have notSlot : slot ∉ (accesses.map RamAccess.toAccess).map Access.cell := by
          intro touched
          rw [List.map_map] at touched
          rcases List.mem_map.mp touched with ⟨access, member, rfl⟩
          apply untouched
          rw [List.map_map]
          exact List.mem_append_right _
            (List.mem_map_of_mem (order.mem_iff.mpr member))
        exact congrArg (wordContent romBits slot) (performs.frame notSlot)

/-- What the accesses of a call find. -/
theorem memoryOf_wordCells {accesses selected : List RamAccess} {memory' : Nat → Register}
    (performs : Performs ram.backing (accesses.map RamAccess.toAccess) memory')
    (nodup : ((accesses.map RamAccess.address).map wordIdx).Nodup)
    (aboveRom : ∀ access ∈ accesses, romWords romBits ≤ wordIdx access.address)
    (subset : ∀ access ∈ selected, access ∈ accesses) :
    ((selected.map RamAccess.address).map wordCell).map (memoryOf state ram) =
      wordContents (wordsOf selected) := by
  rw [← map_toAccess_cell] at nodup
  rw [wordContents, wordsOf, List.map_map, List.map_map, List.map_map]
  apply List.map_congr_left
  intro access member
  have found := performs.before_of_nodup nodup (List.mem_map_of_mem (subset access member))
  change wordContent romBits (wordIdx access.address) (ram.backing (wordIdx access.address)) = _
  rw [wordContent_of_above (aboveRom access (subset access member))]
  exact congrArg Register.content found

/-- Words that were only read keep their values. -/
theorem map_content_reads {reads : List RamAccess} {stamp : TimestampScalar}
    (afters : ∀ access ∈ reads, access.after = ⟨stamp, access.before.value⟩) :
    reads.map (fun access => access.after.content) =
      writtenContents stamp ((wordsOf reads).map Prod.snd) := by
  rw [writtenContents, wordsOf, List.map_map, List.map_map]
  apply List.map_congr_left
  intro access member
  rw [afters access member]
  rfl

theorem map_content_writes {writes : List RamAccess} {stamp : TimestampScalar}
    {values : List U32} (afters : writes.map RamAccess.after = values.map fun word => ⟨stamp, word⟩) :
    writes.map (fun access => access.after.content) = writtenContents stamp values := by
  have contents := congrArg (List.map Register.content) afters
  rw [List.map_map, List.map_map] at contents
  exact contents

/-- The three registers of a call, all accessed at one time. -/
theorem registers_of_call {registers registers' : RegisterIndex → Register}
    {x10 x11 x12 : Register}
    (final : registers' = Function.update (Function.update (Function.update registers 10 x10)
      11 x11) 12 x12) (index : RegisterIndex)
    (untouched : index ∉ ([10, 11, 12] : List RegisterIndex)) :
    registers' index = registers index := by
  simp only [List.mem_cons, List.not_mem_nil, or_false, not_or] at untouched
  rw [final, Function.update_of_ne untouched.2.2, Function.update_of_ne untouched.2.1,
    Function.update_of_ne untouched.1]

theorem nodup_cells {indices : List RegisterIndex} {addresses : List U32}
    (registers : indices.Nodup) (words : (addresses.map wordIdx).Nodup) :
    (indices.map MemoryCell.register ++ addresses.map wordCell).Nodup := by
  have slots : addresses.map wordCell = (addresses.map wordIdx).map MemoryCell.word := by
    rw [List.map_map]
    rfl
  rw [slots, List.nodup_append']
  refine ⟨registers.map fun _ _ => MemoryCell.register.inj,
    words.map fun _ _ => MemoryCell.word.inj, ?_⟩
  intro cell isRegister isWord
  rcases List.mem_map.mp isRegister with ⟨index, _, rfl⟩
  rcases List.mem_map.mp isWord with ⟨slot, _, same⟩
  cases same

/-- The words at a pointer that a call checked are above the ROM. -/
theorem romWords_le_wordIdx {pointer address : U32} {count size : Nat}
    (romFits : romBits ≤ romSecondWordBits) (above : romByteSize ≤ pointer)
    (divides : size ∣ 2 ^ 32) (small : size < 2 ^ 32) (fits : 4 * count ≤ size)
    (aligned : pointer % BitVec.ofNat 32 size = 0)
    (member : address ∈ wordAddresses pointer count) : romWords romBits ≤ wordIdx address := by
  rcases List.mem_map.mp member with ⟨i, inCount, rfl⟩
  have inside := (toNat_of_aligned divides small aligned).2
  have early := List.mem_range.mp inCount
  have start : 2 ^ 22 ≤ pointer.toNat := BitVec.le_def.mp above
  have sum : (pointer + BitVec.ofNat 32 (4 * i)).toNat = pointer.toNat + 4 * i := by
    rw [BitVec.toNat_add, BitVec.toNat_ofNat]
    omega
  have bytes : romBytes romBits ≤ 2 ^ 22 := by
    rw [romBytes, Nat.one_shiftLeft]
    exact Nat.pow_le_pow_right (by decide) (Nat.add_le_add_left romFits 16)
  have slot : wordIdx (pointer + BitVec.ofNat 32 (4 * i)) = (pointer.toNat + 4 * i) / 4 := by
    rw [← sum]
    exact BitVec.toNat_udiv
  rw [slot, romWords]
  exact Nat.div_le_div_right (by omega)

end Executor

/-! ## Bigint -/

section Bigint

variable [Counters C] [Ruint] {apart : Prop} {state state' : State C}
  {ram ram' : RamWithRomRegion romBits} {events : List SnapshotEvent} {result : U256} {flag : U32} {reads writes : List RamAccess}

/-- The words of a call are above the ROM. -/
theorem bigint_aboveRom (romFits : romBits ≤ romSecondWordBits)
    (call : BigintCall state ram state' ram' events result flag reads writes) :
    ∀ access ∈ reads ++ writes, romWords romBits ≤ wordIdx access.address := by
  intro access member
  rcases List.mem_append.mp member with inReads | inWrites
  · have listed := List.mem_map_of_mem (f := RamAccess.address) inReads
    rw [call.reads_address] at listed
    exact romWords_le_wordIdx romFits call.x11_above_rom (show 32 ∣ 2 ^ 32 by decide) (by decide)
      (by decide) call.x11_aligned listed
  · have listed := List.mem_map_of_mem (f := RamAccess.address) inWrites
    rw [call.writes_address] at listed
    exact romWords_le_wordIdx romFits call.x10_above_rom (show 32 ∣ 2 ^ 32 by decide) (by decide)
      (by decide) call.x10_aligned listed

/-- The cells of the row of a call. -/
theorem bigintWitness_cells
    (call : BigintCall state ram state' ram' events result flag reads writes) :
    ((bigintWitness state reads writes result flag).accesses bigintCsr).map Access.cell =
      [10, 11, 12].map .register ++ ((reads ++ writes).map RamAccess.address).map wordCell := by
  rcases bigint_lengths call with ⟨readsLength, writesLength⟩
  have wordsLength (accesses : List RamAccess) : (wordsOf accesses).length = accesses.length :=
    List.length_map _
  have resultLength : (wordsOfLimbs result.toList).length = (wordsOf writes).length := by
    rw [wordsLength, writesLength, length_wordsOfLimbs, Vector.length_toList]
  have maps := @accesses_maps (bigintWitness state reads writes result flag) _ bigintCsr
    (by decide) _ _ _ (wordsOf reads) (wordsOf writes) rfl rfl rfl resultLength
  rw [maps.1, wordsLength, wordsLength, readsLength, writesLength,
    @List.map_append _ _ RamAccess.address, call.reads_address, call.writes_address]
  rfl

/-- The row of a call does to the memory what the executor does after its cycle. -/
theorem bigintWitness_performs (romFits : romBits ≤ romSecondWordBits)
    (call : BigintCall state ram state' ram' events result flag reads writes) :
    Performs (memoryOf (state.touchX0 2) ram)
      ((bigintWitness state reads writes result flag).accesses bigintCsr)
      (memoryOf state' ram') := by
  rcases bigint_lengths call with ⟨readsLength, writesLength⟩
  have wordsLength (accesses : List RamAccess) : (wordsOf accesses).length = accesses.length :=
    List.length_map _
  have resultLength : (wordsOfLimbs result.toList).length = (wordsOf writes).length := by
    rw [wordsLength, writesLength, length_wordsOfLimbs, Vector.length_toList]
  have aboveRom := bigint_aboveRom romFits call
  have maps := @accesses_maps (bigintWitness state reads writes result flag) _ bigintCsr
    (by decide) _ _ _ (wordsOf reads) (wordsOf writes) rfl rfl rfl resultLength
  rcases maps with ⟨_, befores, afters⟩
  let stamp := state.timestamp ||| 3
  have final : state'.registers =
      Function.update (Function.update (Function.update (state.touchX0 2).registers
        10 ⟨stamp, (state.registers 10).value⟩) 11 ⟨stamp, (state.registers 11).value⟩)
          12 ⟨stamp, flag⟩ := by
    rw [call.state_eq]
    rfl
  have executed := @holdsAt_memoryOf C romBits (state.touchX0 2) state' ram ram' (reads ++ writes)
    (reads ++ writes) (.refl _) call.performs call.nodup aboveRom [10, 11, 12]
    (registers_of_call final)
  have sameCells := bigintWitness_cells call
  have sameAfters : ((bigintWitness state reads writes result flag).accesses bigintCsr).map
      Access.after = [10, 11, 12].map (fun index => (state'.registers index).content) ++
        (reads ++ writes).map fun access => access.after.content := by
    rw [afters, final, List.map_append, map_content_reads call.reads_after,
      map_content_writes call.writes_after]
    simp only [writtenContents, List.map_append]
    rfl
  have foundReads := @memoryOf_wordCells C romBits (state.touchX0 2) ram (reads ++ writes) reads _
    call.performs call.nodup aboveRom fun _ => List.mem_append_left writes
  have foundWrites := @memoryOf_wordCells C romBits (state.touchX0 2) ram (reads ++ writes) writes
    _ call.performs call.nodup aboveRom fun _ => List.mem_append_right reads
  apply HoldsAt.performed
  · rw [sameCells, sameAfters]
    exact executed
  · rw [sameCells]
    exact nodup_cells (by decide) call.nodup
  · rw [sameCells, befores, List.map_append, List.map_append, List.map_append, List.map_append,
      foundReads, foundWrites]
    rfl

theorem bigintCall_stepRows (romFits : romBits ≤ romSecondWordBits)
    (call : BigintCall state ram state' ram' events result flag reads writes)
    (zero : state.ZeroX0) (counters : C) (rest : List LogEntry) (before : List TraceRow) :
    ∃ rows, bigintCall (state.withCounters counters)
        (ReplayerRam.ofEntries (events.map SnapshotEvent.logEntry ++ rest) :
          ReplayerRam romBits) before =
        some (state'.withCounters counters, .ofEntries rest, before ++ rows) ∧
      StepRows apart tape state ram state' ram' rows := by
  let cycle := cycleRow bigintCsr state
  let delegation := TraceRow.delegation bigintCsr (bigintWitness state reads writes result flag)
  have replayed : bigintDelegation (((state.withCounters counters).setPc (state.pc + 4)).touchX0 2)
      (ReplayerRam.ofEntries (events.map SnapshotEvent.logEntry ++ rest) : ReplayerRam romBits)
      (before ++ [cycle]) =
        some (state'.withCounters counters, .ofEntries rest,
          before ++ [cycle] ++ [delegation]) :=
    bigintDelegation_eq call counters rest (before ++ [cycle])
  rw [List.append_assoc] at replayed
  have cycled := @cycleRow_rows C romBits tape state ram bigintCsr (by decide) zero
  have sameTime : state'.timestamp = state.timestamp := by
    rw [call.state_eq]
    rfl
  have rows : DelegationRows apart tape bigintCsr state.timestamp 1 [delegation] := by
    apply DelegationRows.cons rfl _ (.nil _ _ _ _)
    intro _
    rw [bigintWitness_cells call]
    exact nodup_cells (by decide) call.nodup
  refine ⟨[cycle] ++ [delegation], replayed, StepRows.batch .bigInt Nat.one_pos cycled rows ?_ ?_ ?_⟩
  · intro _
    have performs := @bigintWitness_performs C romBits _ _ state state' ram ram' events result flag
      reads writes romFits call
    rw [List.flatMap_singleton]
    exact performs
  · rw [call.state_eq]
    rfl
  · rw [sameTime]
    rfl

end Bigint

end Airbender.Replayer
