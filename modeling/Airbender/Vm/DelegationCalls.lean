import Mathlib.Data.Option.Basic
import Airbender.Vm.Delegations
import Airbender.Vm.RamAccesses
import Airbender.Vm.Timestamps
import Airbender.Delegations.KeccakBatching

/-!
# What a delegation call does

One structure per call: the assertions that passed, the state it leaves and the
accesses it performs.  The proofs about whole runs use these and never unfold a
call.
-/

namespace Airbender.Vm

open Bigint OfflineMemory

variable {C : Type} [Counters C] {romBits : Nat}

/-! ## Bigint -/

/-- A bigint call that did not panic. -/
structure BigintCall [Ruint] (state : State C) (ram : RamWithRomRegion romBits)
    (state' : State C) (ram' : RamWithRomRegion romBits) (events : List SnapshotEvent)
    (result : U256) (flag : U32) (reads writes : List RamAccess) : Prop where
  x10_above_rom : romByteSize ≤ (state.registers 10).value
  x11_above_rom : romByteSize ≤ (state.registers 11).value
  pointers_ne : (state.registers 10).value ≠ (state.registers 11).value
  x10_aligned : (state.registers 10).value % 32 = 0
  x11_aligned : (state.registers 11).value % 32 = 0
  computed :
    ∃ overflow,
      bigintImpl (limbsOfWords 4 (ram.wordsAt (state.registers 10).value 8))
          (limbsOfWords 4 (ram.wordsAt (state.registers 11).value 8))
          (state.registers 12).value = some (result, overflow) ∧
        flag = if overflow then 1 else 0
  state_eq :
    state' =
      let touched := ((state.touchX0 2).readRegister 3 10).2
      let touched := (touched.readRegister 3 11).2.writeRegister 3 12 flag
      let counted := touched.withCounters (Counters.bumpBigint 1 touched.counters)
      counted.defaultIncreasePc.incrementFamilyCounter .shiftBinaryCsr
  performs : Performs ram.backing ((reads ++ writes).map RamAccess.toAccess) ram'.backing
  len_eq : ram'.len = ram.len
  events_eq : events = (reads ++ writes).map RamAccess.event ++ [.arbitraryValue flag]
  reads_address : reads.map RamAccess.address = wordAddresses (state.registers 11).value 8
  reads_after :
    ∀ access ∈ reads, access.after = ⟨state.timestamp ||| 3, access.before.value⟩
  writes_address : writes.map RamAccess.address = wordAddresses (state.registers 10).value 8
  writes_after :
    writes.map RamAccess.after =
      (wordsOfLimbs result.toList).map fun word => ⟨state.timestamp ||| 3, word⟩

private theorem or_three_or_one (timestamp : TimestampScalar) :
    timestamp ||| 3 ||| 1 = timestamp ||| 3 :=
  or_offset_eq_self (or_three_mod_four timestamp) (by decide)

private theorem or_three_or_two (timestamp : TimestampScalar) :
    timestamp ||| 3 ||| 2 = timestamp ||| 3 :=
  or_offset_eq_self (or_three_mod_four timestamp) (by decide)

private theorem stamped_or_two
    {timestamp : TimestampScalar} (stable : timestamp ||| 2 = timestamp) (words : List U32) :
    ∀ pair ∈ words.map fun word => (word, timestamp), pair.2 ||| 2 = pair.2 := by
  intro pair member
  obtain ⟨word, _, rfl⟩ := List.mem_map.mp member
  exact stable

theorem bigintCall_eq_some [Ruint]
    {state state' : State C} {ram ram' : RamWithRomRegion romBits}
    {events : List SnapshotEvent}
    (call : bigintCall state ram = some (state', ram', events)) :
    ∃ result flag reads writes,
      BigintCall state ram state' ram' events result flag reads writes := by
  simp only [bigintCall, Option.bind_eq_bind, Option.bind_eq_some_iff,
    Option.guard_eq_some', exists_const, Option.some.injEq, Prod.mk.injEq, Prod.exists,
    State.readRegister_fst, State.readRegister_timestamp, State.touchX0_timestamp,
    State.readRegister_value, State.touchX0_value] at call
  obtain ⟨x10AboveRom, x11AboveRom, pointersNe, x10Aligned, x11Aligned, aWords, aPeeked,
    bWords, middle, readEvents, bRead, result, overflow, computed, ram'', writeEvents, written,
    rfl, rfl, rfl⟩ := call
  obtain ⟨reads, readPerforms, readLen, rfl, readAddresses, _, readAfters⟩ :=
    RamWithRomRegion.readWords_accesses (or_three_or_one state.timestamp) bRead
  obtain ⟨writes, writePerforms, writeLen, rfl, writeAddresses, writeAfters⟩ :=
    RamWithRomRegion.writeBackWords_accesses
      (stamped_or_two (or_three_or_two state.timestamp) _) written
  rw [RamWithRomRegion.peekWords_eq_some aPeeked,
    RamWithRomRegion.readWords_words bRead] at computed
  refine ⟨result, if overflow then 1 else 0, reads, writes, ?_⟩
  exact
    { x10_above_rom := x10AboveRom
      x11_above_rom := x11AboveRom
      pointers_ne := pointersNe
      x10_aligned := x10Aligned
      x11_aligned := x11Aligned
      computed := ⟨overflow, computed, rfl⟩
      state_eq := rfl
      performs := by
        rw [List.map_append]
        exact readPerforms.append writePerforms
      len_eq := writeLen.trans readLen
      events_eq := by
        rw [List.map_append]
      reads_address := readAddresses
      reads_after := readAfters
      writes_address := by
        simpa using writeAddresses
      writes_after := by
        rw [writeAfters, List.map_map]
        rfl }

/-! ## Blake2s -/

/-- The words a batched call computes from the memory it finds. -/
def blakeOutput (state : State C) (ram : RamWithRomRegion romBits) : Vector U32 24 :=
  Blake2s.batchWords (state.registers 12).value
    (arrayOfWords 24 (ram.wordsAt (state.registers 10).value 24))
    (arrayOfWords 16 (ram.wordsAt (state.registers 11).value 16))

/-- A batched Blake2s call that did not panic. -/
structure BlakeCall (state : State C) (ram : RamWithRomRegion romBits)
    (state' : State C) (ram' : RamWithRomRegion romBits) (events : List SnapshotEvent)
    (lastTimestamp registerTimestamp : TimestampScalar) (writes reads : List RamAccess) :
    Prop where
  x10_above_rom : romByteSize ≤ (state.registers 10).value
  x11_above_rom : romByteSize ≤ (state.registers 11).value
  pointers_ne : (state.registers 10).value ≠ (state.registers 11).value
  x10_aligned : (state.registers 10).value % 128 = 0
  x11_aligned : (state.registers 11).value % 64 = 0
  accepts : Blake2s.acceptsControl (state.registers 12).value = true
  last :
    checkedAdd state.timestamp
        (batchDuration (Blake2s.numRounds (state.registers 12).value)) = some lastTimestamp
  register : checkedAdd lastTimestamp 3 = some registerTimestamp
  state_eq :
    state' =
      let x12 := (state.registers 12).value
      let touched := state.setRegister 10 ⟨registerTimestamp, (state.registers 10).value⟩
      let touched := touched.setRegister 11 ⟨registerTimestamp, (state.registers 11).value⟩
      let touched := touched.setRegister 12 ⟨registerTimestamp, Blake2s.finalX12 x12⟩
      let touched :=
        touched.setRegister 0 { touched.registers 0 with timestamp := lastTimestamp ||| 2 }
      finishBatch Counters.bumpBlake2RoundFunction (Blake2s.numRounds x12) lastTimestamp touched
  performs : Performs ram.backing ((writes ++ reads).map RamAccess.toAccess) ram'.backing
  len_eq : ram'.len = ram.len
  events_eq : events = (writes ++ reads).map RamAccess.event
  writes_address : writes.map RamAccess.address = wordAddresses (state.registers 10).value 24
  writes_after :
    writes.map RamAccess.after =
      (blakeOutput state ram).toList.map fun word => ⟨lastTimestamp ||| 3, word⟩
  reads_address : reads.map RamAccess.address = wordAddresses (state.registers 11).value 16
  reads_after :
    ∀ access ∈ reads, access.after = ⟨lastTimestamp ||| 3, access.before.value⟩

theorem blake2RoundFunctionCall_eq_some
    {state state' : State C} {ram ram' : RamWithRomRegion romBits}
    {events : List SnapshotEvent}
    (call : blake2RoundFunctionCall state ram = some (state', ram', events)) :
    ∃ lastTimestamp registerTimestamp writes reads,
      BlakeCall state ram state' ram' events lastTimestamp registerTimestamp writes reads := by
  simp only [blake2RoundFunctionCall, Option.bind_eq_bind, Option.bind_eq_some_iff,
    Option.guard_eq_some', exists_const, Option.some.injEq, Prod.mk.injEq,
    Prod.exists] at call
  obtain ⟨x10AboveRom, x11AboveRom, pointersNe, x10Aligned, x11Aligned, accepts,
    lastTimestamp, last, registerTimestamp, register, words, wordsPeeked, input, inputPeeked,
    middle, writeEvents, written, readWords, ram'', readEvents, read, rfl, rfl, rfl⟩ := call
  obtain ⟨writes, writePerforms, writeLen, rfl, writeAddresses, writeAfters⟩ :=
    RamWithRomRegion.writeBackWords_accesses
      (stamped_or_two (or_three_or_two lastTimestamp) _) written
  obtain ⟨reads, readPerforms, readLen, rfl, readAddresses, _, readAfters⟩ :=
    RamWithRomRegion.readWords_accesses (or_three_or_one lastTimestamp) read
  rw [RamWithRomRegion.peekWords_eq_some wordsPeeked,
    RamWithRomRegion.peekWords_eq_some inputPeeked] at writeAfters
  refine ⟨lastTimestamp, registerTimestamp, writes, reads, ?_⟩
  exact
    { x10_above_rom := x10AboveRom
      x11_above_rom := x11AboveRom
      pointers_ne := pointersNe
      x10_aligned := x10Aligned
      x11_aligned := x11Aligned
      accepts := accepts
      last := last
      register := register
      state_eq := rfl
      performs := by
        rw [List.map_append]
        exact writePerforms.append readPerforms
      len_eq := readLen.trans writeLen
      events_eq := by
        rw [List.map_append]
      writes_address := by
        simpa using writeAddresses
      writes_after := by
        rw [writeAfters, List.map_map]
        rfl
      reads_address := readAddresses
      reads_after := readAfters }

/-! ## Keccak -/

/-- The lanes a batched call computes from the memory it finds. -/
def keccakOutput (state : State C) (ram : RamWithRomRegion romBits) : Keccak.Words :=
  Keccak.keccakF1600ImplExt (limbsOfWords 31 (ram.wordsAt (state.registers 11).value 62))

/-- A batched Keccak call that did not panic. -/
structure KeccakCall (state : State C) (ram : RamWithRomRegion romBits)
    (state' : State C) (ram' : RamWithRomRegion romBits) (events : List SnapshotEvent)
    (lastTimestamp registerTimestamp : TimestampScalar) (writes : List RamAccess) :
    Prop where
  x11_above_rom : romByteSize ≤ (state.registers 11).value
  x11_aligned : (state.registers 11).value % 256 = 0
  x10_initial : (state.registers 10).value = initialKeccakF1600ControlValue
  last :
    checkedAdd state.timestamp (batchDuration numDelegationCallsForKeccakF1600) =
      some lastTimestamp
  register : checkedAdd lastTimestamp 3 = some registerTimestamp
  state_eq :
    state' =
      let touched := state.setRegister 10 ⟨registerTimestamp, finalKeccakF1600ControlValue⟩
      let touched := touched.setRegister 11 ⟨registerTimestamp, (state.registers 11).value⟩
      let touched :=
        touched.setRegister 0 { touched.registers 0 with timestamp := lastTimestamp ||| 2 }
      finishBatch Counters.bumpKeccakSpecial5 numDelegationCallsForKeccakF1600 lastTimestamp
        touched
  performs : Performs ram.backing (writes.map RamAccess.toAccess) ram'.backing
  len_eq : ram'.len = ram.len
  events_eq : events = writes.map RamAccess.event
  writes_address : writes.map RamAccess.address = wordAddresses (state.registers 11).value 62
  writes_after :
    writes.map RamAccess.after =
      (keccakWriteBack (state.timestamp ||| 3) (keccakOutput state ram)).map
        fun pair => ⟨pair.2, pair.1⟩

theorem length_keccakWriteBack (writeTimestampBase : TimestampScalar) (lanes : Keccak.Words) :
    (keccakWriteBack writeTimestampBase lanes).length = 62 := by
  simp [keccakWriteBack, List.length_flatMap]

private theorem keccakWriteBack_or_two
    (writeTimestampBase : TimestampScalar) (late : writeTimestampBase.toNat % 4 = 3)
    (lanes : Keccak.Words) :
    ∀ pair ∈ keccakWriteBack writeTimestampBase lanes, pair.2 ||| 2 = pair.2 := by
  intro pair member
  obtain ⟨i, _, inLane⟩ := List.mem_flatMap.mp member
  have stamp : pair.2 = writeTimestampBase + Keccak.finalTimestampOffsets.get i := by
    rcases List.mem_cons.mp inLane with rfl | inHigh
    · rfl
    · rw [List.mem_singleton.mp inHigh]
  obtain ⟨last, inRun, _, _, offset⟩ := Keccak.finalTimestampOffsets_getElem i
  have stillLate : (writeTimestampBase + Keccak.finalTimestampOffsets.get i).toNat % 4 = 3 := by
    rw [offset, BitVec.toNat_add, Keccak.offset_toNat inRun]
    omega
  rw [stamp]
  exact or_offset_eq_self stillLate (by decide)

theorem keccakSpecial5Call_eq_some
    {state state' : State C} {ram ram' : RamWithRomRegion romBits}
    {events : List SnapshotEvent}
    (call : keccakSpecial5Call state ram = some (state', ram', events)) :
    ∃ lastTimestamp registerTimestamp writes,
      KeccakCall state ram state' ram' events lastTimestamp registerTimestamp writes := by
  simp only [keccakSpecial5Call, Option.bind_eq_bind, Option.bind_eq_some_iff,
    Option.guard_eq_some', exists_const, Option.some.injEq, Prod.mk.injEq,
    Prod.exists] at call
  obtain ⟨x11AboveRom, _, x11Aligned, x10Initial, lastTimestamp, last, registerTimestamp,
    register, words, wordsPeeked, ram'', writeEvents, written, rfl, rfl, rfl⟩ := call
  obtain ⟨writes, writePerforms, writeLen, rfl, writeAddresses, writeAfters⟩ :=
    RamWithRomRegion.writeBackWords_accesses
      (keccakWriteBack_or_two _ (or_three_mod_four state.timestamp) _) written
  rw [RamWithRomRegion.peekWords_eq_some wordsPeeked] at writeAfters
  rw [length_keccakWriteBack] at writeAddresses
  refine ⟨lastTimestamp, registerTimestamp, writes, ?_⟩
  exact
    { x11_above_rom := x11AboveRom
      x11_aligned := x11Aligned
      x10_initial := x10Initial
      last := last
      register := register
      state_eq := rfl
      performs := writePerforms
      len_eq := writeLen
      events_eq := rfl
      writes_address := writeAddresses
      writes_after := writeAfters }

end Airbender.Vm
