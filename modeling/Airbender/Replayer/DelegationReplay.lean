import Airbender.Delegations.Blake2sBatching
import Airbender.Replayer.Run
import Airbender.Vm.StepAccesses

/-!
# Replaying a delegation call

Whatever the tracer asks for, the replayed call leaves the registers, the time and the
program counter as the executor's call does, and takes exactly the entries it logged.
-/

namespace Airbender.Replayer

open Bigint OfflineMemory Vm

variable {C : Type} {romBits : Nat} {T : Type} [WitnessTracer T]

/-! ## Machine cycles -/

section Cycles

/-- The state after the cycles of a batch that ends its last cycle at `last`. -/
def afterCycles (numCalls : Nat) (last : TimestampScalar) (state : State C) : State C :=
  ((state.setTimestamp last).setPc (state.pc + BitVec.ofNat 32 (4 * numCalls))).touchX0 2

omit [WitnessTracer T] in
theorem touchX0_touchX0 (first second : TimestampScalar) (state : State C) :
    (state.touchX0 first).touchX0 second = state.touchX0 second := by
  simp only [State.touchX0, State.setRegister, Function.update_self, Function.update_idem]

omit [WitnessTracer T] in
theorem afterCycles_succ (numCalls : Nat) (first last : TimestampScalar) (state : State C) :
    afterCycles (numCalls + 1) last
        (((state.touchX0 2).setPc (state.pc + 4)).setTimestamp first) =
      afterCycles (numCalls + 2) last state := by
  have pc :
      state.pc + 4 + BitVec.ofNat 32 (4 * (numCalls + 1)) =
        state.pc + BitVec.ofNat 32 (4 * (numCalls + 2)) := by
    rw [BitVec.add_assoc]
    congr 1
    apply BitVec.eq_of_toNat_eq
    have four : (4 : U32).toNat = 4 := rfl
    simp only [BitVec.toNat_add, BitVec.toNat_ofNat, four]
    omega
  have touched := touchX0_touchX0 2 2 state
  apply State.ext
  · simp only [afterCycles, State.touchX0, State.setRegister, State.setTimestamp, State.setPc,
      Function.update_self, Function.update_idem]
  · rfl
  · exact pc
  · rfl

/-- The cycles go through when their last one does not overflow. -/
theorem delegationCycles_eq (csr : BitVec 16) {numCalls : Nat} {last : TimestampScalar}
    (state : State C) (tracer : T)
    (lastTime : last.toNat = state.timestamp.toNat + 4 * numCalls) :
    ∃ tracer', delegationCycles csr (numCalls + 1) state tracer =
      some (afterCycles (numCalls + 1) last state, tracer') := by
  induction numCalls generalizing state tracer with
  | zero =>
      have sameTime : last = state.timestamp := BitVec.eq_of_toNat_eq lastTime
      refine ⟨(delegationCycle csr state tracer).2, ?_⟩
      rw [sameTime]
      rfl
  | succ numCalls inductionHypothesis =>
      have bound := last.isLt
      have step : timestampStep.toNat = 4 := rfl
      have fits : state.timestamp.toNat + timestampStep.toNat < 2 ^ 64 := by
        omega
      have added : checkedAdd state.timestamp timestampStep =
          some (state.timestamp + timestampStep) :=
        (checkedAdd_eq_some_iff _ _ _).mpr ⟨fits, rfl⟩
      let cycled := (state.touchX0 2).setPc (state.pc + 4)
      let next := cycled.setTimestamp (state.timestamp + timestampStep)
      have nextTime : last.toNat = next.timestamp.toNat + 4 * numCalls := by
        have sum : next.timestamp.toNat = state.timestamp.toNat + 4 := checkedAdd_toNat added
        omega
      rcases inductionHypothesis next (delegationCycle csr state tracer).2 nextTime with
        ⟨tracer', rest⟩
      refine ⟨tracer', ?_⟩
      rw [← afterCycles_succ numCalls (state.timestamp + timestampStep)]
      have moved :
          stepUnlessLast (numCalls + 1) (delegationCycle csr state tracer).1 = some next := by
        have notLast : numCalls + 1 ≠ 0 := Nat.succ_ne_zero numCalls
        have time : (delegationCycle csr state tracer).1.timestamp = state.timestamp := rfl
        simp only [stepUnlessLast, if_neg notLast, State.advance, time, added,
          Option.bind_eq_bind, Option.bind_some]
        rfl
      rw [delegationCycles]
      simp only [moved, Option.bind_eq_bind, Option.bind_some]
      exact rest

omit [WitnessTracer T] in
theorem skipCycles_eq {numCalls : Nat} {last : TimestampScalar} (state : State C)
    (fits : checkedAdd state.timestamp (batchDuration numCalls) = some last) :
    skipCycles numCalls state = some (afterCycles numCalls last state) := by
  simp only [skipCycles, State.advance, fits, Option.bind_eq_bind, Option.bind_some]
  rfl

/-- With rows or without, the cycles of a batch leave the same state. -/
theorem cyclesOrSkip_eq (needsCycleData : Bool) (csr : BitVec 16) {numCalls : Nat}
    {last : TimestampScalar} (state : State C) (tracer : T) (positive : 0 < numCalls)
    (small : numCalls < 2 ^ 32)
    (fits : checkedAdd state.timestamp (batchDuration numCalls) = some last) :
    ∃ tracer', cyclesOrSkip needsCycleData csr numCalls state tracer =
      some (afterCycles numCalls last state, tracer') := by
  cases needsCycleData with
  | true =>
      have step : timestampStep.toNat = 4 := rfl
      have lastTime : last.toNat = state.timestamp.toNat + 4 * (numCalls - 1) := by
        have sum := checkedAdd_toNat fits
        rw [batchDuration, BitVec.toNat_mul, BitVec.toNat_ofNat, step] at sum
        omega
      rcases Nat.exists_eq_succ_of_ne_zero positive.ne' with ⟨others, rfl⟩
      exact delegationCycles_eq csr state tracer lastTime
  | false =>
      refine ⟨tracer, ?_⟩
      rw [cyclesOrSkip, skipCycles_eq state fits]
      rfl

end Cycles

/-! ## Logged words -/

section Logs

/-- The entries a call logs for these accesses. -/
def entriesOf (accesses : List RamAccess) : List LogEntry :=
  (accesses.map RamAccess.event).map SnapshotEvent.logEntry

@[simp]
theorem length_entriesOf (accesses : List RamAccess) :
    (entriesOf accesses).length = accesses.length := by
  simp [entriesOf]

theorem entriesOf_append (first second : List RamAccess) :
    entriesOf (first ++ second) = entriesOf first ++ entriesOf second := by
  simp [entriesOf]

/-- What the replay reads back: the time and value each access found. -/
def wordsOf (accesses : List RamAccess) : List (TimestampScalar × U32) :=
  accesses.map fun access => (access.before.timestamp, access.before.value)

theorem readWords_entriesOf {accesses : List RamAccess} {count : Nat}
    (length : accesses.length = count) (rest : List LogEntry) :
    (ReplayerRam.ofEntries (entriesOf accesses ++ rest) : ReplayerRam romBits).readWords count =
      some (wordsOf accesses, .ofEntries rest) := by
  rw [← length]
  exact ReplayerRam.readWords_events accesses rest

theorem skipIfReplaying_entriesOf {accesses : List RamAccess} {count : Nat}
    (length : accesses.length = count) (positive : 0 < count) (rest : List LogEntry) :
    (ReplayerRam.ofEntries (entriesOf accesses ++ rest) :
        ReplayerRam romBits).skipIfReplaying count = some (.ofEntries rest) := by
  have nonempty : entriesOf accesses ≠ [] := by
    apply List.ne_nil_of_length_pos
    rw [length_entriesOf, length]
    exact positive
  have skipped :
      (ReplayerRam.ofEntries (entriesOf accesses ++ rest) :
          ReplayerRam romBits).skipIfReplaying (entriesOf accesses).length =
        some (.ofEntries rest) :=
    ReplayerRam.skipIfReplaying_append nonempty
  rw [length_entriesOf, length] at skipped
  exact skipped

/-- Accesses to distinct words find what was there at the start. -/
theorem wordsOf_snd {ram : RamWithRomRegion romBits} {memory' : Nat → Register}
    {accesses selected : List RamAccess} {address : U32} {count : Nat}
    (performs : Performs ram.backing (accesses.map RamAccess.toAccess) memory')
    (nodup : ((accesses.map RamAccess.address).map wordIdx).Nodup)
    (subset : ∀ access ∈ selected, access ∈ accesses)
    (addresses : selected.map RamAccess.address = wordAddresses address count) :
    (wordsOf selected).map Prod.snd = ram.wordsAt address count := by
  rw [← map_toAccess_cell] at nodup
  rw [RamWithRomRegion.wordsAt, ← addresses, wordsOf, List.map_map, List.map_map]
  apply List.map_congr_left
  intro access member
  have found :=
    performs.before_of_nodup nodup (List.mem_map_of_mem (subset access member))
  exact (congrArg Register.value found).symm

end Logs

/-! ## Bigint -/

section Bigint

variable [Counters C] [Ruint] {state state' : State C} {ram ram' : RamWithRomRegion romBits}
  {events : List SnapshotEvent} {result : U256} {flag : U32} {reads writes : List RamAccess}

/-- The accesses of a call, then its flag. -/
theorem bigint_entries
    (call : BigintCall state ram state' ram' events result flag reads writes) :
    events.map SnapshotEvent.logEntry =
      entriesOf reads ++ (entriesOf writes ++ [(SnapshotEvent.arbitraryValue flag).logEntry]) := by
  rw [call.events_eq]
  simp [entriesOf]

theorem bigint_lengths
    (call : BigintCall state ram state' ram' events result flag reads writes) :
    reads.length = 8 ∧ writes.length = 8 := by
  constructor
  · have length := congrArg List.length call.reads_address
    simpa using length
  · have length := congrArg List.length call.writes_address
    simpa using length

/-- A call that skips the memory leaves the registers of the executor. -/
theorem skipBigint_eq
    (call : BigintCall state ram state' ram' events result flag reads writes) (counters : C)
    (rest : List LogEntry) :
    skipBigint (((state.withCounters counters).setPc (state.pc + 4)).touchX0 2)
        (ReplayerRam.ofEntries (events.map SnapshotEvent.logEntry ++ rest) :
          ReplayerRam romBits) =
      some (state'.withCounters counters, .ofEntries rest) := by
  rcases bigint_lengths call with ⟨readsLength, writesLength⟩
  have length : (reads ++ writes).length = 16 := by
    rw [List.length_append, readsLength, writesLength]
  rw [bigint_entries call, ← List.append_assoc, ← entriesOf_append, List.append_assoc,
    List.singleton_append, skipBigint, skipIfReplaying_entriesOf length (by decide)]
  simp only [ReplayerRam.readWord_arbitraryValue, Option.bind_eq_bind, Option.bind_some,
    guard_true]
  rw [call.state_eq]
  rfl

/-- A register access of a row: what it found and the value it left. -/
def registerData (register : Register) (writeValue : U32) : RegisterOrIndirectReadWriteData :=
  ⟨register.value, writeValue, .fromScalar register.timestamp⟩

/-- The row of a call. -/
def bigintWitness (state : State C) (reads writes : List RamAccess) (result : U256)
    (flag : U32) : DelegationWitness where
  writeTimestamp := state.timestamp ||| 3
  regAccesses :=
    [registerData (state.registers 10) (state.registers 10).value,
      registerData (state.registers 11) (state.registers 11).value,
      registerData (state.registers 12) flag]
  indirectReads := readData (wordsOf reads)
  indirectWrites := readWriteData (wordsOf writes) (wordsOfLimbs result.toList)
  variablesOffsets := []

/-- A call with its row leaves them too: the words in the log make it compute the flag
that was logged. -/
theorem bigintDelegation_eq
    (call : BigintCall state ram state' ram' events result flag reads writes) (counters : C)
    (rest : List LogEntry) (tracer : T) :
    bigintDelegation (((state.withCounters counters).setPc (state.pc + 4)).touchX0 2)
        (ReplayerRam.ofEntries (events.map SnapshotEvent.logEntry ++ rest) :
          ReplayerRam romBits) tracer =
      some (state'.withCounters counters, .ofEntries rest,
        WitnessTracer.writeDelegation bigintCsr (bigintWitness state reads writes result flag)
          tracer) := by
  rcases bigint_lengths call with ⟨readsLength, writesLength⟩
  rcases call.computed with ⟨overflow, computed, flagEq⟩
  have aWords : (wordsOf writes).map Prod.snd = ram.wordsAt (state.registers 10).value 8 :=
    wordsOf_snd call.performs call.nodup (fun _ => List.mem_append_right reads)
      call.writes_address
  have bWords : (wordsOf reads).map Prod.snd = ram.wordsAt (state.registers 11).value 8 :=
    wordsOf_snd call.performs call.nodup (fun _ => List.mem_append_left writes)
      call.reads_address
  let start := ((state.withCounters counters).setPc (state.pc + 4)).touchX0 2
  let touched := (readRegisterWithTs 3 11 (readRegisterWithTs 3 10 start).2).2
  have x12 : (touched.registers 12).value = (state.registers 12).value := rfl
  rw [bigint_entries call, List.append_assoc, List.append_assoc, List.singleton_append]
  simp only [bigintDelegation, readWords_entriesOf readsLength,
    readWords_entriesOf writesLength, ReplayerRam.readWord_arbitraryValue, aWords, bWords,
    Option.bind_eq_bind, Option.bind_some, guard_true]
  rw [x12, computed]
  simp only [Option.bind_some, ← flagEq, guard_true, call.state_eq]
  rfl

omit [Counters C] [Ruint] in
theorem cycleOrSkip_fst (needsCycleData : Bool) (csr : BitVec 16) (state : State C) (tracer : T) :
    (cycleOrSkip needsCycleData csr state tracer).1 =
      (state.setPc (state.pc + 4)).touchX0 2 := by
  cases needsCycleData <;> rfl

theorem bigintCall_replays
    (call : BigintCall state ram state' ram' events result flag reads writes) (counters : C)
    (rest : List LogEntry) (tracer : T) :
    ∃ tracer',
      bigintCall (state.withCounters counters)
          (ReplayerRam.ofEntries (events.map SnapshotEvent.logEntry ++ rest) :
            ReplayerRam romBits) tracer =
        some (state'.withCounters counters, .ofEntries rest, tracer') := by
  simp only [bigintCall, cycleOrSkip_fst]
  split
  · exact ⟨_, bigintDelegation_eq call counters rest _⟩
  · refine ⟨_, Option.map_eq_some_iff.mpr ⟨_, skipBigint_eq call counters rest, rfl⟩⟩

end Bigint

/-! ## Blake2s -/

section Blake2s

variable [Counters C] {state state' : State C} {ram ram' : RamWithRomRegion romBits}
  {events : List SnapshotEvent} {lastTimestamp registerTimestamp : TimestampScalar}
  {reads writes : List RamAccess}

/-- The time the executor gives the registers is the end of the last cycle. -/
theorem registerTimestamp_eq {last registerTimestamp : TimestampScalar}
    (aligned : last.toNat % 4 = 0) (register : checkedAdd last 3 = some registerTimestamp) :
    last ||| 3 = registerTimestamp := by
  rw [or_offset_eq_add aligned (by decide)]
  exact ((checkedAdd_eq_some_iff _ _ _).mp register).2.symm

theorem last_mod_four {numCalls : Nat} {timestamp last : TimestampScalar}
    (aligned : timestamp.toNat % 4 = 0)
    (fits : checkedAdd timestamp (batchDuration numCalls) = some last) :
    last.toNat % 4 = 0 := by
  have sum := checkedAdd_toNat fits
  have duration := batchDuration_mod numCalls
  omega

/-- The replay ends a batch in the state of the executor. -/
theorem finishBlake_afterCycles
    (call : BlakeCall state ram state' ram' events lastTimestamp registerTimestamp writes reads)
    (aligned : state.timestamp.toNat % 4 = 0) (counters : C) :
    finishBlake (Blake2s.finalX12 (state.registers 12).value)
        (afterCycles (Blake2s.numRounds (state.registers 12).value) lastTimestamp
          (state.withCounters counters)) = state'.withCounters counters := by
  have stamp := registerTimestamp_eq (last_mod_four aligned call.last) call.register
  rw [call.state_eq]
  apply State.ext
  · funext index
    simp only [finishBlake, stampRegister, afterCycles, State.touchX0, State.setRegister,
      State.setTimestamp, State.setPc, State.withCounters, finishBatch,
      State.incrementFamilyCounterBy, stamp, Function.update_apply]
    by_cases isZero : index = 0
    · rw [isZero]
      rfl
    by_cases isTwelve : index = 12
    · rw [isTwelve]
      rfl
    by_cases isEleven : index = 11
    · rw [isEleven]
      rfl
    by_cases isTen : index = 10
    · rw [isTen]
      rfl
    simp only [if_neg isZero, if_neg isTwelve, if_neg isEleven, if_neg isTen]
  · rfl
  · rfl
  · rfl

theorem add_steps_succ (timestamp : TimestampScalar) (remaining : Nat) :
    timestamp + timestampStep + BitVec.ofNat 64 remaining * timestampStep =
      timestamp + BitVec.ofNat 64 (remaining + 1) * timestampStep := by
  rw [BitVec.ofNat_add, BitVec.add_assoc, BitVec.add_mul, BitVec.add_comm timestampStep]
  rfl

/-- The time of the loop after some rounds. -/
theorem blakeRounds_currentTimestamp (x10 x11 x12 : U32) (input : Vector U32 16)
    (remaining callRound : Nat) (loop : BlakeLoop) (tracer : T) :
    (blakeRounds x10 x11 x12 input remaining callRound loop tracer).1.currentTimestamp =
      loop.currentTimestamp + BitVec.ofNat 64 remaining * timestampStep := by
  induction remaining generalizing callRound loop tracer with
  | zero => exact (BitVec.add_zero _).symm
  | succ remaining inductionHypothesis =>
      rw [blakeRounds, inductionHypothesis]
      exact add_steps_succ loop.currentTimestamp remaining

theorem currentTimestamp_sub_step {numCalls : Nat} {timestamp last : TimestampScalar}
    (positive : 0 < numCalls) (fits : checkedAdd timestamp (batchDuration numCalls) = some last) :
    timestamp + BitVec.ofNat 64 numCalls * timestampStep - timestampStep = last := by
  rcases Nat.exists_eq_succ_of_ne_zero positive.ne' with ⟨others, rfl⟩
  rw [((checkedAdd_eq_some_iff _ _ _).mp fits).2, batchDuration, Nat.succ_sub_one,
    Nat.succ_eq_add_one, BitVec.ofNat_add, BitVec.add_mul, ← BitVec.add_assoc]
  exact BitVec.add_sub_cancel _ _

theorem blake_lengths
    (call : BlakeCall state ram state' ram' events lastTimestamp registerTimestamp writes reads) :
    writes.length = 24 ∧ reads.length = 16 := by
  constructor
  · have length := congrArg List.length call.writes_address
    simpa using length
  · have length := congrArg List.length call.reads_address
    simpa using length

omit [Counters C] in
/-- The rounds one by one take the words of the call from the log and end where its
cycles do. -/
theorem blakeDelegations_eq {x12 : U32} {timestampOnEntry last : TimestampScalar}
    {cycled : State C} {log afterWords afterInput : ReplayerRam romBits}
    {words inputWords : List (TimestampScalar × U32)}
    (readState : log.readWords 24 = some (words, afterWords))
    (readInput : afterWords.readWords 16 = some (inputWords, afterInput))
    (fits : checkedAdd timestampOnEntry (batchDuration (Blake2s.numRounds x12)) = some last)
    (time : cycled.timestamp = last) (x10 x11 : U32) (tracer : T) :
    blakeDelegations timestampOnEntry x10 x11 x12 cycled log tracer =
      some (finishBlake (Blake2s.finalX12 x12) cycled, afterInput,
        (blakeRounds x10 x11 x12 (arrayOfWords 16 (inputWords.map Prod.snd))
          (Blake2s.numRounds x12) 0 (blakeStart timestampOnEntry x12 cycled words inputWords)
          tracer).2) := by
  simp only [blakeDelegations, readState, readInput, Option.bind_eq_bind, Option.bind_some]
  have ended :
      (blakeRounds x10 x11 x12 (arrayOfWords 16 (inputWords.map Prod.snd))
          (Blake2s.numRounds x12) 0 (blakeStart timestampOnEntry x12 cycled words inputWords)
          tracer).1.currentTimestamp - timestampStep = cycled.timestamp := by
    rw [blakeRounds_currentTimestamp, time]
    exact currentTimestamp_sub_step (Blake2s.numRounds_pos x12) fits
  simp only [ended, guard_true, Option.pure_def, Option.bind_some]

theorem blakeCall_replays
    (call : BlakeCall state ram state' ram' events lastTimestamp registerTimestamp writes reads)
    (aligned : state.timestamp.toNat % 4 = 0) (counters : C) (rest : List LogEntry)
    (tracer : T) :
    ∃ tracer',
      blake2RoundFunctionCall (state.withCounters counters)
          (ReplayerRam.ofEntries (events.map SnapshotEvent.logEntry ++ rest) :
            ReplayerRam romBits) tracer =
        some (state'.withCounters counters, .ofEntries rest, tracer') := by
  rcases blake_lengths call with ⟨writesLength, readsLength⟩
  have few : Blake2s.numRounds (state.registers 12).value < 2 ^ 32 :=
    Nat.lt_of_le_of_lt (Blake2s.numRounds_le_ten _) (by decide)
  have positive := Blake2s.numRounds_pos (state.registers 12).value
  have pointersNe := call.pointers_ne
  simp only [blake2RoundFunctionCall, State.withCounters_registers, call.x10_above_rom,
    call.x11_above_rom, pointersNe, call.x10_aligned, call.x11_aligned, call.accepts,
    guard_true, Option.pure_def, Option.bind_eq_bind, Option.bind_some, ne_eq,
    not_false_eq_true]
  rcases cyclesOrSkip_eq
      (WitnessTracer.needsTracingDataForCircuitFamily .shiftBinaryCsr tracer) blakeCsr
      (state.withCounters counters) tracer positive few call.last with ⟨cycled, cycles⟩
  rw [cycles, Option.bind_some]
  split
  · have entries : events.map SnapshotEvent.logEntry = entriesOf writes ++ entriesOf reads := by
      rw [call.events_eq, ← entriesOf_append]
      rfl
    have readState :
        (ReplayerRam.ofEntries (entriesOf writes ++ (entriesOf reads ++ rest)) :
          ReplayerRam romBits).readWords 24 = _ :=
      readWords_entriesOf writesLength (entriesOf reads ++ rest)
    have time :
        (afterCycles (Blake2s.numRounds (state.registers 12).value) lastTimestamp
          (state.withCounters counters)).timestamp = lastTimestamp := rfl
    have rounds :=
      blakeDelegations_eq readState (readWords_entriesOf readsLength rest) call.last time
        (state.registers 10).value (state.registers 11).value cycled
    rw [finishBlake_afterCycles call aligned counters] at rounds
    rw [entries, List.append_assoc]
    exact ⟨_, rounds⟩
  · have length : (writes ++ reads).length = 24 + 16 := by
      rw [List.length_append, writesLength, readsLength]
    have skipped :
        (ReplayerRam.ofEntries (events.map SnapshotEvent.logEntry ++ rest) :
            ReplayerRam romBits).skipIfReplaying (24 + 16) = some (.ofEntries rest) := by
      rw [call.events_eq]
      exact skipIfReplaying_entriesOf length (by decide) rest
    rw [skipped, Option.bind_some, finishBlake_afterCycles call aligned counters]
    exact ⟨cycled, rfl⟩

end Blake2s

/-! ## Keccak -/

section Keccak

/-- The row of step `count` of a call. -/
def scheduledRow (x11 : U32) (count : Nat) (loop : KeccakLoop) : DelegationWitness :=
  let writeTs := loop.currentTimestamp ||| 3
  let positions := Keccak.positionsAt count
  let stateInputs := fun j => loop.localState.get (positions j)
  let stateOutputs :=
    (Keccak.stageAt count).outputs (Keccak.roundConstant (Keccak.roundAt count)) stateInputs
  { writeTimestamp := writeTs
    regAccesses :=
      [⟨loop.controlFlowReg, Keccak.scheduledControl (count + 1),
          .fromScalar loop.x10Timestamp⟩,
        ⟨x11, x11, .fromScalar loop.x11Timestamp⟩]
    indirectReads := []
    indirectWrites := (List.finRange 6).flatMap fun j =>
      [⟨lowWord (stateInputs j), lowWord (stateOutputs j),
          .fromScalar (loop.lowTimestamps.get (positions j))⟩,
        ⟨highWord (stateInputs j), highWord (stateOutputs j),
          .fromScalar (loop.highTimestamps.get (positions j))⟩]
    variablesOffsets := (List.finRange 6).map fun j => BitVec.ofNat 16 (positions j).val }

/-- The loop after step `count` of a call. -/
def scheduledLoop (count : Nat) (loop : KeccakLoop) : KeccakLoop :=
  let writeTs := loop.currentTimestamp ||| 3
  { currentTimestamp := loop.currentTimestamp + timestampStep
    controlFlowReg := Keccak.scheduledControl (count + 1)
    x10Timestamp := writeTs
    x11Timestamp := writeTs
    localState := Keccak.scheduledStep count loop.localState
    lowTimestamps :=
      Keccak.scatter loop.lowTimestamps (Keccak.positionsAt count) fun _ => writeTs
    highTimestamps :=
      Keccak.scatter loop.highTimestamps (Keccak.positionsAt count) fun _ => writeTs }

theorem keccakStep_scheduled (x11 : U32) {count : Nat} (inRun : count < 649)
    {loop : KeccakLoop} (control : loop.controlFlowReg = Keccak.scheduledControl count) :
    keccakStep x11 loop = some (scheduledRow x11 count loop, scheduledLoop count loop) := by
  have bounded := Keccak.roundAt_add_afterPi_lt inRun
  have inRounds : Keccak.roundAt count < 25 := by
    omega
  have decoded := Keccak.decodeControl_encodeControl (Keccak.stageAt count) inRounds
  have indices := Keccak.extractIndices_stage (Keccak.stageAt count) bounded
  have outputs := Keccak.computeOutputs_stage (Keccak.stageAt count) inRounds
  have checked := Keccak.boundsCheck_val (Keccak.positionsAt count)
  have bumped := Keccak.bumpControl_scheduled count
  have sameIndices :
      (fun j => (Keccak.physicalPositions (Keccak.stageAt count) (Keccak.roundAt count) j).val) =
        fun j => (Keccak.positionsAt count j).val := rfl
  rw [keccakStep, control, Keccak.scheduledControl, decoded]
  simp only [bumped, indices, sameIndices, checked, outputs, Option.bind_eq_bind,
    Option.bind_some]
  rw [scheduledRow, control]
  rfl

/-- The steps from `count` on, `remaining` of them, along the schedule. -/
def scheduledSteps (x11 : U32) : Nat → Nat → KeccakLoop → T → KeccakLoop × T
  | 0, _, loop, tracer => (loop, tracer)
  | remaining + 1, count, loop, tracer =>
      scheduledSteps x11 remaining (count + 1) (scheduledLoop count loop)
        (WitnessTracer.writeDelegation keccakCsr (scheduledRow x11 count loop) tracer)

theorem keccakSteps_scheduled (x11 : U32) {remaining count : Nat}
    (inRun : count + remaining ≤ 649) {loop : KeccakLoop} (tracer : T)
    (control : loop.controlFlowReg = Keccak.scheduledControl count) :
    keccakSteps x11 remaining loop tracer =
      some (scheduledSteps x11 remaining count loop tracer) := by
  induction remaining generalizing count loop tracer with
  | zero => rfl
  | succ remaining inductionHypothesis =>
      have here : count < 649 := by
        omega
      have after : count + 1 + remaining ≤ 649 := by
        omega
      rw [keccakSteps, keccakStep_scheduled x11 here control]
      exact inductionHypothesis after _ rfl

theorem scheduledSteps_currentTimestamp (x11 : U32) (remaining count : Nat)
    (loop : KeccakLoop) (tracer : T) :
    (scheduledSteps x11 remaining count loop tracer).1.currentTimestamp =
      loop.currentTimestamp + BitVec.ofNat 64 remaining * timestampStep := by
  induction remaining generalizing count loop tracer with
  | zero => exact (BitVec.add_zero _).symm
  | succ remaining inductionHypothesis =>
      rw [scheduledSteps, inductionHypothesis]
      exact add_steps_succ loop.currentTimestamp remaining

theorem keccakDelegations_eq {timestampOnEntry last : TimestampScalar}
    {cycled : State C} {log afterWords : ReplayerRam romBits}
    {words : List (TimestampScalar × U32)}
    (readState : log.readWords 62 = some (words, afterWords))
    (fits : checkedAdd timestampOnEntry (batchDuration numDelegationCallsForKeccakF1600) =
      some last)
    (time : cycled.timestamp = last) (x11 : U32) (tracer : T) :
    keccakDelegations timestampOnEntry initialKeccakF1600ControlValue x11 cycled log tracer =
      some (finishKeccak cycled, afterWords,
        (scheduledSteps x11 numDelegationCallsForKeccakF1600 0
          (keccakStart timestampOnEntry initialKeccakF1600ControlValue cycled words)
          tracer).2) := by
  have inRun : 0 + numDelegationCallsForKeccakF1600 ≤ 649 := Nat.le_refl 649
  have control :
      (keccakStart timestampOnEntry initialKeccakF1600ControlValue cycled
        words).controlFlowReg = Keccak.scheduledControl 0 := rfl
  have steps := keccakSteps_scheduled x11 inRun tracer control
  simp only [keccakDelegations, readState, steps, Option.bind_eq_bind, Option.bind_some]
  have ended :
      (scheduledSteps x11 numDelegationCallsForKeccakF1600 0
          (keccakStart timestampOnEntry initialKeccakF1600ControlValue cycled words)
          tracer).1.currentTimestamp - timestampStep = cycled.timestamp := by
    rw [scheduledSteps_currentTimestamp, time]
    exact currentTimestamp_sub_step (by decide) fits
  simp only [ended, guard_true, Option.pure_def, Option.bind_some]

variable [Counters C] {state state' : State C} {ram ram' : RamWithRomRegion romBits}
  {events : List SnapshotEvent} {lastTimestamp registerTimestamp : TimestampScalar}
  {writes : List RamAccess}

/-- The replay ends a batch in the state of the executor. -/
theorem finishKeccak_afterCycles
    (call : KeccakCall state ram state' ram' events lastTimestamp registerTimestamp writes)
    (aligned : state.timestamp.toNat % 4 = 0) (counters : C) :
    finishKeccak
        (afterCycles numDelegationCallsForKeccakF1600 lastTimestamp
          (state.withCounters counters)) = state'.withCounters counters := by
  have stamp := registerTimestamp_eq (last_mod_four aligned call.last) call.register
  rw [call.state_eq]
  apply State.ext
  · funext index
    simp only [finishKeccak, stampRegister, afterCycles, State.touchX0, State.setRegister,
      State.setTimestamp, State.setPc, State.withCounters, finishBatch,
      State.incrementFamilyCounterBy, stamp, Function.update_apply]
    by_cases isZero : index = 0
    · rw [isZero]
      rfl
    by_cases isEleven : index = 11
    · rw [isEleven]
      rfl
    by_cases isTen : index = 10
    · rw [isTen]
      rfl
    simp only [if_neg isZero, if_neg isEleven, if_neg isTen]
  · rfl
  · rfl
  · rfl

theorem keccakCall_replays
    (call : KeccakCall state ram state' ram' events lastTimestamp registerTimestamp writes)
    (aligned : state.timestamp.toNat % 4 = 0) (counters : C) (rest : List LogEntry)
    (tracer : T) :
    ∃ tracer',
      keccakSpecial5Call (state.withCounters counters)
          (ReplayerRam.ofEntries (events.map SnapshotEvent.logEntry ++ rest) :
            ReplayerRam romBits) tracer =
        some (state'.withCounters counters, .ofEntries rest, tracer') := by
  have writesLength : writes.length = 62 := by
    have length := congrArg List.length call.writes_address
    simpa using length
  have entries : events.map SnapshotEvent.logEntry = entriesOf writes := by
    rw [call.events_eq]
    rfl
  have inRange : initialKeccakF1600ControlValue < (1 : U32) <<< 11 := by
    decide
  have finished := finishKeccak_afterCycles call aligned counters
  simp only [keccakSpecial5Call, State.withCounters_registers, call.x11_above_rom,
    call.x10_initial, call.x11_aligned, inRange, guard_true, Option.pure_def,
    Option.bind_eq_bind, Option.bind_some]
  rcases cyclesOrSkip_eq
      (WitnessTracer.needsTracingDataForCircuitFamily .shiftBinaryCsr tracer) keccakCsr
      (state.withCounters counters) tracer (by decide) (by decide) call.last with
    ⟨cycled, cycles⟩
  have expected :
      checkedAdd (state.withCounters counters).timestamp
        (batchDuration numDelegationCallsForKeccakF1600) = some lastTimestamp := call.last
  have time :
      (afterCycles numDelegationCallsForKeccakF1600 lastTimestamp
        (state.withCounters counters)).timestamp = lastTimestamp := rfl
  rw [cycles, Option.bind_some, expected, Option.bind_some]
  simp only [time, guard_true, Option.pure_def, Option.bind_some]
  split
  · have readState :
        (ReplayerRam.ofEntries (entriesOf writes ++ rest) : ReplayerRam romBits).readWords 62 =
          _ :=
      readWords_entriesOf writesLength rest
    have steps :=
      keccakDelegations_eq readState call.last time (state.registers 11).value cycled
    rw [finished] at steps
    rw [entries]
    exact ⟨_, steps⟩
  · rw [entries, skipIfReplaying_entriesOf writesLength (by decide), Option.bind_some, finished]
    exact ⟨cycled, rfl⟩

end Keccak

end Airbender.Replayer
