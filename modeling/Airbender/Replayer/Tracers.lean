import Airbender.Replayer.RunRows

/-!
# Tracers

A tracer that needs only some of the data sees exactly those rows of the full trace that it needs.
Whether it needs the machine cycles or the delegations of a call, the replay leaves the same state
and takes the same entries from the log.
-/

namespace Airbender

/-! ## Offered rows -/

/-- The families whose circuits access the RAM. -/
def CircuitFamily.IsMemory (family : CircuitFamily) : Prop :=
  family = .loadStoreWordOnly ∨ family = .loadStoreSubwordOnly

/-- Rows of memory opcodes belong to the memory families, those of the others to the others. -/
def TraceRow.Fits : TraceRow → Prop
  | nonMemory family _ => ¬ family.IsMemory
  | memory family _ => family.IsMemory
  | delegation _ _ => True

namespace WitnessTracer

section Offers

variable {T : Type} [WitnessTracer T]

/-- A row of the full trace: the tracer takes it if it needs it. -/
def offer (tracer : T) : TraceRow → T
  | .nonMemory family data => traceNonMemory family data tracer
  | .memory family data => traceMemory family data tracer
  | .delegation delegationType witness =>
      if needsTracingDataForDelegationType delegationType tracer then
        writeDelegation delegationType witness tracer
      else
        tracer

def offerAll (tracer : T) (rows : List TraceRow) : T :=
  rows.foldl offer tracer

theorem offerAll_append (tracer : T) (rows more : List TraceRow) :
    offerAll tracer (rows ++ more) = offerAll (offerAll tracer rows) more :=
  List.foldl_append

/-- The tracer that keeps everything. -/
theorem offerAll_rows (before rows : List TraceRow) : offerAll before rows = before ++ rows := by
  induction rows generalizing before with
  | nil => exact (List.append_nil before).symm
  | cons row rows inductionHypothesis =>
      have kept : offer before row = before ++ [row] := by
        cases row <;> rfl
      rw [offerAll, List.foldl_cons, kept]
      exact (inductionHypothesis _).trans (List.append_assoc _ _ _)

end Offers

end WitnessTracer

open WitnessTracer

/-- A tracer that needs the same data all along. -/
class SteadyTracer (T : Type) [WitnessTracer T] : Prop where
  needsFamily (family : CircuitFamily) (tracer : T) (row : TraceRow) :
    needsTracingDataForCircuitFamily family (offer tracer row) =
      needsTracingDataForCircuitFamily family tracer
  needsDelegation (delegationType : BitVec 16) (tracer : T) (row : TraceRow) :
    needsTracingDataForDelegationType delegationType (offer tracer row) =
      needsTracingDataForDelegationType delegationType tracer

instance : SteadyTracer (List TraceRow) where
  needsFamily := fun _ _ _ => rfl
  needsDelegation := fun _ _ _ => rfl

namespace SteadyTracer

variable {T : Type} [WitnessTracer T] [SteadyTracer T]

theorem needsDelegation_offerAll (delegationType : BitVec 16) (tracer : T)
    (rows : List TraceRow) :
    needsTracingDataForDelegationType delegationType (offerAll tracer rows) =
      needsTracingDataForDelegationType delegationType tracer := by
  induction rows generalizing tracer with
  | nil => rfl
  | cons row rows inductionHypothesis =>
      exact (inductionHypothesis _).trans (needsDelegation delegationType tracer row)

/-- The tracer takes all rows of a family or none. -/
theorem offerAll_nonMemory (family : CircuitFamily)
    (rows : List NonMemoryOpcodeTracingDataWithTimestamp) (tracer : T) :
    offerAll tracer (rows.map (TraceRow.nonMemory family)) =
      if needsTracingDataForCircuitFamily family tracer then
        rows.foldl (fun tracer row => writeNonMemoryFamilyData family row tracer) tracer
      else
        tracer := by
  induction rows generalizing tracer with
  | nil => exact (ite_self tracer).symm
  | cons row rows inductionHypothesis =>
      have same := needsFamily family tracer (.nonMemory family row)
      have step : offer tracer (.nonMemory family row) =
          if needsTracingDataForCircuitFamily family tracer then
            writeNonMemoryFamilyData family row tracer
          else
            tracer := rfl
      refine (inductionHypothesis _).trans ?_
      rw [same, step]
      split <;> rfl

/-- The tracer takes all rows of a delegation or none. -/
theorem offerAll_delegations (delegationType : BitVec 16) (witnesses : List DelegationWitness)
    (tracer : T) :
    offerAll tracer (witnesses.map (TraceRow.delegation delegationType)) =
      if needsTracingDataForDelegationType delegationType tracer then
        witnesses.foldl (fun tracer witness => writeDelegation delegationType witness tracer)
          tracer
      else
        tracer := by
  induction witnesses generalizing tracer with
  | nil => exact (ite_self tracer).symm
  | cons witness witnesses inductionHypothesis =>
      have same := needsDelegation delegationType tracer (.delegation delegationType witness)
      have step : offer tracer (.delegation delegationType witness) =
          if needsTracingDataForDelegationType delegationType tracer then
            writeDelegation delegationType witness tracer
          else
            tracer := rfl
      refine (inductionHypothesis _).trans ?_
      rw [same, step]
      split <;> rfl

end SteadyTracer

namespace Replayer

open Bigint Vm

variable {C : Type} {romBits : Nat} {T : Type} [WitnessTracer T]

/-! ## Rows of a call -/

section Calls

/-- The rows of the cycles of a batch. -/
def cyclesData (csr : BitVec 16) : Nat → State C → List NonMemoryOpcodeTracingDataWithTimestamp
  | 0, _ => []
  | remaining + 1, state =>
      nonMemoryRow state (0, (state.registers 0).timestamp) (0, state.timestamp)
          (0, 0, state.timestamp ||| 1) (state.pc + 4) csr ::
        cyclesData csr remaining
          (((state.touchX0 2).setPc (state.pc + 4)).setTimestamp
            (state.timestamp + timestampStep))

theorem cyclesData_withCounters (csr : BitVec 16) (count : Nat) (state : State C) (counters : C) :
    cyclesData csr count (state.withCounters counters) = cyclesData csr count state := by
  induction count generalizing state with
  | zero => rfl
  | succ count inductionHypothesis =>
      exact congrArg (List.cons _) (inductionHypothesis
        (((state.touchX0 2).setPc (state.pc + 4)).setTimestamp (state.timestamp + timestampStep)))

theorem delegationCycles_data {csr : BitVec 16} {count : Nat} {state state' : State C}
    {tracer tracer' : T}
    (cycles : delegationCycles csr count state tracer = some (state', tracer')) :
    tracer' = (cyclesData csr count state).foldl
      (fun tracer row => WitnessTracer.writeNonMemoryFamilyData .shiftBinaryCsr row tracer)
      tracer := by
  induction count generalizing state tracer with
  | zero => exact (Prod.mk.inj (Option.some.inj cycles)).2.symm
  | succ remaining inductionHypothesis =>
      simp only [delegationCycles, Option.bind_eq_bind, Option.bind_eq_some_iff] at cycles
      rcases cycles with ⟨next, moved, rest⟩
      have later := inductionHypothesis rest
      rw [stepUnlessLast] at moved
      split at moved
      · next isLast =>
          rw [isLast] at later ⊢
          exact later
      · simp only [State.advance, Option.bind_eq_bind, Option.bind_eq_some_iff,
          Option.some.injEq] at moved
        rcases moved with ⟨timestamp, added, rfl⟩
        have sum := ((checkedAdd_eq_some_iff _ _ _).mp added).2
        rw [sum] at later
        exact later

variable [SteadyTracer T]

omit [SteadyTracer T] [WitnessTracer T] in
theorem not_isMemory_shiftBinaryCsr : ¬ CircuitFamily.IsMemory .shiftBinaryCsr := by
  rintro (isWord | isSubword)
  · cases isWord
  · cases isSubword

omit [SteadyTracer T] [WitnessTracer T] in
/-- The rows of a call: its cycles and its delegations. -/
theorem fits_call (csr : BitVec 16) (cycles : List NonMemoryOpcodeTracingDataWithTimestamp)
    (witnesses : List DelegationWitness) :
    ∀ row ∈ cycles.map (TraceRow.nonMemory .shiftBinaryCsr) ++
      witnesses.map (TraceRow.delegation csr), row.Fits := by
  intro row member
  rcases List.mem_append.mp member with inCycles | inDelegations
  · rcases List.mem_map.mp inCycles with ⟨data, _, rfl⟩
    exact not_isMemory_shiftBinaryCsr
  · rcases List.mem_map.mp inDelegations with ⟨witness, _, rfl⟩
    trivial

omit [SteadyTracer T] [WitnessTracer T] in
theorem fits_singleton {row : TraceRow} (fits : row.Fits) : ∀ other ∈ [row], other.Fits := by
  intro other member
  rw [List.mem_singleton.mp member]
  exact fits

/-- With rows or without, the cycles offer the same rows. -/
theorem cyclesOrSkip_offers (csr : BitVec 16) {numCalls : Nat} {last : TimestampScalar}
    (state : State C) (tracer : T) (positive : 0 < numCalls) (small : numCalls < 2 ^ 32)
    (fits : checkedAdd state.timestamp (batchDuration numCalls) = some last) (counters : C) :
    cyclesOrSkip (needsTracingDataForCircuitFamily .shiftBinaryCsr tracer) csr numCalls
        (state.withCounters counters) tracer =
      some (afterCycles numCalls last (state.withCounters counters),
        offerAll tracer
          ((cyclesData csr numCalls state).map (TraceRow.nonMemory .shiftBinaryCsr))) := by
  rcases cyclesOrSkip_eq (needsTracingDataForCircuitFamily .shiftBinaryCsr tracer) csr
    (state.withCounters counters) tracer positive small fits with ⟨tracer', cycles⟩
  rw [cycles, SteadyTracer.offerAll_nonMemory]
  rw [cyclesOrSkip] at cycles
  split at cycles
  · next needed =>
      have data := delegationCycles_data cycles
      rw [cyclesData_withCounters] at data
      rw [if_pos needed, data]
  · next notNeeded =>
      rcases Option.map_eq_some_iff.mp cycles with ⟨_, _, same⟩
      rw [if_neg notNeeded, (Prod.mk.inj same).2]

omit [SteadyTracer T] in
theorem cycleOrSkip_offers (csr : BitVec 16) (state : State C) (tracer : T) (counters : C) :
    cycleOrSkip (needsTracingDataForCircuitFamily .shiftBinaryCsr tracer) csr
        (state.withCounters counters) tracer =
      (((state.withCounters counters).setPc (state.pc + 4)).touchX0 2,
        offer tracer (cycleRow csr state)) := by
  have step : offer tracer (cycleRow csr state) =
      if needsTracingDataForCircuitFamily .shiftBinaryCsr tracer then
        (delegationCycle csr (state.withCounters counters) tracer).2
      else
        tracer := rfl
  rw [cycleOrSkip, step]
  split <;> rfl

/-- The rows of the rounds of a call. -/
def blakeRoundsData (x10 x11 x12 : U32) (input : Vector U32 16) :
    Nat → Nat → BlakeLoop → List DelegationWitness
  | 0, _, _ => []
  | remaining + 1, callRound, loop =>
      let (witness, loop) := blakeRound x10 x11 x12 input callRound loop
      witness :: blakeRoundsData x10 x11 x12 input remaining (callRound + 1) loop

omit [SteadyTracer T] in
theorem blakeRounds_data (x10 x11 x12 : U32) (input : Vector U32 16) (remaining callRound : Nat)
    (loop : BlakeLoop) (tracer : T) :
    (blakeRounds x10 x11 x12 input remaining callRound loop tracer).2 =
      (blakeRoundsData x10 x11 x12 input remaining callRound loop).foldl
        (fun tracer witness => writeDelegation blakeCsr witness tracer) tracer := by
  induction remaining generalizing callRound loop tracer with
  | zero => rfl
  | succ remaining inductionHypothesis =>
      rw [blakeRounds, inductionHypothesis]
      rfl

/-- The rows of the steps of a call along the schedule. -/
def scheduledStepsData (x11 : U32) : Nat → Nat → KeccakLoop → List DelegationWitness
  | 0, _, _ => []
  | remaining + 1, count, loop =>
      scheduledRow x11 count loop ::
        scheduledStepsData x11 remaining (count + 1) (scheduledLoop count loop)

omit [SteadyTracer T] in
theorem scheduledSteps_data (x11 : U32) (remaining count : Nat) (loop : KeccakLoop) (tracer : T) :
    (scheduledSteps x11 remaining count loop tracer).2 =
      (scheduledStepsData x11 remaining count loop).foldl
        (fun tracer witness => writeDelegation keccakCsr witness tracer) tracer := by
  induction remaining generalizing count loop tracer with
  | zero => rfl
  | succ remaining inductionHypothesis =>
      rw [scheduledSteps, inductionHypothesis]
      rfl

end Calls

/-! ## Handlers -/

section Handlers

variable [Counters C] {state state' : State C} {ram ram' : RamWithRomRegion romBits}
  {instr : Instruction} {events : List SnapshotEvent}

/-- A handler that leaves a state, takes the entries of `events` from any log and offers the rows
to any tracer that needs the same data all along. -/
structure Offers (state' : State C) (events : List SnapshotEvent) (rows : List TraceRow)
    (handled : ∀ {T : Type} [WitnessTracer T], C → ReplayerRam romBits → T →
      Option (Replay C romBits T)) : Prop where
  run : ∀ {T : Type} [WitnessTracer T] [SteadyTracer T] (counters : C) (rest : List LogEntry)
    (log : ReplayerRam romBits), log.Holds (events.map SnapshotEvent.logEntry ++ rest) →
    ∀ tracer : T, ∃ log',
      handled counters log tracer =
          some ⟨state'.withCounters counters, log', offerAll tracer rows⟩ ∧
        log'.Holds rest

variable {rows : List TraceRow}
  {handled : ∀ {T : Type} [WitnessTracer T], C → ReplayerRam romBits → T →
    Option (Replay C romBits T)}

omit [Counters C] in
/-- The handlers without entries leave the log alone. -/
theorem Offers.of_onState
    (handles : ∀ {T : Type} [WitnessTracer T] [SteadyTracer T] (counters : C)
      (log : ReplayerRam romBits) (tracer : T),
      handled counters log tracer =
        some ⟨state'.withCounters counters, log, offerAll tracer rows⟩) :
    Offers state' [] rows handled where
  run := fun counters _ log holds tracer => ⟨log, handles counters log tracer, holds⟩

omit [Counters C] in
/-- The other handlers take their entries from the front of the log. -/
theorem Offers.of_onLog (reports : events ≠ [])
    (handles : ∀ {T : Type} [WitnessTracer T] [SteadyTracer T] (counters : C)
      (rest : List LogEntry) (tracer : T),
      handled counters (.ofEntries (events.map SnapshotEvent.logEntry ++ rest)) tracer =
        some ⟨state'.withCounters counters, .ofEntries rest, offerAll tracer rows⟩) :
    Offers state' events rows handled where
  run := by
    intro T _ _ counters rest log holds tracer
    rw [holds_front holds reports]
    exact ⟨.ofEntries rest, handles counters rest tracer, ReplayerRam.holds_ofEntries rest⟩

/-- The row of a branch. -/
def branchRow (shouldJump : Bool) (state : State C) (instr : Instruction) : TraceRow :=
  let (rs1, state) := readRegisterWithTs 0 instr.rs1 state
  let (rs2, state) := readRegisterWithTs 1 instr.rs2 state
  let ((_, rdOldValue, rdTs), state) := writeRegisterWithTs 2 0 0 state
  .nonMemory .jumpBranchSlt
    (nonMemoryRow state rs1 rs2 (0, rdOldValue, rdTs)
      (if shouldJump then state.pc + instr.imm else state.pc + 4) 0)

theorem branch_offers (branched : Vm.branch state instr = some state') :
    ∃ row : TraceRow, row.Fits ∧ ∀ {T : Type} [WitnessTracer T] (counters : C) (tracer : T),
      branch (state.withCounters counters) instr tracer =
        some (state'.withCounters counters, offer tracer row) := by
  rcases branch_eq_some branched with ⟨shouldJump, taken, rfl⟩
  have fits : (branchRow shouldJump state instr).Fits := by
    rintro (isWord | isSubword)
    · cases isWord
    · cases isSubword
  refine ⟨branchRow shouldJump state instr, fits, fun counters tracer => ?_⟩
  have first :
      (readRegisterWithTs 0 instr.rs1 (state.withCounters counters)).1.1 =
        (state.registers instr.rs1).value := rfl
  have second :
      (readRegisterWithTs 1 instr.rs2
        (readRegisterWithTs 0 instr.rs1 (state.withCounters counters)).2).1.1 =
          (state.registers instr.rs2).value :=
    State.readRegister_value 0 instr.rs1 instr.rs2 state
  simp only [branch, first, second, taken, Option.bind_eq_bind, Option.bind_some]
  rfl

/-- The row of a load that found a word. -/
def loadRow (romBits : Nat) (family : CircuitFamily) (address : U32) (value : U32 → U32)
    (rs1 : U32 × TimestampScalar) (rdIndex : RegisterIndex) (state : State C)
    (found : TimestampScalar × U32) : TraceRow :=
  let ((rd, rdOldValue, rdTs), state) := writeRegisterWithTs 2 rdIndex (value found.2) state
  .memory family
    { opcodeData :=
        .load
          { initialPc := state.pc
            rs1Value := rs1.1
            alignedRamAddress := address
            alignedRamReadValue := ReplayerRam.maskReadForWitness romBits address found.2
            rdOldValue := rdOldValue
            rdValue := rd }
      rs1ReadTimestamp := .fromScalar rs1.2
      rs2OrRamReadTimestamp := .fromScalar found.1
      rdOrRamReadTimestamp := .fromScalar rdTs
      cycleTimestamp := .fromScalar state.timestamp }

theorem loadOp_offers {family : CircuitFamily} {size : U32} {value : U32 → U32 → U32}
    (loaded : Vm.loadOp family size value state ram instr = some (state', ram', events))
    (isMemory : family.IsMemory) :
    ∃ row : TraceRow, row.Fits ∧
      ∀ {T : Type} [WitnessTracer T] (counters : C) (rest : List LogEntry) (tracer : T),
        loadOp family size value (state.withCounters counters)
            (ReplayerRam.ofEntries (events.map SnapshotEvent.logEntry ++ rest) :
              ReplayerRam romBits) instr tracer =
          some (state'.withCounters counters, .ofEntries rest, offer tracer row) := by
  rcases loadOp_eq_some loaded with ⟨readTimestamp, word, _, _, _, rfl, rfl⟩
  let address := (state.registers instr.rs1).value + instr.imm
  let access : RamAccess :=
    ⟨alignedAddress address, ⟨readTimestamp, word⟩, ⟨state.timestamp ||| 1, word⟩⟩
  let rs1 := readRegisterWithTs 0 instr.rs1 state
  refine ⟨loadRow romBits family (accessAddress size address) (value address) rs1.1 instr.rd rs1.2
    (readTimestamp, word), isMemory, fun counters rest tracer => ?_⟩
  have read :
      (ReplayerRam.ofEntries (access.event.logEntry :: rest) : ReplayerRam romBits).readWord =
        some ((readTimestamp, word), .ofEntries rest) :=
    ReplayerRam.readWord_event access rest
  have entries :
      List.map SnapshotEvent.logEntry
          [.memoryRead (alignedAddress address) word readTimestamp (state.timestamp ||| 1)] ++
        rest = access.event.logEntry :: rest := rfl
  rw [entries]
  simp only [loadOp, finishLoad, read, Option.bind_eq_bind, Option.bind_some]
  rfl

/-- The row of a store that overwrote a word. -/
def storeRow (family : CircuitFamily) (address newValue : U32) (rs1 rs2 : U32 × TimestampScalar)
    (state : State C) (found : TimestampScalar × U32) : TraceRow :=
  .memory family
    { opcodeData :=
        .store
          { initialPc := state.pc
            rs1Value := rs1.1
            alignedRamAddress := address
            alignedRamOldValue := found.2
            rs2Value := rs2.1
            alignedRamWriteValue := newValue }
      rs1ReadTimestamp := .fromScalar rs1.2
      rs2OrRamReadTimestamp := .fromScalar rs2.2
      rdOrRamReadTimestamp := .fromScalar found.1
      cycleTimestamp := .fromScalar state.timestamp }

theorem storeOp_offers {family : CircuitFamily} {size : U32}
    {newWord : U32 → U32 → U32 → Option U32}
    (stored : Vm.storeOp family size newWord state ram instr = some (state', ram', events))
    (isMemory : family.IsMemory) :
    ∃ row : TraceRow, row.Fits ∧
      ∀ {T : Type} [WitnessTracer T] (counters : C) (rest : List LogEntry) (tracer : T),
        storeOp family size newWord (state.withCounters counters)
            (ReplayerRam.ofEntries (events.map SnapshotEvent.logEntry ++ rest) :
              ReplayerRam romBits) instr tracer =
          some (state'.withCounters counters, .ofEntries rest, offer tracer row) := by
  rcases storeOp_eq_some stored with
    ⟨readTimestamp, oldValue, word, computed, _, _, _, _, rfl, rfl⟩
  let address := (state.registers instr.rs1).value + instr.imm
  let access : RamAccess :=
    ⟨alignedAddress address, ⟨readTimestamp, oldValue⟩, ⟨state.timestamp ||| 2, word⟩⟩
  let rs1 := readRegisterWithTs 0 instr.rs1 state
  let rs2 := readRegisterWithTs 1 instr.rs2 rs1.2
  refine ⟨storeRow family (accessAddress size address) word rs1.1
    ((state.registers instr.rs2).value, rs2.1.2) rs2.2 (readTimestamp, oldValue), isMemory,
    fun counters rest tracer => ?_⟩
  have peeked :
      (ReplayerRam.ofEntries (access.event.logEntry :: rest) : ReplayerRam romBits).peekWord =
        some oldValue :=
    ReplayerRam.peekWord_event access rest
  have read :
      (ReplayerRam.ofEntries (access.event.logEntry :: rest) : ReplayerRam romBits).readWord =
        some ((readTimestamp, oldValue), .ofEntries rest) :=
    ReplayerRam.readWord_event access rest
  have first :
      (readRegisterWithTs 0 instr.rs1 (state.withCounters counters)).1.1 =
        (state.registers instr.rs1).value := rfl
  have second :
      (readRegisterWithTs 1 instr.rs2
        (readRegisterWithTs 0 instr.rs1 (state.withCounters counters)).2).1.1 =
          (state.registers instr.rs2).value :=
    State.readRegister_value 0 instr.rs1 instr.rs2 state
  have entries :
      List.map SnapshotEvent.logEntry
          [.memoryRead (alignedAddress address) oldValue readTimestamp
            (state.timestamp ||| 2)] ++ rest = access.event.logEntry :: rest := rfl
  rw [entries]
  simp only [storeOp, peeked, first, second, computed, finishStore, read, Option.bind_eq_bind,
    Option.bind_some]
  rfl

/-- The row of a read from the non-determinism source. -/
def ndReadRow (state : State C) (instr : Instruction) (value : U32) : TraceRow :=
  let (rs1Ts, state) := touchX0WithTs 0 state
  let (rs2Ts, state) := touchX0WithTs 1 state
  let (rd, state) := writeRegisterWithTs 2 instr.rd value state
  .nonMemory .shiftBinaryCsr
    (nonMemoryRow state (0, rs1Ts) (0, rs2Ts) rd (state.pc + 4) (nonDeterminismCsr.setWidth 16))

theorem ndRead_offers {ND : Type} [NonDeterminismCSRSource ND] {nd nd' : ND}
    (read : Vm.ndRead state nd instr = some (state', nd', events)) :
    ∃ row : TraceRow, row.Fits ∧
      ∀ {T : Type} [WitnessTracer T] (counters : C) (rest : List LogEntry) (tracer : T),
        ndRead (state.withCounters counters)
            (ReplayerRam.ofEntries (events.map SnapshotEvent.logEntry ++ rest) :
              ReplayerRam romBits) instr tracer =
          some (state'.withCounters counters, .ofEntries rest, offer tracer row) := by
  rcases ndRead_eq_some read with ⟨value, rfl, rfl⟩
  refine ⟨ndReadRow state instr value, not_isMemory_shiftBinaryCsr,
    fun counters rest tracer => ?_⟩
  have taken :
      (ReplayerRam.ofEntries
          ([SnapshotEvent.arbitraryValue value].map SnapshotEvent.logEntry ++ rest) :
        ReplayerRam romBits).readWord = some ((0, value), .ofEntries rest) :=
    ReplayerRam.readWord_arbitraryValue value rest
  have touched := touchX0_touchX0 0 1 (state.withCounters counters)
  have start :
      (touchX0WithTs 1 (touchX0WithTs 0 (state.withCounters counters)).2).2 =
        (state.withCounters counters).touchX0 1 := touched
  have same :
      (touchX0WithTs 1 (touchX0WithTs 0 state).2).2 = state.touchX0 1 :=
    touchX0_touchX0 0 1 state
  simp only [ndRead, taken, start, ndReadRow, same, Option.bind_eq_bind, Option.bind_some,
    guard_true]
  rfl

end Handlers

/-! ## Delegation calls -/

section Delegations

variable [Counters C] {state state' : State C} {ram ram' : RamWithRomRegion romBits}
  {instr : Instruction} {events : List SnapshotEvent}

theorem bigintCall_offers [Ruint] {result : U256} {flag : U32} {reads writes : List RamAccess}
    (call : BigintCall state ram state' ram' events result flag reads writes) :
    ∃ rows : List TraceRow, (∀ row ∈ rows, row.Fits) ∧
      ∀ {T : Type} [WitnessTracer T] [SteadyTracer T] (counters : C) (rest : List LogEntry)
        (tracer : T),
        bigintCall (state.withCounters counters)
            (ReplayerRam.ofEntries (events.map SnapshotEvent.logEntry ++ rest) :
              ReplayerRam romBits) tracer =
          some (state'.withCounters counters, .ofEntries rest, offerAll tracer rows) := by
  let witness := bigintWitness state reads writes result flag
  refine ⟨[cycleRow bigintCsr state, .delegation bigintCsr witness],
    fits_call bigintCsr [_] [witness], fun counters rest tracer => ?_⟩
  have same := SteadyTracer.needsDelegation bigintCsr tracer (cycleRow bigintCsr state)
  have step : offerAll tracer [cycleRow bigintCsr state, .delegation bigintCsr witness] =
      if needsTracingDataForDelegationType bigintCsr
          (offer tracer (cycleRow bigintCsr state)) then
        writeDelegation bigintCsr witness (offer tracer (cycleRow bigintCsr state))
      else
        offer tracer (cycleRow bigintCsr state) := rfl
  rw [step, same]
  simp only [bigintCall, cycleOrSkip_offers]
  split
  · exact bigintDelegation_eq call counters rest _
  · exact Option.map_eq_some_iff.mpr ⟨_, skipBigint_eq call counters rest, rfl⟩

theorem blakeCall_offers {lastTimestamp registerTimestamp : TimestampScalar}
    {reads writes : List RamAccess}
    (call : BlakeCall state ram state' ram' events lastTimestamp registerTimestamp writes reads)
    (aligned : state.timestamp.toNat % 4 = 0) :
    ∃ rows : List TraceRow, (∀ row ∈ rows, row.Fits) ∧
      ∀ {T : Type} [WitnessTracer T] [SteadyTracer T] (counters : C) (rest : List LogEntry)
        (tracer : T),
        blake2RoundFunctionCall (state.withCounters counters)
            (ReplayerRam.ofEntries (events.map SnapshotEvent.logEntry ++ rest) :
              ReplayerRam romBits) tracer =
          some (state'.withCounters counters, .ofEntries rest, offerAll tracer rows) := by
  rcases blake_lengths call with ⟨writesLength, readsLength⟩
  let x12 := (state.registers 12).value
  let numRounds := Blake2s.numRounds x12
  let start := blakeStart state.timestamp x12 (afterCycles numRounds lastTimestamp state)
    (wordsOf writes) (wordsOf reads)
  let rounds := blakeRoundsData (state.registers 10).value (state.registers 11).value x12
    (arrayOfWords 16 ((wordsOf reads).map Prod.snd)) numRounds 0 start
  refine ⟨(cyclesData blakeCsr numRounds state).map (TraceRow.nonMemory .shiftBinaryCsr) ++
    rounds.map (TraceRow.delegation blakeCsr), fits_call _ _ _, fun counters rest tracer => ?_⟩
  have few : numRounds < 2 ^ 32 :=
    Nat.lt_of_le_of_lt (Blake2s.numRounds_le_ten _) (by decide)
  have cycles := cyclesOrSkip_offers blakeCsr state tracer (Blake2s.numRounds_pos x12) few
    call.last counters
  have pointersNe := call.pointers_ne
  rw [offerAll_append, SteadyTracer.offerAll_delegations, SteadyTracer.needsDelegation_offerAll]
  simp only [blake2RoundFunctionCall, State.withCounters_registers, call.x10_above_rom,
    call.x11_above_rom, pointersNe, call.x10_aligned, call.x11_aligned, call.accepts,
    guard_true, Option.pure_def, Option.bind_eq_bind, Option.bind_some, ne_eq,
    not_false_eq_true]
  rw [cycles, Option.bind_some]
  split
  · have entries : events.map SnapshotEvent.logEntry = entriesOf writes ++ entriesOf reads := by
      rw [call.events_eq, ← entriesOf_append]
      rfl
    have readState :
        (ReplayerRam.ofEntries (entriesOf writes ++ (entriesOf reads ++ rest)) :
          ReplayerRam romBits).readWords 24 = _ :=
      readWords_entriesOf writesLength (entriesOf reads ++ rest)
    have time :
        (afterCycles numRounds lastTimestamp (state.withCounters counters)).timestamp =
          lastTimestamp := rfl
    have replayed :=
      blakeDelegations_eq readState (readWords_entriesOf readsLength rest) call.last time
        (state.registers 10).value (state.registers 11).value
        (offerAll tracer ((cyclesData blakeCsr numRounds state).map
          (TraceRow.nonMemory .shiftBinaryCsr)))
    rw [finishBlake_afterCycles call aligned counters, blakeRounds_data] at replayed
    rw [entries, List.append_assoc]
    exact replayed
  · have length : (writes ++ reads).length = 24 + 16 := by
      rw [List.length_append, writesLength, readsLength]
    have skipped :
        (ReplayerRam.ofEntries (events.map SnapshotEvent.logEntry ++ rest) :
            ReplayerRam romBits).skipIfReplaying (24 + 16) = some (.ofEntries rest) := by
      rw [call.events_eq]
      exact skipIfReplaying_entriesOf length (by decide) rest
    rw [skipped, Option.bind_some, finishBlake_afterCycles call aligned counters]

theorem keccakCall_offers {lastTimestamp registerTimestamp : TimestampScalar}
    {writes : List RamAccess}
    (call : KeccakCall state ram state' ram' events lastTimestamp registerTimestamp writes)
    (aligned : state.timestamp.toNat % 4 = 0) :
    ∃ rows : List TraceRow, (∀ row ∈ rows, row.Fits) ∧
      ∀ {T : Type} [WitnessTracer T] [SteadyTracer T] (counters : C) (rest : List LogEntry)
        (tracer : T),
        keccakSpecial5Call (state.withCounters counters)
            (ReplayerRam.ofEntries (events.map SnapshotEvent.logEntry ++ rest) :
              ReplayerRam romBits) tracer =
          some (state'.withCounters counters, .ofEntries rest, offerAll tracer rows) := by
  have writesLength : writes.length = 62 := keccak_length call
  have entries : events.map SnapshotEvent.logEntry = entriesOf writes := by
    rw [call.events_eq]
    rfl
  have inRange : initialKeccakF1600ControlValue < (1 : U32) <<< 11 := by
    decide
  have positive : 0 < numDelegationCallsForKeccakF1600 := by
    decide
  have few : numDelegationCallsForKeccakF1600 < 2 ^ 32 := by
    decide
  have last := call.last
  -- from here on the number of calls is any number
  generalize numCallsEq : numDelegationCallsForKeccakF1600 = numCalls at positive few last
  let start := keccakStart state.timestamp initialKeccakF1600ControlValue
    (afterCycles numCalls lastTimestamp state) (wordsOf writes)
  let steps := scheduledStepsData (state.registers 11).value numCalls 0 start
  refine ⟨(cyclesData keccakCsr numCalls state).map (TraceRow.nonMemory .shiftBinaryCsr) ++
    steps.map (TraceRow.delegation keccakCsr), fits_call _ _ _, fun counters rest tracer => ?_⟩
  have finished := finishKeccak_afterCycles call aligned counters
  have cycles := cyclesOrSkip_offers keccakCsr state tracer positive few last counters
  have expected :
      checkedAdd (state.withCounters counters).timestamp (batchDuration numCalls) =
        some lastTimestamp := last
  have time :
      (afterCycles numCalls lastTimestamp (state.withCounters counters)).timestamp =
        lastTimestamp := rfl
  rw [offerAll_append, SteadyTracer.offerAll_delegations, SteadyTracer.needsDelegation_offerAll]
  simp only [keccakSpecial5Call, State.withCounters_registers, call.x11_above_rom,
    call.x10_initial, call.x11_aligned, inRange, guard_true, Option.pure_def,
    Option.bind_eq_bind, Option.bind_some, numCallsEq]
  rw [cycles, Option.bind_some, expected, Option.bind_some]
  simp only [time, guard_true, Option.pure_def, Option.bind_some]
  rw [numCallsEq] at finished
  split
  · have readState :
        (ReplayerRam.ofEntries (entriesOf writes ++ rest) : ReplayerRam romBits).readWords 62 =
          _ :=
      readWords_entriesOf writesLength rest
    have replayed :=
      keccakDelegations_eq readState call.last (numCallsEq ▸ time) (state.registers 11).value
        (offerAll tracer ((cyclesData keccakCsr numCalls state).map
          (TraceRow.nonMemory .shiftBinaryCsr)))
    rw [numCallsEq, finished, scheduledSteps_data] at replayed
    rw [entries]
    exact replayed
  · rw [entries, skipIfReplaying_entriesOf writesLength (by decide), Option.bind_some, finished]

theorem callDelegation_offers [Ruint]
    (call : Vm.callDelegation state ram instr = some (state', ram', events))
    (aligned : state.timestamp.toNat % 4 = 0) :
    ∃ rows : List TraceRow, (∀ row ∈ rows, row.Fits) ∧
      ∀ {T : Type} [WitnessTracer T] [SteadyTracer T] (counters : C) (rest : List LogEntry)
        (tracer : T),
        callDelegation (state.withCounters counters)
            (ReplayerRam.ofEntries (events.map SnapshotEvent.logEntry ++ rest) :
              ReplayerRam romBits) instr tracer =
          some (state'.withCounters counters, .ofEntries rest, offerAll tracer rows) := by
  rw [Vm.callDelegation] at call
  simp only [callDelegation]
  split_ifs at call ⊢
  · rcases bigintCall_eq_some call with ⟨_, _, _, _, spec⟩
    exact bigintCall_offers spec
  · rcases blake2RoundFunctionCall_eq_some call with ⟨_, _, _, _, spec⟩
    exact blakeCall_offers spec aligned
  · rcases keccakSpecial5Call_eq_some call with ⟨_, _, _, spec⟩
    exact keccakCall_offers spec aligned

end Delegations

/-! ## A cycle -/

section Cycles

variable [Counters C] [Ruint] {ND : Type} [NonDeterminismCSRSource ND] {tape : InstructionTape}
  {machine machine' : Machine C romBits ND} {instr : Instruction} {events : List SnapshotEvent}

/-- The memory opcodes belong to the memory families. -/
def FitsFamily : Opcode → Prop
  | .alu family _ _ => ¬ family.IsMemory
  | .load family _ _ | .store family _ _ => family.IsMemory
  | _ => True

omit [Counters C] [Ruint] [NonDeterminismCSRSource ND] in
theorem opcodeOf_fitsFamily {name : InstructionName} {opcode : Opcode}
    (named : opcodeOf name = some opcode) : FitsFamily opcode := by
  cases name <;> simp only [opcodeOf, Option.some.injEq, reduceCtorEq] at named <;> subst named <;>
    simp [FitsFamily, CircuitFamily.IsMemory]

theorem executeOpcode_offers {opcode : Opcode} (fits : FitsFamily opcode)
    (executed : Vm.executeOpcode opcode machine instr = some (machine', events))
    (aligned : machine.state.timestamp.toNat % 4 = 0) (zero : machine.state.ZeroX0)
    (target : opcode = .ndWrite → instr.rd = 0) :
    ∃ rows : List TraceRow, (∀ row ∈ rows, row.Fits) ∧
      Offers machine'.state events rows fun counters log tracer =>
        executeOpcode opcode
          (⟨machine.state.withCounters counters, log, tracer⟩ : Replay C romBits _) instr := by
  cases opcode <;>
    simp only [Vm.executeOpcode, Machine.onState, Machine.onMemory, Option.map_eq_some_iff,
      Prod.mk.injEq, Prod.exists, exists_eq_left', Option.some.injEq] at executed
  case alu family op useImm =>
    rcases executed with ⟨rfl, rfl⟩
    have isRow : ∀ row ∈ (aluOp family op useImm machine.state instr ([] : List TraceRow)).2,
        row.Fits := by
      cases useImm <;> exact fits_singleton fits
    refine ⟨_, isRow, .of_onState fun counters log tracer => ?_⟩
    have state := @aluOp_replays C _ _ _ instr family op useImm machine.state counters tracer
    rw [executeOpcode, Replay.onState, state]
    cases useImm <;> rfl
  case lui =>
    rcases executed with ⟨rfl, rfl⟩
    refine ⟨(lui machine.state instr ([] : List TraceRow)).2,
      fits_singleton (by simp [TraceRow.Fits, CircuitFamily.IsMemory]),
      .of_onState fun counters log tracer => ?_⟩
    have state := @upperOp_replays C _ _ instr (fun _ imm => imm) machine.state counters tracer
    rw [executeOpcode, Replay.onState, lui, state]
    rfl
  case auipc =>
    rcases executed with ⟨rfl, rfl⟩
    refine ⟨(auipc machine.state instr ([] : List TraceRow)).2,
      fits_singleton (by simp [TraceRow.Fits, CircuitFamily.IsMemory]),
      .of_onState fun counters log tracer => ?_⟩
    have state :=
      @upperOp_replays C _ _ instr (fun pc imm => pc + imm) machine.state counters tracer
    rw [executeOpcode, Replay.onState, auipc, state]
    rfl
  case jal =>
    rcases executed with ⟨state', jumped, rfl, rfl⟩
    refine ⟨(jal machine.state instr ([] : List TraceRow)).2,
      fits_singleton (by simp [TraceRow.Fits, CircuitFamily.IsMemory]),
      .of_onState fun counters log tracer => ?_⟩
    rw [executeOpcode, Replay.onState, jal_replays jumped counters tracer]
    rfl
  case jalr =>
    rcases executed with ⟨state', jumped, rfl, rfl⟩
    refine ⟨(jalr machine.state instr ([] : List TraceRow)).2,
      fits_singleton (by simp [TraceRow.Fits, CircuitFamily.IsMemory]),
      .of_onState fun counters log tracer => ?_⟩
    rw [executeOpcode, Replay.onState, jalr_replays jumped counters tracer]
    rfl
  case branch =>
    rcases executed with ⟨state', branched, rfl, rfl⟩
    rcases branch_offers branched with ⟨row, fits, offers⟩
    refine ⟨[row], fits_singleton fits, .of_onState fun counters log tracer => ?_⟩
    rw [executeOpcode, offers]
    rfl
  case load family size value =>
    rcases executed with ⟨state', ram', reported, loaded, rfl, rfl⟩
    have reports : reported ≠ [] := by
      rcases loadOp_eq_some loaded with ⟨_, _, _, _, _, rfl, _⟩
      exact List.cons_ne_nil _ _
    rcases loadOp_offers loaded fits with ⟨row, fits, offers⟩
    refine ⟨[row], fits_singleton fits, .of_onLog reports fun counters rest tracer => ?_⟩
    rw [executeOpcode, offers]
    rfl
  case store family size newWord =>
    rcases executed with ⟨state', ram', reported, stored, rfl, rfl⟩
    have reports : reported ≠ [] := by
      rcases storeOp_eq_some stored with ⟨_, _, _, _, _, _, _, _, rfl, _⟩
      exact List.cons_ne_nil _ _
    rcases storeOp_offers stored fits with ⟨row, fits, offers⟩
    refine ⟨[row], fits_singleton fits, .of_onLog reports fun counters rest tracer => ?_⟩
    rw [executeOpcode, offers]
    rfl
  case ndRead =>
    rcases executed with ⟨state', nd', reported, read, rfl, rfl⟩
    have reports : reported ≠ [] := by
      rcases ndRead_eq_some read with ⟨_, rfl, _⟩
      exact List.cons_ne_nil _ _
    rcases @ndRead_offers C romBits _ _ _ _ _ _ _ _ _ read with ⟨row, fits, offers⟩
    refine ⟨[row], fits_singleton fits, .of_onLog reports fun counters rest tracer => ?_⟩
    rw [executeOpcode, offers]
    rfl
  case ndWrite =>
    rcases executed with ⟨state', nd', written, rfl, rfl⟩
    refine ⟨(ndWrite machine.state instr ([] : List TraceRow)).2,
      fits_singleton (by simp [TraceRow.Fits, CircuitFamily.IsMemory]),
      .of_onState fun counters log tracer => ?_⟩
    rw [executeOpcode, Replay.onState,
      ndWrite_replays written (target rfl) zero counters tracer]
    rfl
  case delegation =>
    rcases executed with ⟨state', ram', reported, call, rfl, rfl⟩
    rcases callDelegation_offers call aligned with ⟨rows, fits, offers⟩
    refine ⟨rows, fits,
      .of_onLog (callDelegation_events_ne_nil call) fun counters rest tracer => ?_⟩
    rw [executeOpcode, offers]
    rfl

omit [Ruint] in
theorem Tape.ndWrites (supported : Tape romBits tape) : NdWritesToX0 tape := by
  intro pc instr read named
  have opcode : opcodeOf instr.name = some .ndWrite := by
    rw [named]
    rfl
  exact (canonical_registers opcode (supported.canonical pc instr read)).2.2

theorem replayCycle_offers (supported : Tape romBits tape)
    (cycle : runCycle tape machine = some (machine', events))
    (aligned : machine.state.timestamp.toNat % 4 = 0) (zero : machine.state.ZeroX0) :
    ∃ rows : List TraceRow, (∀ row ∈ rows, row.Fits) ∧
      Offers machine'.state events rows fun counters log tracer =>
        replayCycle tape
          (⟨machine.state.withCounters counters, log, tracer⟩ : Replay C romBits _) := by
  rcases runCycle_eq_some_iff.mp cycle with ⟨stepped, timestamp, step, added, rfl⟩
  rcases runStep_eq_some_iff.mp step with ⟨instr, opcode, read, named, executed⟩
  have target : opcode = .ndWrite → instr.rd = 0 := by
    intro isWrite
    rw [isWrite] at named
    exact Tape.ndWrites supported _ instr read (opcodeOf_eq_ndWrite named)
  rcases executeOpcode_offers (opcodeOf_fitsFamily named) executed aligned zero target with
    ⟨rows, fits, offers⟩
  refine ⟨rows, fits, ⟨fun counters rest log holds tracer => ?_⟩⟩
  rcases offers.run counters rest log holds tracer with ⟨log', handled, holds'⟩
  refine ⟨log', ?_, holds'⟩
  have advanced :
      (stepped.state.withCounters counters).advance timestampStep =
        some ((stepped.state.setTimestamp timestamp).withCounters counters) := by
    rw [State.advance, State.withCounters_timestamp, added]
    rfl
  simp only [replayCycle, State.withCounters_pc, read, execute_eq, named, handled, advanced,
    Option.bind_eq_bind, Option.bind_some]

/-- Rows that the executor counts, each of its kind. -/
structure FitCounted (before after : C) (rows : List TraceRow) : Prop where
  counted : CountedRun before after rows
  fits : ∀ row ∈ rows, row.Fits

omit [Ruint] in
theorem FitCounted.refl (counters : C) : FitCounted counters counters [] where
  counted := .refl counters
  fits := fun _ member => absurd member List.not_mem_nil

omit [Ruint] in
theorem FitCounted.append {before middle after : C} {rows more : List TraceRow}
    (first : FitCounted before middle rows) (second : FitCounted middle after more) :
    FitCounted before after (rows ++ more) where
  counted := first.counted.append second.counted
  fits := by
    intro row member
    exact (List.mem_append.mp member).elim (first.fits row) (second.fits row)

/-- The rows offered are those that the executor counts. -/
theorem replayCycle_counts (supported : Tape romBits tape)
    (cycle : runCycle tape machine = some (machine', events))
    (aligned : machine.state.timestamp.toNat % 4 = 0) (zero : machine.state.ZeroX0) :
    ∃ rows, (Offers machine'.state events rows fun counters log tracer =>
        replayCycle tape
          (⟨machine.state.withCounters counters, log, tracer⟩ : Replay C romBits _)) ∧
      FitCounted machine.state.counters machine'.state.counters rows := by
  rcases replayCycle_offers supported cycle aligned zero with ⟨rows, fits, offers⟩
  have holds := @ReplayerRam.holds_ofEntries romBits (events.map SnapshotEvent.logEntry ++ [])
  have windows : False → ∀ instr, tape machine.state.pc = some instr →
      WindowsApart instr machine.state := False.elim
  rcases replayCycle_writes supported cycle windows aligned zero holds machine.state.counters []
    with ⟨_, written, replayed, _, runRows⟩
  rcases offers.run machine.state.counters [] _ holds ([] : List TraceRow) with
    ⟨_, offered, _⟩
  have same := Option.some.inj (replayed.symm.trans offered)
  have rowsEq : written = rows := by
    have tracers := congrArg Replay.tracer same
    rw [WitnessTracer.offerAll_rows] at tracers
    exact tracers
  subst rowsEq
  exact ⟨written, offers, runRows.counted, fits⟩

end Cycles

/-! ## Between two machines of a run -/

section Runs

variable [Counters C] [Ruint] {ND : Type} [NonDeterminismCSRSource ND] {tape : InstructionTape}
  {first middle last : Machine C romBits ND} {events more : List SnapshotEvent}
  {rows others : List TraceRow}

/-- The rows that any replay of cycles that move offers on its way. -/
structure MovesOffer (tape : InstructionTape) (first last : Machine C romBits ND)
    (events : List SnapshotEvent) (rows : List TraceRow) : Prop where
  counted : FitCounted first.state.counters last.state.counters rows
  goesOn : ∀ {T : Type} [WitnessTracer T] [SteadyTracer T] (counters : C)
    (bound : TimestampScalar), last.state.timestamp.toNat ≤ bound.toNat →
    ∀ (rest : List LogEntry) (log : ReplayerRam romBits),
    log.Holds (events.map SnapshotEvent.logEntry ++ rest) → ∀ tracer : T, ∃ log',
      log'.Holds rest ∧
        replayByTimestampBound tape bound ⟨first.state.withCounters counters, log, tracer⟩ =
          replayByTimestampBound tape bound
            ⟨last.state.withCounters counters, log', offerAll tracer rows⟩

/-- The rows that any replay up to the time of a machine offers; the log is then used up. -/
structure SegmentOffers (tape : InstructionTape) (first last : Machine C romBits ND)
    (events : List SnapshotEvent) (rows : List TraceRow) : Prop where
  counted : FitCounted first.state.counters last.state.counters rows
  ends : ∀ {T : Type} [WitnessTracer T] [SteadyTracer T] (counters : C)
    (log : ReplayerRam romBits), log.Holds (events.map SnapshotEvent.logEntry) →
    ∀ tracer : T, ∃ log',
      log'.Holds [] ∧
        replayByTimestampBound tape last.state.timestamp
            ⟨first.state.withCounters counters, log, tracer⟩ =
          some ⟨last.state.withCounters counters, log', offerAll tracer rows⟩

omit [NonDeterminismCSRSource ND] in
theorem MovesOffer.refl (machine : Machine C romBits ND) :
    MovesOffer tape machine machine [] [] where
  counted := .refl _
  goesOn := fun _ _ _ _ log holds _ => ⟨log, holds, rfl⟩

omit [NonDeterminismCSRSource ND] in
theorem MovesOffer.trans (before : MovesOffer tape first middle events rows)
    (after : MovesOffer tape middle last more others)
    (later : middle.state.timestamp.toNat ≤ last.state.timestamp.toNat) :
    MovesOffer tape first last (events ++ more) (rows ++ others) where
  counted := before.counted.append after.counted
  goesOn := by
    intro T _ _ counters bound late rest log holds tracer
    rw [List.map_append, List.append_assoc] at holds
    rcases before.goesOn counters bound (later.trans late) _ log holds tracer with
      ⟨log', holds', passed⟩
    rcases after.goesOn counters bound late rest log' holds' (offerAll tracer rows) with
      ⟨log'', holds'', replayed⟩
    rw [WitnessTracer.offerAll_append]
    exact ⟨log'', holds'', passed.trans replayed⟩

omit [NonDeterminismCSRSource ND] in
theorem MovesOffer.append (before : MovesOffer tape first middle events rows)
    (after : SegmentOffers tape middle last more others)
    (later : middle.state.timestamp.toNat ≤ last.state.timestamp.toNat) :
    SegmentOffers tape first last (events ++ more) (rows ++ others) where
  counted := before.counted.append after.counted
  ends := by
    intro T _ _ counters log holds tracer
    rw [List.map_append] at holds
    rcases before.goesOn counters last.state.timestamp later _ log holds tracer with
      ⟨log', holds', passed⟩
    rcases after.ends counters log' holds' (offerAll tracer rows) with ⟨log'', holds'', replayed⟩
    rw [WitnessTracer.offerAll_append]
    exact ⟨log'', holds'', passed.trans replayed⟩

omit [NonDeterminismCSRSource ND] in
theorem MovesOffer.ends (moves : MovesOffer tape first last events rows) :
    SegmentOffers tape first last events rows where
  counted := moves.counted
  ends := by
    intro T _ _ counters log holds tracer
    rw [← List.append_nil (events.map SnapshotEvent.logEntry)] at holds
    rcases moves.goesOn counters last.state.timestamp (le_refl _) [] log holds tracer with
      ⟨log', holds', passed⟩
    refine ⟨log', holds', passed.trans ?_⟩
    exact replayByTimestampBound_of_late (BitVec.lt_irrefl _)

theorem Moves.offers (supported : Tape romBits tape) (moves : Moves tape first events last)
    (aligned : first.state.timestamp.toNat % 4 = 0) (zero : first.state.ZeroX0) :
    ∃ rows, MovesOffer tape first last events rows := by
  induction moves with
  | refl => exact ⟨[], .refl _⟩
  | @tail last next events more moves cycle moved inductionHypothesis =>
      rcases inductionHypothesis with ⟨rows, before⟩
      have facts := Moves.runFacts moves
      have advance := (runCycle_facts cycle).1
      have lastAligned : last.state.timestamp.toNat % 4 = 0 := by
        rw [facts.timestamp_mod, aligned]
      rcases replayCycle_counts supported cycle lastAligned (facts.zeroX0 zero) with
        ⟨others, offers, counted⟩
      refine ⟨rows ++ others, before.trans ⟨counted, ?_⟩ (by omega)⟩
      intro T _ _ counters bound late rest log holds tracer
      rcases offers.run counters rest log holds tracer with ⟨log', passed, holds'⟩
      have early : (last.state.withCounters counters).timestamp < bound := by
        rw [BitVec.lt_def, State.withCounters_timestamp]
        omega
      refine ⟨log', holds', ?_⟩
      rw [replayByTimestampBound_of_early early passed]
      exact if_neg moved

theorem Segment.offers (supported : Tape romBits tape) (segment : Segment tape first events last)
    (aligned : first.state.timestamp.toNat % 4 = 0) (zero : first.state.ZeroX0) :
    ∃ rows, SegmentOffers tape first last events rows := by
  cases segment with
  | moves moves =>
      rcases Moves.offers supported moves aligned zero with ⟨rows, offers⟩
      exact ⟨rows, offers.ends⟩
  | @stays middle _ _ more moves cycle stayed =>
      rcases Moves.offers supported moves aligned zero with ⟨rows, before⟩
      have facts := Moves.runFacts moves
      have advance := (runCycle_facts cycle).1
      have middleAligned : middle.state.timestamp.toNat % 4 = 0 := by
        rw [facts.timestamp_mod, aligned]
      rcases replayCycle_counts supported cycle middleAligned (facts.zeroX0 zero) with
        ⟨others, offers, counted⟩
      refine ⟨rows ++ others, before.append ⟨counted, ?_⟩ (by omega)⟩
      intro T _ _ counters log holds tracer
      rw [← List.append_nil (more.map SnapshotEvent.logEntry)] at holds
      rcases offers.run counters [] log holds tracer with ⟨log', passed, holds'⟩
      have early : (middle.state.withCounters counters).timestamp < last.state.timestamp := by
        rw [BitVec.lt_def, State.withCounters_timestamp]
        omega
      refine ⟨log', holds', ?_⟩
      rw [replayByTimestampBound_of_early early passed]
      exact if_pos stayed

end Runs

end Replayer

end Airbender
