import Airbender.Replayer.Blake2sRows
import Airbender.Replayer.KeccakRows
import Airbender.Vm.AccessTimes

/-!
# The rows of a run

The replay of a run with a tracer that keeps everything.  From cycle to cycle its rows account for
the changes of the registers and the RAM, for the counters of the executor and for the time.
-/

namespace Airbender.Replayer

open Bigint Ir OfflineMemory Vm

variable {C : Type} [Counters C] {romBits : Nat} [Ruint] {tape : InstructionTape}

/-! ## One step -/

section Steps

variable {state state' : State C} {ram ram' : RamWithRomRegion romBits} {instr : Instruction}
  {events : List SnapshotEvent} {rest : List LogEntry}

theorem callDelegation_stepRows (romFits : romBits ≤ romSecondWordBits)
    (named : instr.name = .zicsrDelegation)
    (call : Vm.callDelegation state ram instr = some (state', ram', events))
    (aligned : state.timestamp.toNat % 4 = 0) (zero : state.ZeroX0) (counters : C)
    (before : List TraceRow) :
    ∃ rows, callDelegation (state.withCounters counters)
        (ReplayerRam.ofEntries (events.map SnapshotEvent.logEntry ++ rest) :
          ReplayerRam romBits) instr before =
        some (state'.withCounters counters, .ofEntries rest, before ++ rows) ∧
      StepRows (WindowsApart instr state) tape state ram state' ram' rows := by
  rw [Vm.callDelegation] at call
  rw [callDelegation]
  split_ifs at call ⊢ with isBigint isBlake isKeccak
  · rcases bigintCall_eq_some call with ⟨_, _, _, _, spec⟩
    exact bigintCall_stepRows romFits spec zero counters rest before
  · rcases blake2RoundFunctionCall_eq_some call with ⟨_, _, _, _, spec⟩
    rcases @blakeCall_stepRows C romBits tape _ state state' ram ram' _ _ _ _ _ spec romFits aligned
      zero counters rest before with ⟨rows, replayed, written⟩
    exact ⟨rows, replayed, written.imp fun apart => apart named isBlake⟩
  · rcases keccakSpecial5Call_eq_some call with ⟨_, _, _, spec⟩
    exact keccakCall_stepRows spec romFits aligned zero counters rest before

/-- A handler that leaves the state of the executor, takes all but `rest` and writes the rows of
the step. -/
def Writes {ND : Type} (apart : Prop) (tape : InstructionTape)
    (machine machine' : Machine C romBits ND) (result : Option (Replay C romBits (List TraceRow)))
    (counters : C) (rest : List LogEntry) (before : List TraceRow) : Prop :=
  ∃ log rows,
    result = some ⟨machine'.state.withCounters counters, log, before ++ rows⟩ ∧
      log.Holds rest ∧
      StepRows apart tape machine.state machine.ram machine'.state machine'.ram rows

variable {ND : Type} {apart : Prop} {machine machine' : Machine C romBits ND}
  {counters : C} {before : List TraceRow}

omit [Ruint] in
theorem Writes.of_onState {replay : Replay C romBits (List TraceRow)} {result : State C × _}
    (holds : replay.ram.Holds rest)
    (handled : ∃ rows, result = (machine'.state.withCounters counters, before ++ rows) ∧
      StepRows apart tape machine.state machine.ram machine'.state machine'.ram rows) :
    Writes apart tape machine machine' (some (replay.onState result)) counters rest before := by
  rcases handled with ⟨rows, rfl, written⟩
  exact ⟨replay.ram, rows, rfl, holds, written⟩

omit [Ruint] in
theorem Writes.of_onLog {result : Option (State C × ReplayerRam romBits × List TraceRow)}
    (handled : ∃ rows,
      result = some (machine'.state.withCounters counters, .ofEntries rest, before ++ rows) ∧
        StepRows apart tape machine.state machine.ram machine'.state machine'.ram rows) :
    Writes apart tape machine machine' (Replay.onLog result) counters rest before := by
  rcases handled with ⟨rows, rfl, written⟩
  exact ⟨.ofEntries rest, rows, rfl, ReplayerRam.holds_ofEntries rest, written⟩

variable [NonDeterminismCSRSource ND]

theorem executeOpcode_writes (romFits : romBits ≤ romSecondWordBits) {opcode : Opcode}
    (executed : Vm.executeOpcode opcode machine instr = some (machine', events))
    (read : tape machine.state.pc = some instr) (named : opcodeOf instr.name = some opcode)
    (canonical : instr.Canonical emittedDelegations)
    (aligned : machine.state.timestamp.toNat % 4 = 0) (zero : machine.state.ZeroX0)
    {log : ReplayerRam romBits} (holds : log.Holds (events.map SnapshotEvent.logEntry ++ rest))
    (counters : C) (before : List TraceRow) :
    Writes (WindowsApart instr machine.state) tape machine machine'
      (executeOpcode opcode ⟨machine.state.withCounters counters, log, before⟩ instr) counters
      rest before := by
  have registers := canonical_registers named canonical
  cases opcode <;>
    simp only [Vm.executeOpcode, Machine.onState, Machine.onMemory, Option.map_eq_some_iff,
      Prod.mk.injEq, Prod.exists, exists_eq_left', Option.some.injEq] at executed <;>
    simp only at registers
  case alu family op useImm =>
    rcases executed with ⟨rfl, rfl⟩
    exact .of_onState holds
      (aluOp_stepRows counters before family op useImm read registers.1 registers.2 zero)
  case lui =>
    rcases executed with ⟨rfl, rfl⟩
    exact .of_onState holds
      (upperOp_stepRows counters before _ read registers.1 registers.2.1 registers.2.2 zero)
  case auipc =>
    rcases executed with ⟨rfl, rfl⟩
    exact .of_onState holds
      (upperOp_stepRows counters before _ read registers.1 registers.2.1 registers.2.2 zero)
  case jal =>
    rcases executed with ⟨state', jumped, rfl, rfl⟩
    exact .of_onState holds
      (jal_stepRows counters before jumped read registers.1 registers.2.1 registers.2.2 zero)
  case jalr =>
    rcases executed with ⟨state', jumped, rfl, rfl⟩
    exact .of_onState holds
      (jalr_stepRows counters before jumped read registers.1 registers.2 zero)
  case branch =>
    rcases executed with ⟨state', branched, rfl, rfl⟩
    rcases @branch_stepRows C _ romBits (WindowsApart instr machine.state) tape _ _ machine.ram _
      counters before branched read
      registers with ⟨rows, replayed, written⟩
    rw [executeOpcode, replayed]
    exact .of_onState holds ⟨rows, rfl, written⟩
  case load family size value =>
    rcases executed with ⟨state', ram', reported, loaded, rfl, rfl⟩
    have reports : reported ≠ [] := by
      rcases loadOp_eq_some loaded with ⟨_, _, _, _, _, rfl, _⟩
      exact List.cons_ne_nil _ _
    rw [holds_front holds reports]
    exact .of_onLog (loadOp_stepRows loaded read registers counters before)
  case store family size newWord =>
    rcases executed with ⟨state', ram', reported, stored, rfl, rfl⟩
    have reports : reported ≠ [] := by
      rcases storeOp_eq_some stored with ⟨_, _, _, _, _, _, _, _, rfl, _⟩
      exact List.cons_ne_nil _ _
    rw [holds_front holds reports]
    exact .of_onLog (storeOp_stepRows stored read counters before)
  case ndRead =>
    rcases executed with ⟨state', nd', reported, performed, rfl, rfl⟩
    have reports : reported ≠ [] := by
      rcases ndRead_eq_some performed with ⟨_, rfl, _⟩
      exact List.cons_ne_nil _ _
    rw [holds_front holds reports]
    exact .of_onLog (ndRead_stepRows counters before performed read registers.1 registers.2.1
      registers.2.2 zero)
  case ndWrite =>
    rcases executed with ⟨state', nd', performed, rfl, rfl⟩
    exact .of_onState holds (ndWrite_stepRows counters before performed read registers.1
      registers.2.1 registers.2.2 zero)
  case delegation =>
    rcases executed with ⟨state', ram', reported, call, rfl, rfl⟩
    have reports : reported ≠ [] := callDelegation_events_ne_nil call
    rw [holds_front holds reports]
    exact .of_onLog
      (callDelegation_stepRows romFits registers call aligned zero counters before)

end Steps

/-! ## Cycles -/

section Cycles

/-- What the executor counts for the rows of several steps. -/
inductive CountedRun : C → C → List TraceRow → Prop
  | refl (counters : C) : CountedRun counters counters []
  | tail {before middle after : C} {rows more : List TraceRow} :
      CountedRun before middle rows → Counted middle after more →
      CountedRun before after (rows ++ more)

omit [Ruint] in
theorem CountedRun.append {before middle after : C} {rows more : List TraceRow}
    (first : CountedRun before middle rows) (second : CountedRun middle after more) :
    CountedRun before after (rows ++ more) := by
  induction second with
  | refl =>
      rw [List.append_nil]
      exact first
  | tail _ step inductionHypothesis =>
      rw [← List.append_assoc]
      exact inductionHypothesis.tail step

/-- The rows of the cycles between two machines. -/
structure RunRows {ND : Type} (apart : Prop) (tape : InstructionTape)
    (first last : Machine C romBits ND) (rows : List TraceRow) : Prop where
  performs : apart → Performs (memoryOf first.state first.ram)
    (rows.flatMap (TraceRow.accesses tape)) (memoryOf last.state last.ram)
  ordered : apart → first.state.timestamp.toNat % 4 = 0 → last.state.timestamp.toNat ≤ 2 ^ 48 →
    Ordered cellTime first.state.timestamp.toNat last.state.timestamp.toNat
      (rows.flatMap (TraceRow.accesses tape))
  counted : CountedRun first.state.counters last.state.counters rows
  times : ∃ cycles, rows.filterMap TraceRow.cycleTimestamp = cycleTimes first.state.timestamp cycles ∧
    last.state.timestamp.toNat = first.state.timestamp.toNat + 4 * cycles

variable {ND : Type} {apart : Prop} {first middle last : Machine C romBits ND}
  {rows more : List TraceRow}

omit [Ruint] in
theorem RunRows.refl (apart : Prop) (machine : Machine C romBits ND) :
    RunRows apart tape machine machine [] where
  performs := fun _ => .refl _
  ordered := fun _ _ _ => .nil cellTime _ _
  counted := .refl _
  times := ⟨0, rfl, rfl⟩

omit [Ruint] in
theorem cycleTimes_add (start : TimestampScalar) (cycles more : Nat) :
    cycleTimes start (cycles + more) =
      cycleTimes start cycles ++ cycleTimes (start + BitVec.ofNat 64 (4 * cycles)) more := by
  rw [cycleTimes, List.range_add, List.map_append, List.map_map]
  refine congrArg (_ ++ ·) (List.map_congr_left fun i _ => ?_)
  rw [Function.comp_apply, Nat.mul_add, BitVec.ofNat_add, BitVec.add_assoc]

omit [Ruint] in
theorem timestamp_eq_of_toNat {start stop : TimestampScalar} {cycles : Nat}
    (later : stop.toNat = start.toNat + 4 * cycles) :
    stop = start + BitVec.ofNat 64 (4 * cycles) := by
  have bound := stop.isLt
  apply BitVec.eq_of_toNat_eq
  rw [BitVec.toNat_add, BitVec.toNat_ofNat]
  omega

omit [Ruint] in
theorem RunRows.append (before : RunRows apart tape first middle rows)
    (after : RunRows apart tape middle last more) :
    RunRows apart tape first last (rows ++ more) where
  performs := by
    intro windows
    rw [List.flatMap_append]
    exact (before.performs windows).append (after.performs windows)
  ordered := by
    intro windows aligned fits
    rcases before.times with ⟨cycles, _, firstTime⟩
    rcases after.times with ⟨moreCycles, _, lastTime⟩
    rw [List.flatMap_append]
    exact (before.ordered windows aligned (by omega)).append
      (after.ordered windows (by omega) fits) (by omega) (by omega)
  counted := before.counted.append after.counted
  times := by
    rcases before.times with ⟨cycles, firstTimes, firstTime⟩
    rcases after.times with ⟨moreCycles, lastTimes, lastTime⟩
    refine ⟨cycles + moreCycles, ?_, by omega⟩
    rw [List.filterMap_append, firstTimes, lastTimes, cycleTimes_add,
      timestamp_eq_of_toNat firstTime]

variable [NonDeterminismCSRSource ND] {machine machine' : Machine C romBits ND}
  {events : List SnapshotEvent} {rest : List LogEntry}

/-- What the rows of a run rest on: the instructions of the tape use the registers that their
names say, and the ROM is no larger than the delegations assume. -/
structure Tape (romBits : Nat) (tape : InstructionTape) : Prop where
  canonical : ∀ pc instr, tape pc = some instr → instr.Canonical emittedDelegations
  romFits : romBits ≤ romSecondWordBits

/-- A replay that leaves the state of the executor, takes all but `rest` and writes the rows
between two machines. -/
def WritesRun (apart : Prop) (tape : InstructionTape) (first last : Machine C romBits ND)
    (result : Option (Replay C romBits (List TraceRow))) (counters : C) (rest : List LogEntry)
    (before : List TraceRow) : Prop :=
  ∃ log rows,
    result = some ⟨last.state.withCounters counters, log, before ++ rows⟩ ∧
      log.Holds rest ∧ RunRows apart tape first last rows

theorem replayCycle_writes (supported : Tape romBits tape)
    (cycle : runCycle tape machine = some (machine', events))
    (windows : apart → ∀ instr, tape machine.state.pc = some instr →
      WindowsApart instr machine.state) (aligned : machine.state.timestamp.toNat % 4 = 0) (zero : machine.state.ZeroX0)
    {log : ReplayerRam romBits} (holds : log.Holds (events.map SnapshotEvent.logEntry ++ rest))
    (counters : C) (before : List TraceRow) :
    WritesRun apart tape machine machine'
      (replayCycle tape ⟨machine.state.withCounters counters, log, before⟩) counters rest
      before := by
  rcases runCycle_eq_some_iff.mp cycle with ⟨stepped, timestamp, step, added, rfl⟩
  rcases runStep_eq_some_iff.mp step with ⟨instr, opcode, read, named, executed⟩
  rcases executeOpcode_writes supported.romFits executed read named
    (supported.canonical _ _ read) aligned zero holds counters before with
    ⟨log', rows, handled, holds', written⟩
  have advanced :
      (stepped.state.withCounters counters).advance timestampStep =
        some ((stepped.state.setTimestamp timestamp).withCounters counters) := by
    rw [State.advance, State.withCounters_timestamp, added]
    rfl
  have sum : timestamp.toNat = stepped.state.timestamp.toNat + 4 := checkedAdd_toNat added
  refine ⟨log', rows, ?_, holds', ?_, ?_, ?_, ?_⟩
  · simp only [replayCycle, State.withCounters_pc, read, execute_eq, named, handled, advanced,
      Option.bind_eq_bind, Option.bind_some]
  · intro isApart
    exact written.performs (windows isApart instr read)
  · intro isApart alignedFirst fits
    rw [State.setTimestamp_timestamp, sum] at fits ⊢
    exact written.ordered (windows isApart instr read) alignedFirst fits
  · exact .tail (.refl _) written.counted
  · rcases written.times with ⟨cycles, times, lastTime⟩
    refine ⟨cycles + 1, times, ?_⟩
    rw [State.setTimestamp_timestamp]
    omega

end Cycles

/-! ## Between two snapshots -/

section Runs

variable {ND : Type} [NonDeterminismCSRSource ND] {start first last : Machine C romBits ND}
  {events : List SnapshotEvent}

/-- A machine that a run passes through. -/
def Reached (tape : InstructionTape) (start current : Machine C romBits ND) : Prop :=
  ∃ count reported, runCycles tape count start = some (current, reported)

/-- In every Blake2s call before a time, the input window does not start inside the state window. -/
def WindowsApartUntil (tape : InstructionTape) (start : Machine C romBits ND)
    (stop : TimestampScalar) : Prop :=
  ∀ current instr, Reached tape start current → current.state.timestamp < stop →
    tape current.state.pc = some instr → WindowsApart instr current.state

theorem Reached.refl (machine : Machine C romBits ND) : Reached tape machine machine :=
  ⟨0, [], rfl⟩

theorem Reached.tail {current next : Machine C romBits ND} {more : List SnapshotEvent}
    (reached : Reached tape start current) (cycle : runCycle tape current = some (next, more)) :
    Reached tape start next := by
  rcases reached with ⟨count, reported, run⟩
  refine ⟨count + 1, reported ++ more, ?_⟩
  induction count generalizing start reported with
  | zero =>
      simp only [runCycles, Option.some.injEq, Prod.mk.injEq] at run
      rcases run with ⟨rfl, rfl⟩
      simp only [runCycles, cycle, Option.bind_eq_bind, Option.bind_some, List.append_nil,
        List.nil_append]
  | succ count inductionHypothesis =>
      simp only [runCycles, Option.bind_eq_bind, Option.bind_eq_some_iff,
        Option.some.injEq, Prod.mk.injEq, Prod.exists] at run
      rcases run with ⟨second, now, passed, stop, later, rest, rfl, rfl⟩
      have extended := inductionHypothesis later rest
      rw [runCycles]
      simp only [passed, extended, Option.bind_eq_bind, Option.bind_some, List.append_assoc]

theorem Moves.reached (moves : Moves tape first events last)
    (reached : Reached tape start first) : Reached tape start last := by
  induction moves with
  | refl => exact reached
  | tail _ cycle _ inductionHypothesis => exact inductionHypothesis.tail cycle

theorem Segment.reached (segment : Segment tape first events last)
    (reached : Reached tape start first) : Reached tape start last := by
  cases segment with
  | moves moves => exact Moves.reached moves reached
  | stays moves cycle _ => exact (Moves.reached moves reached).tail cycle

variable {stop bound : TimestampScalar} {rest : List LogEntry} {log : ReplayerRam romBits}

/-- Below the bound the loop follows the cycles that move, with their rows. -/
theorem Moves.writes (supported : Tape romBits tape) (moves : Moves tape first events last)
    (reached : Reached tape start first) (inside : last.state.timestamp.toNat ≤ stop.toNat)
    (aligned : first.state.timestamp.toNat % 4 = 0) (zero : first.state.ZeroX0)
    (late : last.state.timestamp.toNat ≤ bound.toNat)
    (holds : log.Holds (events.map SnapshotEvent.logEntry ++ rest)) (counters : C)
    (before : List TraceRow) :
    ∃ log' rows, log'.Holds rest ∧
      RunRows (WindowsApartUntil tape start stop) tape first last rows ∧
      replayByTimestampBound tape bound ⟨first.state.withCounters counters, log, before⟩ =
        replayByTimestampBound tape bound
          ⟨last.state.withCounters counters, log', before ++ rows⟩ := by
  induction moves generalizing rest with
  | refl => exact ⟨log, [], holds, .refl _ _, by rw [List.append_nil]⟩
  | @tail last next events more moves cycle moved inductionHypothesis =>
      have facts := Moves.runFacts moves
      have advance := (runCycle_facts cycle).1
      rw [List.map_append, List.append_assoc] at holds
      rcases inductionHypothesis (by omega) (by omega) holds with
        ⟨log', rows, holds', written, replayed⟩
      have lastAligned : last.state.timestamp.toNat % 4 = 0 := by
        rw [facts.timestamp_mod, aligned]
      have windows : WindowsApartUntil tape start stop → ∀ instr,
          tape last.state.pc = some instr → WindowsApart instr last.state := by
        intro apart instr read
        apply apart last instr (Moves.reached moves reached) _ read
        rw [BitVec.lt_def]
        omega
      rcases replayCycle_writes supported cycle windows lastAligned (facts.zeroX0 zero) holds'
        counters (before ++ rows) with ⟨log'', moreRows, passed, holds'', moreWritten⟩
      have early : (last.state.withCounters counters).timestamp < bound := by
        rw [BitVec.lt_def, State.withCounters_timestamp]
        omega
      refine ⟨log'', rows ++ moreRows, holds'', written.append moreWritten, ?_⟩
      rw [replayed, replayByTimestampBound_of_early early passed, ← List.append_assoc]
      exact if_neg moved

/-- From one snapshot to the next the loop writes the rows of the run between them. -/
theorem Segment.writes (supported : Tape romBits tape) (segment : Segment tape first events last)
    (reached : Reached tape start first) (inside : last.state.timestamp.toNat ≤ stop.toNat)
    (aligned : first.state.timestamp.toNat % 4 = 0) (zero : first.state.ZeroX0)
    (holds : log.Holds (events.map SnapshotEvent.logEntry)) (counters : C)
    (before : List TraceRow) :
    WritesRun (WindowsApartUntil tape start stop) tape first last
      (replayByTimestampBound tape last.state.timestamp
        ⟨first.state.withCounters counters, log, before⟩) counters [] before := by
  cases segment with
  | moves moves =>
      rw [← List.append_nil (events.map SnapshotEvent.logEntry)] at holds
      rcases Moves.writes supported moves reached inside aligned zero (le_refl _) holds
        counters before with ⟨log', rows, holds', written, replayed⟩
      refine ⟨log', rows, ?_, holds', written⟩
      rw [replayed]
      exact replayByTimestampBound_of_late (BitVec.lt_irrefl _)
  | @stays middle _ _ more moves cycle stayed =>
      have facts := Moves.runFacts moves
      have advance := (runCycle_facts cycle).1
      rw [List.map_append] at holds
      rcases @Moves.writes C _ romBits _ tape ND _ start first middle _ stop
        last.state.timestamp _ log supported moves reached (by omega) aligned zero
        (by omega) holds counters before with ⟨log', rows, holds', written, replayed⟩
      rw [← List.append_nil (more.map SnapshotEvent.logEntry)] at holds'
      have middleAligned : middle.state.timestamp.toNat % 4 = 0 := by
        rw [facts.timestamp_mod, aligned]
      have windows : WindowsApartUntil tape start stop → ∀ instr,
          tape middle.state.pc = some instr → WindowsApart instr middle.state := by
        intro apart instr read
        apply apart middle instr (Moves.reached moves reached) _ read
        rw [BitVec.lt_def]
        omega
      rcases replayCycle_writes supported cycle windows middleAligned (facts.zeroX0 zero) holds'
        counters (before ++ rows) with ⟨log'', moreRows, passed, holds'', moreWritten⟩
      have early : (middle.state.withCounters counters).timestamp < last.state.timestamp := by
        rw [BitVec.lt_def, State.withCounters_timestamp]
        omega
      refine ⟨log'', rows ++ moreRows, ?_, holds'', written.append moreWritten⟩
      rw [replayed, replayByTimestampBound_of_early early passed, ← List.append_assoc]
      exact if_pos stayed

end Runs

/-! ## All snapshots of a run -/

section Snapshots

/-- The replays from each snapshot to the next, one after the other with one tracer. -/
def replaySnapshots {T : Type} [WitnessTracer T] (romBits : Nat) (tape : InstructionTape)
    (readsBuffer : List LogEntry) : List (SimpleSnapshot C) → T → Option T
  | snapshot :: next :: rest, tracer => do
      let replay ← replayByTimestampBound tape next.state.timestamp
        (⟨snapshot.state, ⟨makeRange readsBuffer next.readsStart next.readsEnd⟩, tracer⟩ :
          Replay C romBits T)
      replaySnapshots romBits tape readsBuffer (next :: rest) replay.tracer
  | [_], tracer => some tracer
  | [], tracer => some tracer

omit [Counters C] [Ruint] in
theorem concat_head (earlier : List (SimpleSnapshot C)) (snapshot : SimpleSnapshot C) :
    ∃ head others, earlier ++ [snapshot] = head :: others := by
  cases earlier with
  | nil => exact ⟨snapshot, [], rfl⟩
  | cons head others => exact ⟨head, others ++ [snapshot], rfl⟩

omit [Counters C] in
theorem replaySnapshots_concat {T : Type} [WitnessTracer T] {readsBuffer : List LogEntry}
    (earlier : List (SimpleSnapshot C)) {snapshot next : SimpleSnapshot C} {tracer middle : T}
    {replay : Replay C romBits T}
    (before : replaySnapshots romBits tape readsBuffer (earlier ++ [snapshot]) tracer = some middle)
    (replayed : replayByTimestampBound tape next.state.timestamp
      (⟨snapshot.state, ⟨makeRange readsBuffer next.readsStart next.readsEnd⟩, middle⟩ :
        Replay C romBits T) = some replay) :
    replaySnapshots romBits tape readsBuffer (earlier ++ [snapshot] ++ [next]) tracer =
      some replay.tracer := by
  induction earlier generalizing tracer with
  | nil =>
      cases Option.some.inj before
      exact congrArg (Option.bind · _) replayed
  | cons first earlier inductionHypothesis =>
      rcases concat_head earlier snapshot with ⟨second, others, split⟩
      rw [List.cons_append, split] at before
      rcases Option.bind_eq_some_iff.mp before with ⟨passed, ran, rest⟩
      rw [← split] at rest
      have later := inductionHypothesis rest
      rw [split, List.cons_append] at later
      rw [List.cons_append, split]
      exact Option.bind_eq_some_iff.mpr ⟨passed, ran, later⟩

variable {ND : Type} [NonDeterminismCSRSource ND] {start last : Machine C romBits ND}
  {snapshots : List (SimpleSnapshot C)} {entries readsBuffer : List LogEntry}
  {stop : TimestampScalar}

theorem Recorded.reached (recorded : Recorded tape start snapshots entries last) :
    Reached tape start last := by
  induction recorded with
  | initial => exact .refl start
  | snapshot _ segment inductionHypothesis => exact Segment.reached segment inductionHypothesis

/-- The replays of the snapshots from one of them on write the rows of the run since. -/
theorem Recorded.writesFrom (supported : Tape romBits tape)
    (recorded : Recorded tape start snapshots entries last)
    (inside : last.state.timestamp.toNat ≤ stop.toNat)
    (aligned : start.state.timestamp.toNat % 4 = 0) (zero : start.state.ZeroX0)
    (logged : entries <+: readsBuffer) {i : Nat} (listed : i < snapshots.length)
    (before : List TraceRow) :
    ∃ current rows, Reached tape start current ∧ (i = 0 → current = start) ∧
      snapshots[i]?.map SimpleSnapshot.state = some current.state ∧
      replaySnapshots romBits tape readsBuffer (snapshots.drop i) before =
        some (before ++ rows) ∧
      RunRows (WindowsApartUntil tape start stop) tape current last rows := by
  induction recorded with
  | initial =>
      have first : i = 0 := Nat.lt_one_iff.mp listed
      subst first
      exact ⟨start, [], .refl start, fun _ => rfl, rfl, by rw [List.append_nil]; rfl, .refl _ start⟩
  | @snapshot snapshots entries last next events recorded segment inductionHypothesis =>
      have segmentFacts := Segment.runFacts segment
      have facts := Recorded.runFacts recorded
      have reached := Recorded.reached recorded
      rcases Nat.lt_or_ge i snapshots.length with earlier | latest
      · rcases inductionHypothesis (segmentFacts.timestamp_le.trans inside)
          ((List.prefix_append _ _).trans logged) earlier with
          ⟨current, rows, passedBy, isStart, state, replayed, written⟩
        rcases recorded.latest with ⟨others, snapshot, rfl, sameState⟩
        have lastAligned : last.state.timestamp.toNat % 4 = 0 := by
          rw [facts.timestamp_mod, aligned]
        have slice := makeRange_eq logged
        rw [List.length_map] at slice
        have holds := @ReplayerRam.holds_singleton romBits (events.map SnapshotEvent.logEntry)
        rcases Segment.writes supported segment reached inside lastAligned (facts.zeroX0 zero)
          holds last.state.counters (before ++ rows) with ⟨log, moreRows, passed, _, moreWritten⟩
        have start : last.state.withCounters last.state.counters = snapshot.state :=
          sameState.symm
        rw [← slice, start] at passed
        rw [List.length_append, List.length_singleton] at earlier
        have dropped : (others ++ [snapshot]).drop i = others.drop i ++ [snapshot] :=
          List.drop_append_of_le_length (Nat.le_of_lt_succ earlier)
        rw [dropped] at replayed
        have whole := @replaySnapshots_concat C romBits _ tape _ _ readsBuffer (others.drop i)
          snapshot ⟨next.state, entries.length, entries.length + events.length⟩ before _ _ replayed
          passed
        refine ⟨current, rows ++ moreRows, passedBy, isStart, ?_, ?_, written.append moreWritten⟩
        · rw [List.getElem?_append_left (by simp; omega)]
          exact state
        · rw [List.drop_append_of_le_length (by simp; omega), dropped]
          exact whole.trans (congrArg some (List.append_assoc _ _ _))
      · rw [List.length_append, List.length_singleton] at listed
        have here : i = snapshots.length := Nat.le_antisymm (Nat.le_of_lt_succ listed) latest
        subst here
        refine ⟨next, [], Segment.reached segment reached, ?_, ?_, ?_, .refl _ next⟩
        · intro empty
          rcases recorded.latest with ⟨others, snapshot, rfl, _⟩
          rw [List.length_append, List.length_singleton] at empty
          omega
        · rw [List.getElem?_concat_length]
          rfl
        · rw [List.drop_left, List.append_nil]
          rfl

/-- The replays of all snapshots write the rows of the run. -/
theorem Recorded.writes (supported : Tape romBits tape)
    (recorded : Recorded tape start snapshots entries last)
    (inside : last.state.timestamp.toNat ≤ stop.toNat)
    (aligned : start.state.timestamp.toNat % 4 = 0) (zero : start.state.ZeroX0)
    (logged : entries <+: readsBuffer) (before : List TraceRow) :
    ∃ rows, replaySnapshots romBits tape readsBuffer snapshots before = some (before ++ rows) ∧
      RunRows (WindowsApartUntil tape start stop) tape start last rows := by
  have nonempty : 0 < snapshots.length := by
    rcases recorded.latest with ⟨others, snapshot, rfl, _⟩
    exact List.length_append ▸ Nat.succ_pos others.length
  rcases Recorded.writesFrom supported recorded inside aligned zero logged nonempty before with
    ⟨current, rows, _, isStart, _, replayed, written⟩
  cases isStart rfl
  exact ⟨rows, replayed, written⟩

/-- Some of the snapshots of a run, from the first one on. -/
theorem Recorded.take (recorded : Recorded tape start snapshots entries last) {j : Nat}
    (listed : j < snapshots.length) :
    ∃ before middle, Recorded tape start (snapshots.take (j + 1)) before middle ∧
      before <+: entries ∧ middle.state.timestamp.toNat ≤ last.state.timestamp.toNat ∧
      snapshots[j]?.map SimpleSnapshot.state = some middle.state := by
  induction recorded with
  | initial =>
      have first : j = 0 := Nat.lt_one_iff.mp listed
      subst first
      exact ⟨[], start, .initial, List.prefix_rfl, le_refl _, rfl⟩
  | @snapshot snapshots entries last next events recorded segment inductionHypothesis =>
      have segmentFacts := Segment.runFacts segment
      rcases Nat.lt_or_ge j snapshots.length with earlier | latest
      · rcases inductionHypothesis earlier with ⟨before, middle, taken, isPrefix, time, state⟩
        refine ⟨before, middle, ?_, isPrefix.trans (List.prefix_append _ _),
          time.trans segmentFacts.timestamp_le, ?_⟩
        · rw [List.take_append_of_le_length (by omega)]
          exact taken
        · rw [List.getElem?_append_left earlier]
          exact state
      · rw [List.length_append, List.length_singleton] at listed
        have here : j = snapshots.length := Nat.le_antisymm (Nat.le_of_lt_succ listed) latest
        subst here
        refine ⟨_, next, ?_, List.prefix_rfl, le_refl _, ?_⟩
        · rw [List.take_of_length_le (by simp)]
          exact recorded.snapshot segment
        · rw [List.getElem?_concat_length]
          rfl

end Snapshots

end Airbender.Replayer
