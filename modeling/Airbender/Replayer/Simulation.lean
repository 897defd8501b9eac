import Airbender.Replayer.DelegationReplay
import Airbender.Vm.DelegationFolding

/-!
# The replayer follows the executor

One step of the replay does to the registers what the step of the run did that left its
entries in the log, whatever the tracer asks for.  Between two snapshots the replay then
goes through the states of the run.
-/

namespace Airbender.Replayer

open Bigint OfflineMemory Vm

variable {C : Type} {romBits : Nat} {T : Type}

/-! ## One step -/

/-- A handler that leaves the state of the executor and takes all but `rest`. -/
def Follows (result : Option (Replay C romBits T)) (state : State C) (counters : C)
    (rest : List LogEntry) : Prop :=
  ∃ log tracer,
    result = some ⟨state.withCounters counters, log, tracer⟩ ∧ log.Holds rest

/-- The handlers without entries leave the log alone. -/
theorem Follows.of_onState {replay : Replay C romBits T} {rest : List LogEntry}
    {result : State C × T} {state' : State C} {counters : C}
    (holds : replay.ram.Holds rest) (sameState : result.1 = state'.withCounters counters) :
    Follows (some (replay.onState result)) state' counters rest := by
  refine ⟨replay.ram, result.2, ?_, holds⟩
  rw [Replay.onState, sameState]

/-- The other handlers take their entries from the front of the log. -/
theorem Follows.of_onLog {rest : List LogEntry} {state' : State C} {counters : C}
    {result : Option (State C × ReplayerRam romBits × T)}
    (handled : ∃ tracer', result = some (state'.withCounters counters, .ofEntries rest, tracer')) :
    Follows (Replay.onLog result) state' counters rest := by
  rcases handled with ⟨tracer', rfl⟩
  exact ⟨.ofEntries rest, tracer', rfl, ReplayerRam.holds_ofEntries rest⟩

section Steps

variable [Counters C] [WitnessTracer T] {state state' : State C}
  {ram ram' : RamWithRomRegion romBits} {instr : Instruction} {events : List SnapshotEvent}

theorem aluOp_replays (family : CircuitFamily) (op : U32 → U32 → U32) (useImm : Bool)
    (state : State C) (counters : C) (tracer : T) :
    (aluOp family op useImm (state.withCounters counters) instr tracer).1 =
      (Vm.aluOp family op useImm state instr).withCounters counters := by
  cases useImm <;> rfl

omit [Counters C] in
/-- The replayer touches `x0` once more, at a time the executor overwrites. -/
theorem upperOp_replays (value : U32 → U32 → U32) (state : State C) (counters : C)
    (tracer : T) :
    (upperOp value (state.withCounters counters) instr tracer).1 =
      (((state.touchX0 1).writeRegister 2 instr.rd
        (value state.pc instr.imm)).defaultIncreasePc).withCounters counters := by
  have touched := touchX0_touchX0 0 1 (state.withCounters counters)
  have start :
      (upperOp value (state.withCounters counters) instr tracer).1 =
        (((((state.withCounters counters).touchX0 0).touchX0 1).writeRegister 2 instr.rd
          (value state.pc instr.imm)).defaultIncreasePc) := rfl
  rw [start, touched]
  rfl

theorem jal_replays (jumped : Vm.jal state instr = some state') (counters : C) (tracer : T) :
    (jal (state.withCounters counters) instr tracer).1 = state'.withCounters counters := by
  simp only [Vm.jal, Option.bind_eq_bind, Option.bind_eq_some_iff, jumpTo_eq_some_iff,
    Option.some.injEq] at jumped
  rcases jumped with ⟨_, ⟨_, rfl⟩, rfl⟩
  have touched := touchX0_touchX0 0 1 (state.withCounters counters)
  have start :
      (jal (state.withCounters counters) instr tracer).1 =
        ((((state.withCounters counters).touchX0 0).touchX0 1).writeRegister 2 instr.rd
          (state.pc + 4)).setPc (state.pc + instr.imm) := rfl
  rw [start, touched]
  rfl

theorem jalr_replays (jumped : Vm.jalr state instr = some state') (counters : C) (tracer : T) :
    (jalr (state.withCounters counters) instr tracer).1 = state'.withCounters counters := by
  simp only [Vm.jalr, Option.bind_eq_bind, Option.bind_eq_some_iff, jumpTo_eq_some_iff,
    Option.some.injEq] at jumped
  rcases jumped with ⟨_, ⟨_, rfl⟩, rfl⟩
  rfl

/-- The replayer writes `x0` before it decides, the executor afterwards. -/
theorem branch_replays (branched : Vm.branch state instr = some state') (counters : C)
    (tracer : T) :
    ∃ tracer',
      branch (state.withCounters counters) instr tracer =
        some (state'.withCounters counters, tracer') := by
  rcases branch_eq_some branched with ⟨shouldJump, taken, rfl⟩
  have first :
      (readRegisterWithTs 0 instr.rs1 (state.withCounters counters)).1.1 =
        (state.registers instr.rs1).value := rfl
  have second :
      (readRegisterWithTs 1 instr.rs2
        (readRegisterWithTs 0 instr.rs1 (state.withCounters counters)).2).1.1 =
          (state.registers instr.rs2).value :=
    State.readRegister_value 0 instr.rs1 instr.rs2 state
  simp only [branch, first, second, taken, Option.bind_eq_bind, Option.bind_some]
  exact ⟨_, rfl⟩

variable {rest : List LogEntry}

/-- The word of a load comes back from the log. -/
theorem loadOp_replays {family : CircuitFamily} {size : U32} {value : U32 → U32 → U32}
    (loaded : Vm.loadOp family size value state ram instr = some (state', ram', events))
    (counters : C) (tracer : T) :
    ∃ tracer',
      loadOp family size value (state.withCounters counters)
          (ReplayerRam.ofEntries (events.map SnapshotEvent.logEntry ++ rest) :
            ReplayerRam romBits) instr tracer =
        some (state'.withCounters counters, .ofEntries rest, tracer') := by
  rcases loadOp_eq_some loaded with ⟨readTimestamp, word, _, _, _, rfl, rfl⟩
  let address := (state.registers instr.rs1).value + instr.imm
  let access : RamAccess :=
    ⟨alignedAddress address, ⟨readTimestamp, word⟩, ⟨state.timestamp ||| 1, word⟩⟩
  have read :
      (ReplayerRam.ofEntries (access.event.logEntry :: rest) : ReplayerRam romBits).readWord =
        some ((readTimestamp, word), .ofEntries rest) :=
    ReplayerRam.readWord_event access rest
  have entries :
      List.map SnapshotEvent.logEntry
          [.memoryRead (alignedAddress address) word readTimestamp (state.timestamp ||| 1)] ++
        rest = access.event.logEntry :: rest := rfl
  rw [entries]
  simp only [loadOp, finishLoad, read, Option.bind_eq_bind, Option.bind_some]
  exact ⟨_, rfl⟩

/-- A store peeks at the word it overwrites, and then takes it. -/
theorem storeOp_replays {family : CircuitFamily} {size : U32}
    {newWord : U32 → U32 → U32 → Option U32}
    (stored : Vm.storeOp family size newWord state ram instr = some (state', ram', events))
    (counters : C) (tracer : T) :
    ∃ tracer',
      storeOp family size newWord (state.withCounters counters)
          (ReplayerRam.ofEntries (events.map SnapshotEvent.logEntry ++ rest) :
            ReplayerRam romBits) instr tracer =
        some (state'.withCounters counters, .ofEntries rest, tracer') := by
  rcases storeOp_eq_some stored with
    ⟨readTimestamp, oldValue, word, computed, _, _, _, _, rfl, rfl⟩
  let address := (state.registers instr.rs1).value + instr.imm
  let access : RamAccess :=
    ⟨alignedAddress address, ⟨readTimestamp, oldValue⟩, ⟨state.timestamp ||| 2, word⟩⟩
  have peeked :
      (ReplayerRam.ofEntries (access.event.logEntry :: rest) : ReplayerRam romBits).peekWord =
        some oldValue :=
    ReplayerRam.peekWord_event access rest
  have read :
      (ReplayerRam.ofEntries (access.event.logEntry :: rest) : ReplayerRam romBits).readWord =
        some ((readTimestamp, oldValue), .ofEntries rest) :=
    ReplayerRam.readWord_event access rest
  have first :
      (readRegisterWithTs 0 instr.rs1 (state.withCounters counters)).1.1 =
        (state.registers instr.rs1).value := rfl
  have second :
      (readRegisterWithTs 1 instr.rs2
        (readRegisterWithTs 0 instr.rs1 (state.withCounters counters)).2).1.1 =
          (state.registers instr.rs2).value :=
    State.readRegister_value 0 instr.rs1 instr.rs2 state
  have entries :
      List.map SnapshotEvent.logEntry
          [.memoryRead (alignedAddress address) oldValue readTimestamp
            (state.timestamp ||| 2)] ++ rest = access.event.logEntry :: rest := rfl
  rw [entries]
  simp only [storeOp, peeked, first, second, computed, finishStore, read, Option.bind_eq_bind,
    Option.bind_some]
  exact ⟨_, rfl⟩

/-- A value read from the non-determinism source is in the log with time zero. -/
theorem ndRead_replays {ND : Type} [NonDeterminismCSRSource ND] {nd nd' : ND}
    (read : Vm.ndRead state nd instr = some (state', nd', events)) (counters : C) (tracer : T) :
    ∃ tracer',
      ndRead (state.withCounters counters)
          (ReplayerRam.ofEntries (events.map SnapshotEvent.logEntry ++ rest) :
            ReplayerRam romBits) instr tracer =
        some (state'.withCounters counters, .ofEntries rest, tracer') := by
  rcases ndRead_eq_some read with ⟨value, rfl, rfl⟩
  have taken :
      (ReplayerRam.ofEntries
          ([SnapshotEvent.arbitraryValue value].map SnapshotEvent.logEntry ++ rest) :
        ReplayerRam romBits).readWord = some ((0, value), .ofEntries rest) :=
    ReplayerRam.readWord_arbitraryValue value rest
  have touched := touchX0_touchX0 0 1 (state.withCounters counters)
  have start :
      (touchX0WithTs 1 (touchX0WithTs 0 (state.withCounters counters)).2).2 =
        (state.withCounters counters).touchX0 1 := touched
  simp only [ndRead, taken, start, Option.bind_eq_bind, Option.bind_some, guard_true]
  exact ⟨_, rfl⟩

/-- With target `x0`, which holds zero, touching it is writing zero to it. -/
theorem ndWrite_replays {ND : Type} [NonDeterminismCSRSource ND] {nd nd' : ND}
    (written : Vm.ndWrite state ram nd instr = some (state', nd')) (target : instr.rd = 0)
    (zero : state.ZeroX0) (counters : C) (tracer : T) :
    (ndWrite (state.withCounters counters) instr tracer).1 = state'.withCounters counters := by
  rw [ndWrite_eq_some written, target]
  have kept := (zero.readRegister 0 instr.rs1).touchX0 1
  apply State.ext
  · exact congrArg
      (fun value => Function.update ((state.readRegister 0 instr.rs1).2.touchX0 1).registers 0
        ⟨state.timestamp ||| 2, value⟩) kept
  · rfl
  · rfl
  · rfl

omit [WitnessTracer T] in
theorem callDelegation_events_ne_nil [Ruint]
    (call : Vm.callDelegation state ram instr = some (state', ram', events)) :
    events ≠ [] := by
  rw [Vm.callDelegation] at call
  split_ifs at call
  · rcases bigintCall_eq_some call with ⟨_, _, _, _, spec⟩
    rw [spec.events_eq]
    exact List.append_ne_nil_of_right_ne_nil _ (List.cons_ne_nil _ _)
  · rcases blake2RoundFunctionCall_eq_some call with ⟨_, _, writes, reads, spec⟩
    have length := blake_lengths spec
    apply List.ne_nil_of_length_pos
    rw [spec.events_eq, List.length_map, List.length_append]
    omega
  · rcases keccakSpecial5Call_eq_some call with ⟨_, _, writes, spec⟩
    have length := congrArg List.length spec.writes_address
    apply List.ne_nil_of_length_pos
    rw [spec.events_eq, List.length_map, ← List.length_map RamAccess.address, length]
    simp

theorem callDelegation_replays [Ruint]
    (call : Vm.callDelegation state ram instr = some (state', ram', events))
    (aligned : state.timestamp.toNat % 4 = 0) (counters : C) (tracer : T) :
    ∃ tracer',
      callDelegation (state.withCounters counters)
          (ReplayerRam.ofEntries (events.map SnapshotEvent.logEntry ++ rest) :
            ReplayerRam romBits) instr tracer =
        some (state'.withCounters counters, .ofEntries rest, tracer') := by
  rw [Vm.callDelegation] at call
  rw [callDelegation]
  split_ifs at call ⊢
  · rcases bigintCall_eq_some call with ⟨_, _, _, _, spec⟩
    exact bigintCall_replays spec counters rest tracer
  · rcases blake2RoundFunctionCall_eq_some call with ⟨_, _, _, _, spec⟩
    exact blakeCall_replays spec aligned counters rest tracer
  · rcases keccakSpecial5Call_eq_some call with ⟨_, _, _, spec⟩
    exact keccakCall_replays spec aligned counters rest tracer

end Steps

/-! ## A cycle -/

section Cycles

variable [Counters C] [WitnessTracer T] [Ruint] {ND : Type} [NonDeterminismCSRSource ND]

/-- The instructions that the tape of a run may hold: a write to the non-determinism source
has target `x0`. -/
def NdWritesToX0 (tape : InstructionTape) : Prop :=
  ∀ pc instr, tape pc = some instr → instr.name = .zicsrNonDeterminismWrite → instr.rd = 0

omit [Ruint] in
theorem opcodeOf_eq_ndWrite {name : InstructionName} (named : opcodeOf name = some .ndWrite) :
    name = .zicsrNonDeterminismWrite := by
  cases name <;> simp_all [opcodeOf]

omit [Ruint] in
/-- A log that begins with entries is known to be the log of one slice. -/
theorem holds_front {log : ReplayerRam romBits} {events : List SnapshotEvent}
    {rest : List LogEntry} (holds : log.Holds (events.map SnapshotEvent.logEntry ++ rest))
    (reports : events ≠ []) :
    log = .ofEntries (events.map SnapshotEvent.logEntry ++ rest) := by
  apply holds.eq_ofEntries
  simp [reports]

theorem executeOpcode_follows {opcode : Opcode} {machine machine' : Machine C romBits ND}
    {instr : Instruction} {events : List SnapshotEvent}
    (executed : Vm.executeOpcode opcode machine instr = some (machine', events))
    (aligned : machine.state.timestamp.toNat % 4 = 0) (zero : machine.state.ZeroX0)
    (target : opcode = .ndWrite → instr.rd = 0) {rest : List LogEntry}
    {log : ReplayerRam romBits} (holds : log.Holds (events.map SnapshotEvent.logEntry ++ rest))
    (counters : C) (tracer : T) :
    Follows (executeOpcode opcode ⟨machine.state.withCounters counters, log, tracer⟩ instr)
      machine'.state counters rest := by
  cases opcode <;>
    simp only [Vm.executeOpcode, Machine.onState, Machine.onMemory, Option.map_eq_some_iff,
      Prod.mk.injEq, Prod.exists, exists_eq_left', Option.some.injEq] at executed
  case alu family op useImm =>
    rcases executed with ⟨rfl, rfl⟩
    exact .of_onState holds (aluOp_replays family op useImm machine.state counters tracer)
  case lui =>
    rcases executed with ⟨rfl, rfl⟩
    exact .of_onState holds (upperOp_replays _ machine.state counters tracer)
  case auipc =>
    rcases executed with ⟨rfl, rfl⟩
    exact .of_onState holds (upperOp_replays _ machine.state counters tracer)
  case jal =>
    rcases executed with ⟨state', jumped, rfl, rfl⟩
    exact .of_onState holds (jal_replays jumped counters tracer)
  case jalr =>
    rcases executed with ⟨state', jumped, rfl, rfl⟩
    exact .of_onState holds (jalr_replays jumped counters tracer)
  case branch =>
    rcases executed with ⟨state', branched, rfl, rfl⟩
    rcases branch_replays branched counters tracer with ⟨tracer', replayed⟩
    rw [executeOpcode, replayed]
    exact .of_onState holds rfl
  case load family size value =>
    rcases executed with ⟨state', ram', reported, loaded, rfl, rfl⟩
    have reports : reported ≠ [] := by
      rcases loadOp_eq_some loaded with ⟨_, _, _, _, _, rfl, _⟩
      exact List.cons_ne_nil _ _
    rw [holds_front holds reports]
    exact .of_onLog (loadOp_replays loaded counters tracer)
  case store family size newWord =>
    rcases executed with ⟨state', ram', reported, stored, rfl, rfl⟩
    have reports : reported ≠ [] := by
      rcases storeOp_eq_some stored with ⟨_, _, _, _, _, _, _, _, rfl, _⟩
      exact List.cons_ne_nil _ _
    rw [holds_front holds reports]
    exact .of_onLog (storeOp_replays stored counters tracer)
  case ndRead =>
    rcases executed with ⟨state', nd', reported, read, rfl, rfl⟩
    have reports : reported ≠ [] := by
      rcases ndRead_eq_some read with ⟨_, rfl, _⟩
      exact List.cons_ne_nil _ _
    rw [holds_front holds reports]
    exact .of_onLog (ndRead_replays read counters tracer)
  case ndWrite =>
    rcases executed with ⟨state', nd', written, rfl, rfl⟩
    exact .of_onState holds (ndWrite_replays written (target rfl) zero counters tracer)
  case delegation =>
    rcases executed with ⟨state', ram', reported, call, rfl, rfl⟩
    have reports : reported ≠ [] := callDelegation_events_ne_nil call
    rw [holds_front holds reports]
    exact .of_onLog (callDelegation_replays call aligned counters tracer)

theorem replayCycle_follows {tape : InstructionTape} (ndWrites : NdWritesToX0 tape)
    {machine machine' : Machine C romBits ND} {events : List SnapshotEvent}
    (cycle : runCycle tape machine = some (machine', events))
    (aligned : machine.state.timestamp.toNat % 4 = 0) (zero : machine.state.ZeroX0)
    {rest : List LogEntry} {log : ReplayerRam romBits}
    (holds : log.Holds (events.map SnapshotEvent.logEntry ++ rest)) (counters : C)
    (tracer : T) :
    Follows (replayCycle tape ⟨machine.state.withCounters counters, log, tracer⟩)
      machine'.state counters rest := by
  rcases runCycle_eq_some_iff.mp cycle with ⟨stepped, timestamp, step, added, rfl⟩
  rcases runStep_eq_some_iff.mp step with ⟨instr, opcode, read, named, executed⟩
  have target : opcode = .ndWrite → instr.rd = 0 := by
    intro isWrite
    rw [isWrite] at named
    exact ndWrites _ instr read (opcodeOf_eq_ndWrite named)
  rcases executeOpcode_follows executed aligned zero target holds counters tracer with
    ⟨log', tracer', handled, holds'⟩
  refine ⟨log', tracer', ?_, holds'⟩
  have advanced :
      (stepped.state.withCounters counters).advance timestampStep =
        some ((stepped.state.setTimestamp timestamp).withCounters counters) := by
    rw [State.advance, State.withCounters_timestamp, added]
    rfl
  simp only [replayCycle, State.withCounters_pc, read, execute_eq, named, handled, advanced,
    Option.bind_eq_bind, Option.bind_some]

end Cycles

/-! ## Between two snapshots -/

section Runs

variable [Counters C] [WitnessTracer T] [Ruint] {ND : Type} [NonDeterminismCSRSource ND]
  {tape : InstructionTape}

/-- What the cycles of a run preserve. -/
structure RunFacts (first last : Machine C romBits ND) : Prop where
  timestamp_le : first.state.timestamp.toNat ≤ last.state.timestamp.toNat
  timestamp_mod : last.state.timestamp.toNat % 4 = first.state.timestamp.toNat % 4
  zeroX0 : first.state.ZeroX0 → last.state.ZeroX0

omit [Counters C] [Ruint] [NonDeterminismCSRSource ND] in
theorem RunFacts.trans {first middle last : Machine C romBits ND}
    (before : RunFacts first middle) (after : RunFacts middle last) : RunFacts first last where
  timestamp_le := before.timestamp_le.trans after.timestamp_le
  timestamp_mod := after.timestamp_mod.trans before.timestamp_mod
  zeroX0 := fun zero => after.zeroX0 (before.zeroX0 zero)

theorem runCycle_runFacts {machine machine' : Machine C romBits ND}
    {events : List SnapshotEvent} (cycle : runCycle tape machine = some (machine', events)) :
    RunFacts machine machine' := by
  rcases runCycle_facts cycle with ⟨later, mod, zero⟩
  refine ⟨?_, mod, zero⟩
  omega

theorem Moves.runFacts {first last : Machine C romBits ND} {events : List SnapshotEvent}
    (moves : Moves tape first events last) : RunFacts first last := by
  induction moves with
  | refl => exact ⟨le_refl _, rfl, id⟩
  | tail _ cycle _ inductionHypothesis =>
      exact inductionHypothesis.trans (runCycle_runFacts cycle)

theorem Segment.runFacts {first last : Machine C romBits ND} {events : List SnapshotEvent}
    (segment : Segment tape first events last) : RunFacts first last := by
  cases segment with
  | moves moves => exact Moves.runFacts moves
  | stays moves cycle _ => exact (Moves.runFacts moves).trans (runCycle_runFacts cycle)

theorem Recorded.runFacts {start last : Machine C romBits ND}
    {snapshots : List (SimpleSnapshot C)} {entries : List LogEntry}
    (recorded : Recorded tape start snapshots entries last) : RunFacts start last := by
  induction recorded with
  | initial => exact ⟨le_refl _, rfl, id⟩
  | snapshot _ segment inductionHypothesis =>
      exact inductionHypothesis.trans (Segment.runFacts segment)

/-- A cycle below the bound: the loop goes on from the next machine, or ends there. -/
theorem replayByTimestampBound_cycle (ndWrites : NdWritesToX0 tape)
    {machine machine' : Machine C romBits ND} {events : List SnapshotEvent}
    (cycle : runCycle tape machine = some (machine', events))
    (aligned : machine.state.timestamp.toNat % 4 = 0) (zero : machine.state.ZeroX0)
    {bound : TimestampScalar} (late : machine'.state.timestamp.toNat ≤ bound.toNat)
    {rest : List LogEntry} {log : ReplayerRam romBits}
    (holds : log.Holds (events.map SnapshotEvent.logEntry ++ rest)) (counters : C)
    (tracer : T) :
    ∃ log' tracer', log'.Holds rest ∧
      let replay' : Replay C romBits T := ⟨machine'.state.withCounters counters, log', tracer'⟩
      replayByTimestampBound tape bound ⟨machine.state.withCounters counters, log, tracer⟩ =
        if machine'.state.pc = machine.state.pc then
          some replay'
        else
          replayByTimestampBound tape bound replay' := by
  rcases replayCycle_follows ndWrites cycle aligned zero holds counters tracer with
    ⟨log', tracer', replayed, holds'⟩
  refine ⟨log', tracer', holds', ?_⟩
  have advance := (runCycle_facts cycle).1
  have early : (machine.state.withCounters counters).timestamp < bound := by
    rw [BitVec.lt_def, State.withCounters_timestamp]
    omega
  exact replayByTimestampBound_of_early early replayed

/-- Below the bound the loop follows the cycles that move. -/
theorem Moves.replays (ndWrites : NdWritesToX0 tape) {first last : Machine C romBits ND}
    {events : List SnapshotEvent} (moves : Moves tape first events last)
    (aligned : first.state.timestamp.toNat % 4 = 0) (zero : first.state.ZeroX0)
    {bound : TimestampScalar} (late : last.state.timestamp.toNat ≤ bound.toNat)
    {rest : List LogEntry} {log : ReplayerRam romBits}
    (holds : log.Holds (events.map SnapshotEvent.logEntry ++ rest)) (counters : C)
    (tracer : T) :
    ∃ log' tracer', log'.Holds rest ∧
      replayByTimestampBound tape bound ⟨first.state.withCounters counters, log, tracer⟩ =
        replayByTimestampBound tape bound
          ⟨last.state.withCounters counters, log', tracer'⟩ := by
  induction moves generalizing rest with
  | refl => exact ⟨log, tracer, holds, rfl⟩
  | @tail last next events more moves cycle moved inductionHypothesis =>
      have facts := Moves.runFacts moves
      have advance := (runCycle_facts cycle).1
      have before : last.state.timestamp.toNat ≤ bound.toNat := by
        omega
      rw [List.map_append, List.append_assoc] at holds
      rcases inductionHypothesis before holds with ⟨log', tracer', holds', replayed⟩
      have lastAligned : last.state.timestamp.toNat % 4 = 0 := by
        rw [facts.timestamp_mod, aligned]
      rcases replayByTimestampBound_cycle ndWrites cycle lastAligned (facts.zeroX0 zero) late
        holds' counters tracer' with ⟨log'', tracer'', holds'', passed⟩
      refine ⟨log'', tracer'', holds'', ?_⟩
      rw [replayed, passed, if_neg moved]

/-- From one snapshot to the next the loop ends where the run took the next one. -/
theorem Segment.replays (ndWrites : NdWritesToX0 tape) {first last : Machine C romBits ND}
    {events : List SnapshotEvent} (segment : Segment tape first events last)
    (aligned : first.state.timestamp.toNat % 4 = 0) (zero : first.state.ZeroX0)
    {log : ReplayerRam romBits} (holds : log.Holds (events.map SnapshotEvent.logEntry))
    (counters : C) (tracer : T) :
    ∃ log' tracer', log'.Holds [] ∧
      replayByTimestampBound tape last.state.timestamp
          ⟨first.state.withCounters counters, log, tracer⟩ =
        some ⟨last.state.withCounters counters, log', tracer'⟩ := by
  cases segment with
  | moves moves =>
      rw [← List.append_nil (events.map SnapshotEvent.logEntry)] at holds
      rcases Moves.replays ndWrites moves aligned zero (le_refl _) holds counters tracer with
        ⟨log', tracer', holds', replayed⟩
      refine ⟨log', tracer', holds', ?_⟩
      rw [replayed]
      exact replayByTimestampBound_of_late (BitVec.lt_irrefl _)
  | @stays middle _ _ more moves cycle stayed =>
      have facts := Moves.runFacts moves
      have advance := (runCycle_facts cycle).1
      have before : middle.state.timestamp.toNat ≤ last.state.timestamp.toNat := by
        omega
      rw [List.map_append] at holds
      rcases Moves.replays ndWrites moves aligned zero before holds counters tracer with
        ⟨log', tracer', holds', replayed⟩
      rw [← List.append_nil (more.map SnapshotEvent.logEntry)] at holds'
      have middleAligned : middle.state.timestamp.toNat % 4 = 0 := by
        rw [facts.timestamp_mod, aligned]
      rcases replayByTimestampBound_cycle ndWrites cycle middleAligned (facts.zeroX0 zero)
        (le_refl _) holds' counters tracer' with ⟨log'', tracer'', holds'', passed⟩
      refine ⟨log'', tracer'', holds'', ?_⟩
      rw [replayed, passed, if_pos stayed]

omit [Ruint] in
/-- The slice of a snapshot is the entries of its segment. -/
theorem makeRange_eq {before between buffer : List LogEntry}
    (recorded : before ++ between <+: buffer) :
    makeRange buffer before.length (before.length + between.length) = [between] := by
  rcases recorded with ⟨after, rfl⟩
  rw [makeRange, ← List.length_append, List.take_left, List.drop_left]

/-- A run of either loop of the executor with the snapshotter that keeps the log. -/
def RunsTo (tape : InstructionTape) (machine : Machine C romBits ND) (flag : Bool)
    (machine' : Machine C romBits ND) (snapshotter' : SimpleSnapshotter C) : Prop :=
  let snapshotter := SimpleSnapshotter.newWithCycleLimit machine.state
  (∃ cycleBound,
      runBasicUnrolled tape cycleBound machine snapshotter =
        some (flag, machine', snapshotter')) ∨
    ∃ timestampBound,
      runByTimestampBound tape timestampBound machine snapshotter =
        some (flag, machine', snapshotter')

theorem RunsTo.finishes {machine machine' : Machine C romBits ND} {flag : Bool}
    {snapshotter' : SimpleSnapshotter C}
    (run : RunsTo tape machine flag machine' snapshotter') :
    Finishes tape machine (SimpleSnapshotter.newWithCycleLimit machine.state) flag machine'
      snapshotter' := by
  rcases run with ⟨cycleBound, run⟩ | ⟨timestampBound, run⟩
  · exact runBasicUnrolled_finishes run
  · exact runByTimestampBound_finishes run

/-- The replay from a snapshot over the slice of the next one takes all of it and ends in
the state of the next one, whatever the tracer needs. -/
theorem replayByTimestampBound_snapshots (ndWrites : NdWritesToX0 tape)
    {machine machine' : Machine C romBits ND} {flag : Bool} {snapshotter' : SimpleSnapshotter C}
    (run : RunsTo tape machine flag machine' snapshotter')
    (aligned : machine.state.timestamp.toNat % 4 = 0) (zero : machine.state.ZeroX0) {i : Nat}
    {snapshot snapshot' : SimpleSnapshot C}
    (first : (snapshotter'.initialSnapshot :: snapshotter'.snapshots)[i]? = some snapshot)
    (second : (snapshotter'.initialSnapshot :: snapshotter'.snapshots)[i + 1]? = some snapshot')
    (tracer : T) :
    ∃ replay' : Replay C romBits T,
      replayByTimestampBound tape snapshot'.state.timestamp
          ⟨snapshot.state,
            ⟨makeRange snapshotter'.readsBuffer snapshot'.readsStart snapshot'.readsEnd⟩,
            tracer⟩ = some replay' ∧
        replay'.ram.ramLog.flatten = [] ∧
        replay'.state.pc = snapshot'.state.pc ∧
        replay'.state.timestamp = snapshot'.state.timestamp ∧
        replay'.state.registers = snapshot'.state.registers := by
  rcases Finishes.recorded run.finishes with ⟨entries, last, recorded, logged, _⟩
  rcases recorded.consecutive first second with
    ⟨earlier, before, current, events, next, recordedBefore, sameState, segment, rfl, between⟩
  have facts := Recorded.runFacts recordedBefore
  have currentAligned : current.state.timestamp.toNat % 4 = 0 := by
    rw [facts.timestamp_mod, aligned]
  have slice := makeRange_eq (between.trans logged)
  rw [List.length_map] at slice
  have holds := @ReplayerRam.holds_singleton romBits (events.map SnapshotEvent.logEntry)
  rcases Segment.replays ndWrites segment currentAligned (facts.zeroX0 zero) holds
    current.state.counters tracer with ⟨log', tracer', holds', replayed⟩
  rw [sameState, slice]
  exact ⟨_, replayed, holds'.flatten_eq, rfl, rfl, rfl⟩

end Runs

/-! ## A replayed run -/

/-- One instruction at address zero, and a jump to itself anywhere else. -/
def oneInstructionTape (instr : Instruction) : InstructionTape :=
  fun pc => some (if pc = 0 then instr else .fromImm .jal 0 0 6 0)

theorem replayByTimestampBound_snapshots_blakeCall :
    let tape := oneInstructionTape (.fromImm .zicsrDelegation 0 0 0 DelegationType.blake.code)
    ∃ flag machine' snapshotter' snapshot',
      RunsTo tape reducedRoundsMachine flag machine' snapshotter' ∧
        snapshotter'.snapshots[0]? = some snapshot' ∧
        ∃ replay' : Replay DelegationsCounters romSecondWordBits (List TraceRow),
          replayByTimestampBound tape snapshot'.state.timestamp
              ⟨snapshotter'.initialSnapshot.state,
                ⟨makeRange snapshotter'.readsBuffer snapshot'.readsStart snapshot'.readsEnd⟩,
                []⟩ = some replay' ∧
            replay'.ram.ramLog.flatten = [] ∧
            replay'.state.pc = snapshot'.state.pc ∧
            replay'.state.timestamp = snapshot'.state.timestamp ∧
            replay'.state.registers = snapshot'.state.registers := by
  intro tape
  have ndWrites : NdWritesToX0 tape := by
    intro pc instr read isWrite
    simp only [tape, oneInstructionTape, Option.some.injEq] at read
    rw [← read] at isWrite
    split at isWrite <;> cases isWrite
  have takes :
      ((runBasicUnrolled tape 2 reducedRoundsMachine
          (SimpleSnapshotter.newWithCycleLimit reducedRoundsMachine.state)).bind
        fun result => result.2.2.snapshots[0]?).isSome = true := by
    decide +kernel
  rcases Option.isSome_iff_exists.mp takes with ⟨snapshot', found⟩
  rcases Option.bind_eq_some_iff.mp found with ⟨⟨flag, machine', snapshotter'⟩, run, taken⟩
  have first :
      (snapshotter'.initialSnapshot :: snapshotter'.snapshots)[0]? =
        some snapshotter'.initialSnapshot := rfl
  exact ⟨flag, machine', snapshotter', snapshot', Or.inl ⟨2, run⟩, taken,
    replayByTimestampBound_snapshots ndWrites (Or.inl ⟨2, run⟩) rfl rfl first taken []⟩

/-! ## Where the replay would differ -/

section Examples

/-- Two cycles of the loop, the second of which stays. -/
theorem replayByTimestampBound_twoCycles [WitnessTracer T] {tape : InstructionTape}
    {bound : TimestampScalar} {first second third : Replay C romBits T}
    (firstCycle : replayCycle tape first = some second)
    (secondCycle : replayCycle tape second = some third)
    (firstEarly : first.state.timestamp < bound) (secondEarly : second.state.timestamp < bound)
    (moved : second.state.pc ≠ first.state.pc) (stayed : third.state.pc = second.state.pc) :
    replayByTimestampBound tape bound first = some third := by
  rw [replayByTimestampBound_of_early firstEarly firstCycle, if_neg moved,
    replayByTimestampBound_of_early secondEarly secondCycle, if_pos stayed]

/-- A run whose replay from the first snapshot leaves another register than the run. -/
def DivergesAt (tape : InstructionTape)
    (machine : Machine DelegationsCounters romSecondWordBits Unit) (index : RegisterIndex) :
    Prop :=
  ∃ machine' snapshotter' snapshot',
    ∃ replay' : Replay DelegationsCounters romSecondWordBits (List TraceRow),
    RunsTo tape machine true machine' snapshotter' ∧
      snapshotter'.snapshots[0]? = some snapshot' ∧
      replayByTimestampBound tape snapshot'.state.timestamp
          ⟨machine.state,
            ⟨makeRange snapshotter'.readsBuffer snapshot'.readsStart snapshot'.readsEnd⟩,
            []⟩ = some replay' ∧
      replay'.state.registers index ≠ snapshot'.state.registers index

/-- What `DivergesAt` comes down to for a run of two cycles. -/
def twoCyclesDiverge (tape : InstructionTape)
    (machine : Machine DelegationsCounters romSecondWordBits Unit) (index : RegisterIndex) :
    Option Bool := do
  let (flag, _, snapshotter') ←
    runBasicUnrolled tape 2 machine (SimpleSnapshotter.newWithCycleLimit machine.state)
  let snapshot' ← snapshotter'.snapshots[0]?
  let bound := snapshot'.state.timestamp
  let slice := makeRange snapshotter'.readsBuffer snapshot'.readsStart snapshot'.readsEnd
  let first : Replay _ romSecondWordBits (List TraceRow) := ⟨machine.state, ⟨slice⟩, []⟩
  let second ← replayCycle tape first
  let third ← replayCycle tape second
  some (decide (flag = true ∧ first.state.timestamp < bound ∧
    second.state.timestamp < bound ∧ second.state.pc ≠ first.state.pc ∧
    third.state.pc = second.state.pc ∧
    third.state.registers index ≠ snapshot'.state.registers index))

theorem divergesAt_of_twoCycles {tape : InstructionTape}
    {machine : Machine DelegationsCounters romSecondWordBits Unit} {index : RegisterIndex}
    (diverge : twoCyclesDiverge tape machine index = some true) :
    DivergesAt tape machine index := by
  simp only [twoCyclesDiverge, Option.bind_eq_bind, Option.bind_eq_some_iff, Prod.exists,
    Option.some.injEq, decide_eq_true_eq] at diverge
  rcases diverge with
    ⟨_, machine', snapshotter', run, snapshot', taken, second, firstCycle, third, secondCycle,
      rfl, firstEarly, secondEarly, moved, stayed, differs⟩
  exact ⟨machine', snapshotter', snapshot', third, Or.inl ⟨2, run⟩, taken,
    replayByTimestampBound_twoCycles firstCycle secondCycle firstEarly secondEarly moved stayed,
    differs⟩

/-- With a target other than `x0`, with an unaligned start time, or with a value in `x0`
the replay leaves other registers: the executor writes zero to the target and takes the
register times of a batch from its start, the replayer does neither. -/
theorem replayByTimestampBound_diverges :
    DivergesAt (oneInstructionTape (.fromImm .zicsrNonDeterminismWrite 0 0 5 0))
        { reducedRoundsMachine with
          state := reducedRoundsMachine.state.setRegister 5 ⟨0, 7⟩ } 5 ∧
      DivergesAt
        (oneInstructionTape (.fromImm .zicsrDelegation 0 0 0 DelegationType.blake.code))
        { reducedRoundsMachine with state := reducedRoundsMachine.state.setTimestamp 5 } 10 ∧
      DivergesAt (oneInstructionTape (.fromImm .zicsrNonDeterminismWrite 0 0 0 0))
        { reducedRoundsMachine with
          state := reducedRoundsMachine.state.setRegister 0 ⟨0, 7⟩ } 0 := by
  refine ⟨?_, ?_, ?_⟩
  · apply divergesAt_of_twoCycles
    decide +kernel
  · apply divergesAt_of_twoCycles
    decide +kernel
  · apply divergesAt_of_twoCycles
    decide +kernel

end Examples

end Airbender.Replayer
