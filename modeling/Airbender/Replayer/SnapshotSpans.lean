import Airbender.Replayer.RowCounts
import Airbender.Replayer.Tracers

/-!
# From one snapshot to a later one

A finished run takes every snapshot but the last between two cycles that move the program counter.
A replay may therefore start at any snapshot, go on over the ones that follow and end at a later
one: it offers the rows between them, one snapshot after the other.
-/

namespace Airbender.Replayer

open Bigint Ir Vm WitnessTracer

section Snapshots

variable {C : Type} [Counters C] {romBits : Nat} [Ruint] {tape : InstructionTape} {ND : Type}
  [NonDeterminismCSRSource ND]

/-! ## Snapshots on the way -/

section Taken

/-- The snapshots of a run that goes on, the events up to the last of them, the rows between each
and the next, and the machine that the last one was taken from. -/
inductive Taken (tape : InstructionTape) (start : Machine C romBits ND) :
    List (SimpleSnapshot C) → List SnapshotEvent → List (List TraceRow) →
      Machine C romBits ND → Prop
  | initial : Taken tape start [⟨start.state, 0, 0⟩] [] [] start
  | snapshot {snapshots : List (SimpleSnapshot C)} {events more : List SnapshotEvent}
      {rowsAt : List (List TraceRow)} {rows : List TraceRow} {last next : Machine C romBits ND} :
      Taken tape start snapshots events rowsAt last →
      MovesOffer tape last next more rows →
      RunFacts last next →
      last.state.timestamp.toNat < next.state.timestamp.toNat →
      Taken tape start
        (snapshots ++ [⟨next.state, events.length, events.length + more.length⟩])
        (events ++ more) (rowsAt ++ [rows]) next

variable {start last : Machine C romBits ND} {snapshots : List (SimpleSnapshot C)}
  {events : List SnapshotEvent} {rowsAt : List (List TraceRow)}

omit [NonDeterminismCSRSource ND] in
theorem Taken.length (taken : Taken tape start snapshots events rowsAt last) :
    snapshots.length = rowsAt.length + 1 := by
  induction taken with
  | initial => rfl
  | snapshot _ _ _ _ inductionHypothesis =>
      rw [List.length_append, List.length_append, inductionHypothesis]
      rfl

omit [NonDeterminismCSRSource ND] in
theorem Taken.runFacts (taken : Taken tape start snapshots events rowsAt last) :
    RunFacts start last := by
  induction taken with
  | initial => exact ⟨le_refl _, rfl, id⟩
  | snapshot _ _ facts _ inductionHypothesis => exact inductionHypothesis.trans facts

omit [NonDeterminismCSRSource ND] in
/-- Some of the snapshots, from the first one on. -/
theorem Taken.take (taken : Taken tape start snapshots events rowsAt last) {j : Nat}
    (listed : j ≤ rowsAt.length) :
    ∃ before middle, Taken tape start (snapshots.take (j + 1)) before (rowsAt.take j) middle ∧
      before <+: events := by
  induction taken with
  | initial =>
      have first : j = 0 := Nat.le_zero.mp listed
      subst first
      exact ⟨[], start, .initial, List.prefix_rfl⟩
  | @snapshot snapshots events more rowsAt rows last next taken moves facts later
      inductionHypothesis =>
      rw [List.length_append, List.length_singleton] at listed
      have length := Taken.length taken
      rcases Nat.lt_or_ge rowsAt.length j with latest | earlier
      · have whole : j = rowsAt.length + 1 := Nat.le_antisymm listed latest
        rw [List.take_of_length_le (by simp; omega), List.take_of_length_le (by simp; omega)]
        exact ⟨_, next, taken.snapshot moves facts later, List.prefix_rfl⟩
      · rcases inductionHypothesis earlier with ⟨before, middle, prior, isPrefix⟩
        rw [List.take_append_of_le_length (by omega), List.take_append_of_le_length earlier]
        exact ⟨before, middle, prior, isPrefix.trans (List.prefix_append _ _)⟩

/-- What lies between a snapshot and a later machine: the events and the rows since. -/
structure Since (tape : InstructionTape) (snapshot : SimpleSnapshot C)
    (last : Machine C romBits ND) (events : List SnapshotEvent) (rows : List TraceRow) : Prop where
  reaches : ∃ machine : Machine C romBits ND, ∃ before since, snapshot.state = machine.state ∧
    before ++ since = events ∧ snapshot.readsEnd = before.length ∧
    MovesOffer tape machine last since rows ∧ RunFacts machine last

omit [NonDeterminismCSRSource ND] in
theorem Taken.since (taken : Taken tape start snapshots events rowsAt last) {i : Nat}
    {snapshot : SimpleSnapshot C} (found : snapshots[i]? = some snapshot) :
    Since tape snapshot last events (rowsAt.drop i).flatten := by
  induction taken with
  | initial =>
      rcases List.getElem?_eq_some_iff.mp found with ⟨inside, rfl⟩
      have first : i = 0 := Nat.lt_one_iff.mp inside
      subst first
      exact ⟨start, [], [], rfl, rfl, rfl, .refl start, le_refl _, rfl, id⟩
  | @snapshot snapshots events more rowsAt rows last next taken moves facts later
      inductionHypothesis =>
      have length := Taken.length taken
      rcases Nat.lt_or_ge i snapshots.length with earlier | latest
      · rw [List.getElem?_append_left earlier] at found
        rcases (inductionHypothesis found).reaches with
          ⟨machine, before, since, state, split, reads, offers, factsBefore⟩
        refine ⟨machine, before, since ++ more, state, ?_, reads, ?_, factsBefore.trans facts⟩
        · rw [← split, List.append_assoc]
        · rw [List.drop_append_of_le_length (by omega), List.flatten_append,
            List.flatten_singleton]
          exact offers.trans moves facts.timestamp_le
      · have inside := (List.getElem?_eq_some_iff.mp found).1
        rw [List.length_append, List.length_singleton] at inside
        have here : i = snapshots.length := Nat.le_antisymm (Nat.le_of_lt_succ inside) latest
        subst here
        rw [List.getElem?_concat_length] at found
        cases found
        refine ⟨next, events ++ more, [], rfl, List.append_nil _, ?_, ?_, le_refl _, rfl, id⟩
        · exact List.length_append.symm
        · rw [List.drop_of_length_le (by simp; omega)]
          exact .refl next

/-- What holds in a loop that goes on: the snapshots so far, and the cycles since. -/
def Taking (tape : InstructionTape) (start current : Machine C romBits ND)
    (snapshotter : SimpleSnapshotter C) : Prop :=
  ∃ events rowsAt last pending rows,
    Taken tape start (snapshotter.initialSnapshot :: snapshotter.snapshots) events rowsAt last ∧
      MovesOffer tape last current pending rows ∧
      RunFacts last current ∧
      snapshotter.readsOffset = events.length ∧
      snapshotter.readsBuffer = (events ++ pending).map SnapshotEvent.logEntry

theorem Taking.pass (supported : Tape romBits tape) {current next : Machine C romBits ND}
    {snapshotter snapshotter' : SimpleSnapshotter C} (taking : Taking tape start current snapshotter)
    (aligned : start.state.timestamp.toNat % 4 = 0) (zero : start.state.ZeroX0)
    (pass : loopPass tape current snapshotter = some (none, next, snapshotter')) :
    Taking tape start next snapshotter' := by
  rcases taking with ⟨events, rowsAt, last, pending, rows, taken, moves, facts, offset, buffer⟩
  rcases loopPass_eq_some pass with ⟨more, cycle, ⟨_, returned, _⟩ | ⟨moved, _, rfl⟩⟩
  · cases returned
  have before := (Taken.runFacts taken).trans facts
  have currentAligned : current.state.timestamp.toNat % 4 = 0 := by
    rw [before.timestamp_mod, aligned]
  have single : Moves tape current more next := by
    rw [← List.nil_append more]
    exact (Moves.refl current).tail cycle moved
  rcases Moves.offers supported single currentAligned (before.zeroX0 zero) with ⟨others, step⟩
  have cycleFacts := runCycle_runFacts cycle
  have advance := (runCycle_facts cycle).1
  have moreFacts := facts.trans cycleFacts
  have extended := moves.trans step cycleFacts.timestamp_le
  have later : last.state.timestamp.toNat < next.state.timestamp.toNat := by
    have le := facts.timestamp_le
    omega
  have newBuffer :
      snapshotter.readsBuffer ++ more.map SnapshotEvent.logEntry =
        (events ++ (pending ++ more)).map SnapshotEvent.logEntry := by
    rw [buffer, ← List.append_assoc, List.map_append, List.map_append, List.map_append]
  rw [SimpleSnapshotter.foldl_append]
  simp only [Snapshotter.takeSnapshotIfNeeded]
  split
  · have longer := taken.snapshot extended moreFacts later
    refine ⟨events ++ (pending ++ more), rowsAt ++ [rows ++ others], next, [], [], ?_, .refl next,
      ⟨le_refl _, rfl, id⟩, ?_, ?_⟩
    · simp only [SimpleSnapshotter.snapshotImpl, newBuffer, offset, List.length_map]
      rw [List.length_append]
      exact longer
    · simp only [SimpleSnapshotter.snapshotImpl, newBuffer, List.length_map]
    · rw [List.append_nil]
      exact newBuffer
  · exact ⟨events, rowsAt, last, _, _, taken, extended, moreFacts, offset, newBuffer⟩

theorem Taking.passes (supported : Tape romBits tape) {current next : Machine C romBits ND}
    {snapshotter snapshotter' : SimpleSnapshotter C} (taking : Taking tape start current snapshotter)
    (aligned : start.state.timestamp.toNat % 4 = 0) (zero : start.state.ZeroX0)
    (passes : Passes tape current snapshotter next snapshotter') :
    Taking tape start next snapshotter' := by
  induction passes with
  | refl => exact taking
  | tail _ lastPass inductionHypothesis =>
      exact Taking.pass supported (inductionHypothesis taking) aligned zero lastPass

end Taken

/-! ## Spans -/

section Spans

/-- A replay from one snapshot to another reads all entries in between and offers the rows, whatever
the tracer needs, and ends in the state of the other. -/
structure Span (romBits : Nat) (tape : InstructionTape) (readsBuffer : List LogEntry)
    (first last : SimpleSnapshot C) (rows : List TraceRow) : Prop where
  counted : FitCounted first.state.counters last.state.counters rows
  later : first.state.timestamp.toNat < last.state.timestamp.toNat
  cycles : last.state.timestamp.toNat % 4 = first.state.timestamp.toNat % 4
  reads : first.readsEnd ≤ last.readsEnd
  replays : ∀ {T : Type} [WitnessTracer T] [SteadyTracer T] (tracer : T),
    ∃ replay : Replay C romBits T,
      replayByTimestampBound tape last.state.timestamp
          ⟨first.state, ⟨makeRange readsBuffer first.readsEnd last.readsEnd⟩, tracer⟩ =
        some replay ∧
      replay.tracer = offerAll tracer rows ∧
      replay.ram.ramLog.flatten = [] ∧
      replay.state.pc = last.state.pc ∧
      replay.state.timestamp = last.state.timestamp ∧
      replay.state.registers = last.state.registers

omit [NonDeterminismCSRSource ND] in
theorem SegmentOffers.span {first last : Machine C romBits ND} {before events : List SnapshotEvent}
    {rows : List TraceRow} (offers : SegmentOffers tape first last events rows)
    (later : first.state.timestamp.toNat < last.state.timestamp.toNat)
    (cycles : last.state.timestamp.toNat % 4 = first.state.timestamp.toNat % 4)
    {readsBuffer : List LogEntry}
    (logged : (before ++ events).map SnapshotEvent.logEntry <+: readsBuffer)
    {snapshot snapshot' : SimpleSnapshot C} (state : snapshot.state = first.state)
    (state' : snapshot'.state = last.state) (reads : snapshot.readsEnd = before.length)
    (reads' : snapshot'.readsEnd = (before ++ events).length) :
    Span romBits tape readsBuffer snapshot snapshot' rows where
  counted := by
    rw [state, state']
    exact offers.counted
  later := by
    rw [state, state']
    exact later
  cycles := by
    rw [state, state']
    exact cycles
  reads := by
    rw [reads, reads', List.length_append]
    exact Nat.le_add_right _ _
  replays := by
    intro T _ _ tracer
    rw [List.map_append] at logged
    have slice := makeRange_eq logged
    rw [List.length_map, List.length_map, ← List.length_append] at slice
    have holds := @ReplayerRam.holds_singleton romBits (events.map SnapshotEvent.logEntry)
    rcases offers.ends first.state.counters _ holds tracer with ⟨log, usedUp, replayed⟩
    rw [reads, reads', slice, state, state']
    exact ⟨_, replayed, rfl, usedUp.flatten_eq, rfl, rfl, rfl⟩

/-- Any two snapshots of a finished run are a span, and its rows are those of the snapshots in
between. -/
structure Spans (romBits : Nat) (tape : InstructionTape) (readsBuffer : List LogEntry)
    (snapshots : List (SimpleSnapshot C)) (rowsAt : List (List TraceRow)) : Prop where
  length : snapshots.length = rowsAt.length + 1
  finished : 0 < rowsAt.length
  span : ∀ {i j : Nat} {first last : SimpleSnapshot C}, i < j → snapshots[i]? = some first →
    snapshots[j]? = some last →
    Span romBits tape readsBuffer first last ((rowsAt.take j).drop i).flatten
  consecutive : ∀ {i : Nat} {first second : SimpleSnapshot C}, snapshots[i]? = some first →
    snapshots[i + 1]? = some second → second.readsStart = first.readsEnd
  stop : ∀ {last : SimpleSnapshot C}, snapshots[rowsAt.length]? = some last →
    last.readsEnd = readsBuffer.length

variable {start last : Machine C romBits ND} {snapshots : List (SimpleSnapshot C)}
  {events : List SnapshotEvent} {rowsAt : List (List TraceRow)} {readsBuffer : List LogEntry}

omit [NonDeterminismCSRSource ND] in
theorem Taken.latest (taken : Taken tape start snapshots events rowsAt last) :
    ∃ earlier snapshot, snapshots = earlier ++ [snapshot] ∧ snapshot.state = last.state ∧
      snapshot.readsEnd = events.length := by
  cases taken with
  | initial => exact ⟨[], _, rfl, rfl, rfl⟩
  | snapshot _ _ _ _ => exact ⟨_, _, rfl, rfl, List.length_append.symm⟩

omit [NonDeterminismCSRSource ND] in
theorem Taken.consecutive (taken : Taken tape start snapshots events rowsAt last) {i : Nat}
    {first second : SimpleSnapshot C} (found : snapshots[i]? = some first)
    (foundNext : snapshots[i + 1]? = some second) : second.readsStart = first.readsEnd := by
  induction taken with
  | initial => cases foundNext
  | @snapshot snapshots events more rowsAt rows last next taken moves facts later
      inductionHypothesis =>
      rcases Nat.lt_or_ge (i + 1) snapshots.length with earlier | latest
      · rw [List.getElem?_append_left (by omega)] at found
        rw [List.getElem?_append_left earlier] at foundNext
        exact inductionHypothesis found foundNext
      · have inside := (List.getElem?_eq_some_iff.mp foundNext).1
        rcases Taken.latest taken with ⟨others, newest, rfl, _, reads⟩
        simp only [List.length_append, List.length_singleton] at inside latest
        have here : i = others.length := by
          omega
        rw [here, List.getElem?_append_left (by simp), List.getElem?_concat_length] at found
        have next : i + 1 = (others ++ [newest]).length := by
          rw [List.length_append, List.length_singleton, here]
        rw [next, List.getElem?_concat_length] at foundNext
        cases found
        cases foundNext
        exact reads.symm

omit [NonDeterminismCSRSource ND] in
theorem Taken.later (taken : Taken tape start snapshots events rowsAt last) {i : Nat}
    {snapshot : SimpleSnapshot C} (found : snapshots[i]? = some snapshot)
    (earlier : i < rowsAt.length) :
    snapshot.state.timestamp.toNat < last.state.timestamp.toNat := by
  induction taken with
  | initial => exact absurd earlier (Nat.not_lt_zero i)
  | @snapshot snapshots events more rowsAt rows last next taken moves facts later
      inductionHypothesis =>
      rw [List.length_append, List.length_singleton] at earlier
      have length := Taken.length taken
      rw [List.getElem?_append_left (by omega)] at found
      rcases Nat.lt_or_ge i rowsAt.length with before | latest
      · exact (inductionHypothesis found before).trans later
      · rcases Taken.latest taken with ⟨others, newest, rfl, state, _⟩
        rw [List.length_append, List.length_singleton] at length
        have here : i = others.length := by
          omega
        rw [here, List.getElem?_concat_length] at found
        cases found
        rw [state]
        exact later

omit [NonDeterminismCSRSource ND] in
theorem Taken.first (taken : Taken tape start snapshots events rowsAt last) :
    snapshots[0]? = some ⟨start.state, 0, 0⟩ := by
  induction taken with
  | initial => rfl
  | snapshot taken _ _ _ inductionHypothesis =>
      have length := Taken.length taken
      rw [List.getElem?_append_left (by omega)]
      exact inductionHypothesis

omit [NonDeterminismCSRSource ND] in
/-- The spans up to the last of the snapshots, which ends where the next segment starts. -/
theorem Taken.toSpan (taken : Taken tape start snapshots events rowsAt last)
    (logged : events.map SnapshotEvent.logEntry <+: readsBuffer) {i j : Nat}
    {first second : SimpleSnapshot C} (order : i < j) (found : snapshots[i]? = some first)
    (foundLater : snapshots[j]? = some second) :
    Span romBits tape readsBuffer first second ((rowsAt.take j).drop i).flatten := by
  have length := Taken.length taken
  have inside := (List.getElem?_eq_some_iff.mp foundLater).1
  rcases Taken.take taken (j := j) (by omega) with ⟨before, middle, prior, isPrefix⟩
  have rowsLength : (rowsAt.take j).length = j := by
    rw [List.length_take, Nat.min_eq_left (by omega)]
  have priorLength := Taken.length prior
  rw [rowsLength] at priorLength
  have foundPrior : (snapshots.take (j + 1))[i]? = some first := by
    rw [List.getElem?_take_of_lt (by omega)]
    exact found
  have isLatest : second.state = middle.state ∧ second.readsEnd = before.length := by
    rcases Taken.latest prior with ⟨others, newest, split, state, reads⟩
    rw [split, List.length_append, List.length_singleton] at priorLength
    have here : (snapshots.take (j + 1))[j]? = some newest := by
      rw [split, ← Nat.succ.inj priorLength, List.getElem?_concat_length]
    rw [List.getElem?_take_of_lt (Nat.lt_succ_self j), foundLater] at here
    cases here
    exact ⟨state, reads⟩
  rcases (Taken.since prior foundPrior).reaches with
    ⟨machine, earlier, since, state, split, reads, offers, facts⟩
  have later := Taken.later prior foundPrior (by omega)
  rw [state] at later
  rw [← split] at isPrefix isLatest
  exact offers.ends.span later facts.timestamp_mod
    ((List.IsPrefix.map _ isPrefix).trans logged) state isLatest.1 reads isLatest.2

/-- The snapshots of a finished run and the rows between them. -/
theorem RunsTo.spans (supported : Tape romBits tape) {machine machine' : Machine C romBits ND}
    {snapshotter' : SimpleSnapshotter C} (run : RunsTo tape machine true machine' snapshotter')
    (aligned : machine.state.timestamp.toNat % 4 = 0) (zero : machine.state.ZeroX0) :
    snapshotter'.initialSnapshot = ⟨machine.state, 0, 0⟩ ∧
      ∃ rowsAt, Spans romBits tape snapshotter'.readsBuffer
        (snapshotter'.initialSnapshot :: snapshotter'.snapshots) rowsAt := by
  have initial : Taking tape machine machine
      (SimpleSnapshotter.newWithCycleLimit machine.state) :=
    ⟨[], [], machine, [], [], .initial, .refl machine, ⟨le_refl _, rfl, id⟩, rfl, rfl⟩
  rcases run.finishes.cases with ⟨stopped, _⟩ | ⟨current, after, passes, lastPass⟩
  · cases stopped
  rcases Taking.passes supported initial aligned zero passes with
    ⟨events, rowsAt, last, pending, rows, taken, moves, facts, offset, buffer⟩
  rcases loopPass_eq_some lastPass with ⟨more, cycle, ⟨stayed, _, rfl⟩ | ⟨_, returned, _⟩⟩
  · have before := (Taken.runFacts taken).trans facts
    have currentAligned : current.state.timestamp.toNat % 4 = 0 := by
      rw [before.timestamp_mod, aligned]
    have single : Segment tape current more machine' := by
      rw [← List.nil_append more]
      exact (Moves.refl current).stays cycle stayed
    rcases Segment.offers supported single currentAligned (before.zeroX0 zero) with
      ⟨others, step⟩
    have cycleFacts := runCycle_runFacts cycle
    have advance := (runCycle_facts cycle).1
    have segment := moves.append step cycleFacts.timestamp_le
    have length := Taken.length taken
    have newBuffer :
        after.readsBuffer ++ more.map SnapshotEvent.logEntry =
          (events ++ (pending ++ more)).map SnapshotEvent.logEntry := by
      rw [buffer, ← List.append_assoc, List.map_append, List.map_append, List.map_append]
    rw [SimpleSnapshotter.foldl_append]
    simp only [Snapshotter.takeFinalSnapshot, SimpleSnapshotter.snapshotImpl, newBuffer]
    refine ⟨Option.some.inj (Taken.first taken), rowsAt ++ [rows ++ others], ?_, ?_, ?_, ?_, ?_⟩
    · rw [← List.cons_append, List.length_append, List.length_append, length]
      rfl
    · rw [List.length_append]
      exact Nat.succ_pos _
    · intro i j first second order found foundLater
      rw [← List.cons_append] at found foundLater
      rcases Nat.lt_or_ge j (after.initialSnapshot :: after.snapshots).length with inside | atEnd
      · rw [List.getElem?_append_left (by omega)] at found
        rw [List.getElem?_append_left inside] at foundLater
        rw [List.take_append_of_le_length (by omega)]
        refine Taken.toSpan taken ?_ order found foundLater
        rw [List.map_append]
        exact List.prefix_append _ _
      · have bound := (List.getElem?_eq_some_iff.mp foundLater).1
        rw [List.length_append, List.length_singleton] at bound
        have here : j = (after.initialSnapshot :: after.snapshots).length := by
          omega
        rw [here, List.getElem?_concat_length] at foundLater
        cases foundLater
        rw [List.getElem?_append_left (by omega)] at found
        rcases (Taken.since taken found).reaches with
          ⟨start, earlier, since, state, split, reads, offers, sinceFacts⟩
        have whole := offers.append segment (facts.trans cycleFacts).timestamp_le
        have startLe := sinceFacts.timestamp_le
        have lastLe := facts.timestamp_le
        rw [List.take_of_length_le (by simp; omega), List.drop_append_of_le_length (by omega),
          List.flatten_append, List.flatten_singleton]
        refine whole.span (by omega) ((sinceFacts.trans facts).trans cycleFacts).timestamp_mod ?_
          state rfl reads ?_
        · rw [← List.append_assoc, split]
        · rw [List.length_map, ← List.append_assoc earlier, split]
    · intro i first second found foundNext
      rw [← List.cons_append] at found foundNext
      rcases Nat.lt_or_ge (i + 1) (after.initialSnapshot :: after.snapshots).length with inside | atEnd
      · rw [List.getElem?_append_left (by omega)] at found
        rw [List.getElem?_append_left inside] at foundNext
        exact Taken.consecutive taken found foundNext
      · have bound := (List.getElem?_eq_some_iff.mp foundNext).1
        rw [List.length_append, List.length_singleton] at bound
        have here : i + 1 = (after.initialSnapshot :: after.snapshots).length := by
          omega
        rw [here, List.getElem?_concat_length] at foundNext
        rw [List.getElem?_append_left (by omega)] at found
        cases foundNext
        rcases Taken.latest taken with ⟨earlier, newest, isLast, _, reads⟩
        have latest : i = earlier.length := by
          rw [isLast, List.length_append, List.length_singleton] at here
          exact Nat.succ.inj here
        rw [isLast, latest, List.getElem?_concat_length] at found
        cases found
        rw [reads]
        exact offset
    · intro second found
      rw [← List.cons_append, List.length_append, List.length_singleton, ← length,
        List.getElem?_concat_length] at found
      cases found
      rfl
  · -- this snapshotter never asks the loop to stop
    simp only [Snapshotter.takeSnapshotIfNeeded] at returned
    split at returned <;> cases returned

omit [Ruint] in
theorem drop_take_append {α : Type} (list : List α) {i j k : Nat} (before : i ≤ j)
    (after : j ≤ k) : (list.take j).drop i ++ (list.take k).drop j = (list.take k).drop i := by
  have first : (list.take j).drop i = ((list.take k).drop i).take (j - i) := by
    rw [← List.drop_take, List.take_take, Nat.min_eq_left after]
  have second : (list.take k).drop j = ((list.take k).drop i).drop (j - i) := by
    rw [List.drop_drop, Nat.add_sub_cancel' before]
  rw [first, second, List.take_append_drop]

omit [Ruint] in
theorem drop_take_succ {α : Type} {list : List α} {i : Nat} (inside : i < list.length) :
    (list.take (i + 1)).drop i = [list[i]] := by
  rw [List.take_add_one, List.drop_append_of_le_length (by simp; omega),
    List.drop_of_length_le (by simp), List.getElem?_eq_getElem inside]
  rfl

omit [NonDeterminismCSRSource ND] in
/-- The replays one after the other offer the rows between the snapshots. -/
theorem Spans.replaySnapshots {T : Type} [WitnessTracer T] [SteadyTracer T]
    (spans : Spans romBits tape readsBuffer snapshots rowsAt) {i count : Nat}
    (listed : i + count ≤ rowsAt.length) (tracer : T) :
    replaySnapshots romBits tape readsBuffer ((snapshots.take (i + count + 1)).drop i) tracer =
      some (offerAll tracer ((rowsAt.take (i + count)).drop i).flatten) := by
  have length := spans.length
  induction count generalizing i tracer with
  | zero =>
      rw [Nat.add_zero, drop_take_succ (by omega), List.drop_of_length_le (by simp)]
      rfl
  | succ count inductionHypothesis =>
      have first : snapshots[i]? = some snapshots[i] := List.getElem?_eq_getElem (by omega)
      have second : snapshots[i + 1]? = some snapshots[i + 1] :=
        List.getElem?_eq_getElem (by omega)
      rw [← Nat.add_assoc, Nat.add_right_comm i count 1] at listed ⊢
      have rest := inductionHypothesis listed
      have split : (snapshots.take (i + 1 + count + 1)).drop (i + 1) =
          snapshots[i + 1] :: (snapshots.take (i + 1 + count + 1)).drop (i + 1 + 1) := by
        rw [← drop_take_append snapshots (Nat.le_succ (i + 1)) (by omega),
          drop_take_succ (by omega)]
        rfl
      rcases (spans.span (Nat.lt_succ_self i) first second).replays tracer with
        ⟨replay, replayed, offered, _⟩
      rw [← drop_take_append snapshots (Nat.le_succ i) (by omega), drop_take_succ (by omega),
        List.singleton_append, split, Replayer.replaySnapshots, spans.consecutive first second,
        replayed]
      simp only [Option.bind_eq_bind, Option.bind_some]
      rw [← split, rest, offered, ← offerAll_append, ← List.flatten_append,
        drop_take_append rowsAt (Nat.le_succ i) (by omega)]

/-- Between two snapshots of a finished run every tracer with fixed needs is offered the rows of the
full trace, whether the replay stops at the snapshots on the way or reads over them.  Whatever the
tracer needs, the replay uses up the log between the two and ends in the later snapshot. -/
theorem replay_between_snapshots (supported : Tape romBits tape)
    {machine machine' : Machine C romBits ND} {snapshotter' : SimpleSnapshotter C}
    (run : RunsTo tape machine true machine' snapshotter')
    (aligned : machine.state.timestamp.toNat % 4 = 0) (zero : machine.state.ZeroX0) {i j : Nat}
    (order : i < j) {first second : SimpleSnapshot C}
    (found : (snapshotter'.initialSnapshot :: snapshotter'.snapshots)[i]? = some first)
    (foundLater : (snapshotter'.initialSnapshot :: snapshotter'.snapshots)[j]? = some second) :
    ∃ rows : List TraceRow,
      replaySnapshots romBits tape snapshotter'.readsBuffer
          (((snapshotter'.initialSnapshot :: snapshotter'.snapshots).take (j + 1)).drop i) [] =
        some rows ∧
      ∀ {T : Type} [WitnessTracer T] [SteadyTracer T] (tracer : T),
        replaySnapshots romBits tape snapshotter'.readsBuffer
            (((snapshotter'.initialSnapshot :: snapshotter'.snapshots).take (j + 1)).drop i)
            tracer = some (offerAll tracer rows) ∧
          ∃ replay : Replay C romBits T,
            replayByTimestampBound tape second.state.timestamp
                ⟨first.state, ⟨makeRange snapshotter'.readsBuffer first.readsEnd second.readsEnd⟩,
                  tracer⟩ = some replay ∧
              replay.tracer = offerAll tracer rows ∧
              replay.ram.ramLog.flatten = [] ∧
              replay.state.pc = second.state.pc ∧
              replay.state.timestamp = second.state.timestamp ∧
              replay.state.registers = second.state.registers := by
  rcases RunsTo.spans supported run aligned zero with ⟨_, rowsAt, spans⟩
  have length := spans.length
  have inside := (List.getElem?_eq_some_iff.mp foundLater).1
  rcases Nat.exists_eq_add_of_le order.le with ⟨count, rfl⟩
  have listed : i + count ≤ rowsAt.length := by
    omega
  refine ⟨((rowsAt.take (i + count)).drop i).flatten, ?_, ?_⟩
  · have all := spans.replaySnapshots listed ([] : List TraceRow)
    rwa [offerAll_rows] at all
  · intro T _ _ tracer
    exact ⟨spans.replaySnapshots listed tracer,
      (spans.span order found foundLater).replays tracer⟩

end Spans

end Snapshots

/-- Between the first and the last snapshot of a Blake2s call. -/
theorem replay_between_snapshots_blakeLoop :
    let tape := simpleTape blakeLoopInstructions
    ∃ machine' snapshotter' second,
      RunsTo tape blakeCountsMachine true machine' snapshotter' ∧
        snapshotter'.snapshots[0]? = some second ∧
        ∃ rows : List TraceRow,
          replaySnapshots romSecondWordBits tape snapshotter'.readsBuffer
              (((snapshotter'.initialSnapshot :: snapshotter'.snapshots).take 2).drop 0) [] =
            some rows ∧
          ∀ {T : Type} [WitnessTracer T] [SteadyTracer T] (tracer : T),
            replaySnapshots romSecondWordBits tape snapshotter'.readsBuffer
                (((snapshotter'.initialSnapshot :: snapshotter'.snapshots).take 2).drop 0)
                tracer = some (offerAll tracer rows) ∧
              ∃ replay : Replay DelegationsAndFamiliesCounters romSecondWordBits T,
                replayByTimestampBound tape second.state.timestamp
                    ⟨snapshotter'.initialSnapshot.state,
                      ⟨makeRange snapshotter'.readsBuffer snapshotter'.initialSnapshot.readsEnd
                        second.readsEnd⟩, tracer⟩ = some replay ∧
                  replay.tracer = offerAll tracer rows ∧
                  replay.ram.ramLog.flatten = [] ∧
                  replay.state.pc = second.state.pc ∧
                  replay.state.timestamp = second.state.timestamp ∧
                  replay.state.registers = second.state.registers := by
  intro tape
  rcases blakeCounts_runsTo with ⟨machine', snapshotter', second, run, found⟩
  exact ⟨machine', snapshotter', second, run, found,
    replay_between_snapshots blakeLoop_supported run rfl rfl Nat.zero_lt_one rfl found⟩

end Airbender.Replayer
