import Airbender.Vm.Run

/-!
# The snapshotter of the run loops

`SimpleSnapshotter` keeps the log for the replayer and the machine states at which
the log is cut.  A run leaves snapshots between which the machine goes through the
cycles that reported the entries in between.
-/

namespace Airbender

/-- A value and the two words of the time it was last accessed. -/
abbrev LogEntry := U32 × (U32 × U32)

/-- The entry pushed for a report; values without an access have time zero. -/
def SnapshotEvent.logEntry : SnapshotEvent → LogEntry
  | .memoryRead _ readValue readTimestamp _ =>
      (readValue, (readTimestamp.setWidth 32, (readTimestamp >>> 32).setWidth 32))
  | .arbitraryValue value => (value, (0, 0))

namespace Vm

open Bigint

structure SimpleSnapshot (C : Type) where
  state : State C
  readsStart : Nat
  readsEnd : Nat

structure SimpleSnapshotter (C : Type) where
  readsOffset : Nat
  snapshots : List (SimpleSnapshot C)
  readsBuffer : List LogEntry
  initialSnapshot : SimpleSnapshot C

def traceChunkLen : Nat := 1 <<< 20

/-- `make_range`, for a buffer that is one slice. -/
def makeRange (buffer : List LogEntry) (start stop : Nat) : List (List LogEntry) :=
  [(buffer.take stop).drop start]

namespace SimpleSnapshotter

variable {C : Type}

/-- The cycle limit of the source only reserves space. -/
def newWithCycleLimit (initialState : State C) : SimpleSnapshotter C where
  readsOffset := 0
  snapshots := []
  readsBuffer := []
  initialSnapshot := ⟨initialState, 0, 0⟩

def snapshotImpl (state : State C) (snapshotter : SimpleSnapshotter C) :
    SimpleSnapshotter C :=
  let newSnapshot := ⟨state, snapshotter.readsOffset, snapshotter.readsBuffer.length⟩
  { snapshotter with
    readsOffset := snapshotter.readsBuffer.length
    snapshots := snapshotter.snapshots ++ [newSnapshot] }

def pushEntry (snapshotter : SimpleSnapshotter C) (entry : LogEntry) : SimpleSnapshotter C :=
  { snapshotter with readsBuffer := snapshotter.readsBuffer ++ [entry] }

instance : Snapshotter (SimpleSnapshotter C) C where
  takeSnapshotIfNeeded := fun state snapshotter =>
    if traceChunkLen ≤ snapshotter.readsBuffer.length - snapshotter.readsOffset then
      (false, snapshotter.snapshotImpl state)
    else
      (false, snapshotter)
  takeFinalSnapshot := fun state snapshotter => snapshotter.snapshotImpl state
  appendArbitraryValue := fun value snapshotter =>
    snapshotter.pushEntry (SnapshotEvent.arbitraryValue value).logEntry
  appendMemoryRead := fun address readValue readTimestamp writeTimestamp snapshotter =>
    snapshotter.pushEntry
      (SnapshotEvent.memoryRead address readValue readTimestamp writeTimestamp).logEntry

theorem append_eq (snapshotter : SimpleSnapshotter C) (event : SnapshotEvent) :
    Snapshotter.append snapshotter event = snapshotter.pushEntry event.logEntry := by
  cases event with
  | memoryRead => rfl
  | arbitraryValue => rfl

theorem foldl_append (snapshotter : SimpleSnapshotter C) (events : List SnapshotEvent) :
    events.foldl Snapshotter.append snapshotter =
      { snapshotter with
        readsBuffer := snapshotter.readsBuffer ++ events.map SnapshotEvent.logEntry } := by
  induction events generalizing snapshotter with
  | nil => rw [List.foldl_nil, List.map_nil, List.append_nil]
  | cons event rest inductionHypothesis =>
      rw [List.foldl_cons, append_eq, inductionHypothesis, List.map_cons]
      simp only [pushEntry, List.append_assoc, List.singleton_append]

end SimpleSnapshotter

/-! ## Between two snapshots -/

section Segments

variable {C : Type} [Counters C] {romBits : Nat} {ND : Type} [NonDeterminismCSRSource ND]
  [Ruint]

/-- Cycles that each move the program counter, and what they report. -/
inductive Moves (tape : InstructionTape) :
    Machine C romBits ND → List SnapshotEvent → Machine C romBits ND → Prop
  | refl (machine : Machine C romBits ND) : Moves tape machine [] machine
  | tail {first last next : Machine C romBits ND} {events more : List SnapshotEvent} :
      Moves tape first events last →
      runCycle tape last = some (next, more) →
      next.state.pc ≠ last.state.pc →
      Moves tape first (events ++ more) next

/-- The cycles between two snapshots: only the last one may keep the program counter. -/
inductive Segment (tape : InstructionTape) :
    Machine C romBits ND → List SnapshotEvent → Machine C romBits ND → Prop
  | moves {first last : Machine C romBits ND} {events : List SnapshotEvent} :
      Moves tape first events last → Segment tape first events last
  | stays {first last next : Machine C romBits ND} {events more : List SnapshotEvent} :
      Moves tape first events last →
      runCycle tape last = some (next, more) →
      next.state.pc = last.state.pc →
      Segment tape first (events ++ more) next

/-- The snapshots of a run so far, the entries up to the last of them, and the machine
it was taken from. -/
inductive Recorded (tape : InstructionTape) (start : Machine C romBits ND) :
    List (SimpleSnapshot C) → List LogEntry → Machine C romBits ND → Prop
  | initial : Recorded tape start [⟨start.state, 0, 0⟩] [] start
  | snapshot {snapshots : List (SimpleSnapshot C)} {entries : List LogEntry}
      {last next : Machine C romBits ND} {events : List SnapshotEvent} :
      Recorded tape start snapshots entries last →
      Segment tape last events next →
      Recorded tape start
        (snapshots ++ [⟨next.state, entries.length, entries.length + events.length⟩])
        (entries ++ events.map SnapshotEvent.logEntry) next

/-- What holds in a loop: all cycles up to the last snapshot are recorded, and the log
goes on with the cycles since. -/
def Recording (tape : InstructionTape) (start current : Machine C romBits ND)
    (snapshotter : SimpleSnapshotter C) : Prop :=
  ∃ entries last pending,
    Recorded tape start (snapshotter.initialSnapshot :: snapshotter.snapshots) entries last ∧
      Moves tape last pending current ∧
      snapshotter.readsOffset = entries.length ∧
      snapshotter.readsBuffer = entries ++ pending.map SnapshotEvent.logEntry

theorem recording_newWithCycleLimit (tape : InstructionTape) (start : Machine C romBits ND) :
    Recording tape start start (SimpleSnapshotter.newWithCycleLimit start.state) :=
  ⟨[], start, [], .initial, .refl start, rfl, rfl⟩

/-- Taking a snapshot closes the segment of the cycles since the one before. -/
theorem Recorded.snapshotImpl
    {tape : InstructionTape} {start last current : Machine C romBits ND}
    {snapshotter : SimpleSnapshotter C} {entries : List LogEntry} {events : List SnapshotEvent}
    (recorded :
      Recorded tape start (snapshotter.initialSnapshot :: snapshotter.snapshots) entries last)
    (segment : Segment tape last events current)
    (offset : snapshotter.readsOffset = entries.length)
    (buffer : snapshotter.readsBuffer = entries ++ events.map SnapshotEvent.logEntry) :
    let taken := snapshotter.snapshotImpl current.state
    Recorded tape start (taken.initialSnapshot :: taken.snapshots) taken.readsBuffer current ∧
      taken.readsOffset = taken.readsBuffer.length := by
  have extended := recorded.snapshot segment
  simp only [SimpleSnapshotter.snapshotImpl, offset, buffer, List.length_append,
    List.length_map, and_true]
  exact extended

/-- A pass that goes on extends the recording. -/
theorem Recording.pass
    {tape : InstructionTape} {start current next : Machine C romBits ND}
    {snapshotter snapshotter' : SimpleSnapshotter C}
    (recording : Recording tape start current snapshotter)
    (pass : loopPass tape current snapshotter = some (none, next, snapshotter')) :
    Recording tape start next snapshotter' := by
  rcases recording with ⟨entries, last, pending, recorded, moves, offset, buffer⟩
  rcases loopPass_eq_some pass with ⟨events, cycle, ⟨_, returned, _⟩ | ⟨moved, _, rfl⟩⟩
  · cases returned
  · have extended := moves.tail cycle moved
    have newBuffer :
        snapshotter.readsBuffer ++ events.map SnapshotEvent.logEntry =
          entries ++ (pending ++ events).map SnapshotEvent.logEntry := by
      rw [buffer, List.map_append, List.append_assoc]
    let appended : SimpleSnapshotter C :=
      { snapshotter with
        readsBuffer := snapshotter.readsBuffer ++ events.map SnapshotEvent.logEntry }
    have recordedBefore :
        Recorded tape start (appended.initialSnapshot :: appended.snapshots) entries last :=
      recorded
    rw [SimpleSnapshotter.foldl_append]
    simp only [Snapshotter.takeSnapshotIfNeeded]
    split
    · have taken := recordedBefore.snapshotImpl (.moves extended) offset newBuffer
      exact ⟨_, next, [], taken.1, .refl next, taken.2, (List.append_nil _).symm⟩
    · exact ⟨entries, last, pending ++ events, recorded, extended, offset, newBuffer⟩

theorem Recording.passes
    {tape : InstructionTape} {start current next : Machine C romBits ND}
    {snapshotter snapshotter' : SimpleSnapshotter C}
    (recording : Recording tape start current snapshotter)
    (passes : Passes tape current snapshotter next snapshotter') :
    Recording tape start next snapshotter' := by
  induction passes with
  | refl => exact recording
  | tail _ lastPass inductionHypothesis => exact (inductionHypothesis recording).pass lastPass

/-- What a finished run has recorded; after a final snapshot that is everything. -/
theorem Moves.stays
    {tape : InstructionTape} {first last next : Machine C romBits ND}
    {events more : List SnapshotEvent} (moves : Moves tape first events last)
    (cycle : runCycle tape last = some (next, more))
    (stayed : next.state.pc = last.state.pc) : Segment tape first (events ++ more) next :=
  .stays moves cycle stayed

theorem Finishes.recorded
    {tape : InstructionTape} {start machine' : Machine C romBits ND} {flag : Bool}
    {snapshotter' : SimpleSnapshotter C}
    (finishes :
      Finishes tape start (SimpleSnapshotter.newWithCycleLimit start.state) flag machine'
        snapshotter') :
    ∃ entries last,
      Recorded tape start (snapshotter'.initialSnapshot :: snapshotter'.snapshots) entries last ∧
        entries <+: snapshotter'.readsBuffer ∧
        (flag = true → last = machine' ∧ entries = snapshotter'.readsBuffer) := by
  have initial := recording_newWithCycleLimit tape start
  rcases finishes.cases with ⟨stopped, passes⟩ | ⟨current, after, passes, lastPass⟩
  · rcases initial.passes passes with ⟨entries, last, pending, recorded, _, _, buffer⟩
    refine ⟨entries, last, recorded, ⟨_, buffer.symm⟩, ?_⟩
    intro returned
    rw [stopped] at returned
    cases returned
  · rcases initial.passes passes with ⟨entries, last, pending, recorded, moves, offset, buffer⟩
    rcases loopPass_eq_some lastPass with
      ⟨events, cycle, ⟨stayed, _, rfl⟩ | ⟨moved, returned, rfl⟩⟩
    · let appended : SimpleSnapshotter C :=
        { after with readsBuffer := after.readsBuffer ++ events.map SnapshotEvent.logEntry }
      have recordedBefore :
          Recorded tape start (appended.initialSnapshot :: appended.snapshots) entries last :=
        recorded
      have newBuffer :
          appended.readsBuffer = entries ++ (pending ++ events).map SnapshotEvent.logEntry := by
        rw [List.map_append, ← List.append_assoc, ← buffer]
      have taken := recordedBefore.snapshotImpl (moves.stays cycle stayed) offset newBuffer
      rw [SimpleSnapshotter.foldl_append]
      exact ⟨_, machine', taken.1, List.prefix_rfl, fun _ => ⟨rfl, rfl⟩⟩
    · -- this snapshotter never asks the loop to stop
      simp only [Snapshotter.takeSnapshotIfNeeded] at returned
      split at returned <;> cases returned

/-! ## Consecutive snapshots -/

/-- The latest snapshot holds the state of the machine it was taken from. -/
theorem Recorded.latest
    {tape : InstructionTape} {start last : Machine C romBits ND}
    {snapshots : List (SimpleSnapshot C)} {entries : List LogEntry}
    (recorded : Recorded tape start snapshots entries last) :
    ∃ earlier snapshot, snapshots = earlier ++ [snapshot] ∧ snapshot.state = last.state := by
  cases recorded with
  | initial => exact ⟨[], _, rfl, rfl⟩
  | snapshot _ _ => exact ⟨_, _, rfl, rfl⟩

/-- Two snapshots in a row, and the entries recorded up to the first and between them. -/
theorem Recorded.consecutive
    {tape : InstructionTape} {start last : Machine C romBits ND}
    {snapshots : List (SimpleSnapshot C)} {entries : List LogEntry}
    (recorded : Recorded tape start snapshots entries last) {i : Nat}
    {snapshot snapshot' : SimpleSnapshot C} (first : snapshots[i]? = some snapshot)
    (second : snapshots[i + 1]? = some snapshot') :
    ∃ earlier before machine events machine',
      Recorded tape start earlier before machine ∧
        snapshot.state = machine.state ∧
        Segment tape machine events machine' ∧
        snapshot' = ⟨machine'.state, before.length, before.length + events.length⟩ ∧
        before ++ events.map SnapshotEvent.logEntry <+: entries := by
  induction recorded with
  | initial => cases second
  | @snapshot snapshots entries last next events recorded segment inductionHypothesis =>
      rcases Nat.lt_or_ge (i + 1) snapshots.length with inside | outside
      · rw [List.getElem?_append_left (by omega)] at first
        rw [List.getElem?_append_left inside] at second
        rcases inductionHypothesis first second with
          ⟨earlier, before, machine, between, machine', recordedBefore, state, segmentBetween,
            taken, recordedPrefix⟩
        exact ⟨earlier, before, machine, between, machine', recordedBefore, state,
          segmentBetween, taken, recordedPrefix.trans (List.prefix_append _ _)⟩
      · have secondBound := (List.getElem?_eq_some_iff.mp second).1
        have atEnd : i + 1 = snapshots.length := by
          rw [List.length_append, List.length_singleton] at secondBound
          omega
        rcases recorded.latest with ⟨others, latest, rfl, sameState⟩
        rw [List.length_append, List.length_singleton] at atEnd
        have isLatest : snapshot = latest := by
          rw [List.getElem?_append_left (by simp; omega)] at first
          have position : i = others.length := by omega
          rw [position, List.getElem?_concat_length] at first
          exact (Option.some.inj first).symm
        have isNew :
            snapshot' = ⟨next.state, entries.length, entries.length + events.length⟩ := by
          have position : i + 1 = (others ++ [latest]).length := by
            simp
            omega
          rw [position, List.getElem?_concat_length] at second
          exact (Option.some.inj second).symm
        rw [isLatest]
        exact ⟨_, entries, last, events, next, recorded, sameState, segment, isNew,
          List.prefix_rfl⟩

end Segments

end Vm

end Airbender
