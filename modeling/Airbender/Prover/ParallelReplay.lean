import Airbender.Lib.ScatteredWrites
import Airbender.Replayer.DestinationHolders
import Airbender.Replayer.SnapshotSpans

/-!
# Parallel replay

The snapshots of a run are dealt to the cores by the calls between them.  Every core replays its
stretch with a tracer for one kind of work and writes into its part of the buffers of the circuits.
-/

namespace Airbender

open Bigint Replayer ScatteredWrites Vm WitnessTracer

section Equality

variable {C : Type} [DecidableEq C]

instance : DecidableEq (RegisterIndex → Register) := fun first second =>
  decidable_of_iff
    (∀ index : Fin 32, first (BitVec.ofFin index) = second (BitVec.ofFin index))
    ⟨fun same => funext fun index => same index.toFin, fun same _ => same ▸ rfl⟩

instance : DecidableEq (State C) := fun first second =>
  decidable_of_iff
    (first.registers = second.registers ∧ first.timestamp = second.timestamp ∧
      first.pc = second.pc ∧ first.counters = second.counters)
    ⟨fun same => State.ext same.1 same.2.1 same.2.2.1 same.2.2.2,
      fun same => same ▸ ⟨rfl, rfl, rfl, rfl⟩⟩

deriving instance DecidableEq for SimpleSnapshot

end Equality

namespace Replayer

/-- `replay_basic_unrolled`: a number of cycles. -/
def replayBasicUnrolled {C : Type} {romBits : Nat} {T : Type} [WitnessTracer T] [Ruint]
    (tape : InstructionTape) (cycleBound : Nat) (replay : Replay C romBits T) :
    Option (Replay C romBits T) :=
  replayByTimestampBound tape
    (replay.state.timestamp + timestampStep * BitVec.ofNat 64 cycleBound) replay

end Replayer

namespace Prover

variable {C : Type} {Element : Type}

def divCeil (number divisor : Nat) : Nat :=
  (number + divisor - 1) / divisor

/-! ## Dealing the snapshots -/

section Dealing

variable (calls : C → Nat)

/-- The next snapshots of a core, until their calls reach the average. -/
def takeSnapshots (averageCallsPerWorker : Nat) (starting : SimpleSnapshot C) :
    SimpleSnapshot C → List (SimpleSnapshot C) → SimpleSnapshot C × List (SimpleSnapshot C)
  | current, [] => (current, [])
  | current, next :: rest =>
      if calls current.state.counters - calls starting.state.counters < averageCallsPerWorker then
        takeSnapshots averageCallsPerWorker starting next rest
      else
        (current, next :: rest)

/-- A range of the buffer of a circuit; the source panics on any other. -/
def bufferSlice (numCircuits cyclesPerCircuit circuit start stop : Nat) : Option Slice :=
  if circuit < numCircuits ∧ start ≤ stop ∧ stop ≤ cyclesPerCircuit then
    some ⟨circuit, start, stop⟩
  else
    none

/-- The slices from `srcChunk` on, `remaining` of them. -/
def destinationChunks (numCircuits cyclesPerCircuit endChunkIdx endChunkOffset : Nat) :
    Nat → Nat → Nat → Option (List Slice)
  | 0, _, _ => some []
  | remaining + 1, srcChunk, offset =>
      if srcChunk = endChunkIdx then
        if offset < endChunkOffset then do
          let chunk ← bufferSlice numCircuits cyclesPerCircuit srcChunk offset endChunkOffset
          let chunks ← destinationChunks numCircuits cyclesPerCircuit endChunkIdx endChunkOffset
            remaining (srcChunk + 1) endChunkOffset
          some (chunk :: chunks)
        else
          destinationChunks numCircuits cyclesPerCircuit endChunkIdx endChunkOffset remaining
            (srcChunk + 1) offset
      else do
        let chunk ← bufferSlice numCircuits cyclesPerCircuit srcChunk offset cyclesPerCircuit
        let chunks ← destinationChunks numCircuits cyclesPerCircuit endChunkIdx endChunkOffset
          remaining (srcChunk + 1) 0
        some (chunk :: chunks)

/-- The slices for the calls between two counts. -/
def chunksBetween (numCircuits cyclesPerCircuit initialCalls endingCalls : Nat) :
    Option (List Slice) :=
  let startChunkIdx := initialCalls / cyclesPerCircuit
  let startChunkOffset := initialCalls % cyclesPerCircuit
  let endChunkIdx := endingCalls / cyclesPerCircuit
  let endChunkOffset := endingCalls % cyclesPerCircuit
  destinationChunks numCircuits cyclesPerCircuit endChunkIdx endChunkOffset
    (endChunkIdx + 1 - startChunkIdx) startChunkIdx startChunkOffset

/-- What a core is spawned with. -/
structure ReplayJob (C : Type) where
  starting : SimpleSnapshot C
  current : SimpleSnapshot C
  chunks : List Slice
  ramRangeStart : Nat
  ramRangeEnd : Nat
  numCycles : Nat

/-- The loop over the cores: their jobs, the end of the log dealt so far and the snapshots left. -/
def dealSnapshots [DecidableEq C] (numCircuits cyclesPerCircuit averageCallsPerWorker : Nat)
    (last : SimpleSnapshot C) :
    Nat → SimpleSnapshot C → Nat → List (SimpleSnapshot C) →
      Option (List (ReplayJob C) × Nat × List (SimpleSnapshot C))
  | 0, _, ramRangeStart, snapshots => some ([], ramRangeStart, snapshots)
  | cores + 1, starting, ramRangeStart, snapshots =>
      if starting = last then
        some ([], ramRangeStart, snapshots)
      else do
        let (current, left) :=
          takeSnapshots calls averageCallsPerWorker starting starting snapshots
        let chunks ← chunksBetween numCircuits cyclesPerCircuit (calls starting.state.counters)
          (calls current.state.counters)
        let elapsed := current.state.timestamp - starting.state.timestamp
        guard (elapsed % timestampStep = 0)
        let job : ReplayJob C :=
          { starting := starting
            current := current
            chunks := chunks
            ramRangeStart := ramRangeStart
            ramRangeEnd := current.readsEnd
            numCycles := (elapsed / timestampStep).toNat }
        let (jobs, dealt) ← dealSnapshots numCircuits cyclesPerCircuit averageCallsPerWorker last
          cores current current.readsEnd left
        some (job :: jobs, dealt)

end Dealing

/-! ## Replaying a stretch -/

section Jobs

variable [Ruint] (romBits : Nat) (tape : InstructionTape) (readsBuffer : List LogEntry)
  (D : DestinationHolderConstructor Element)

/-- A spawned replay: what it writes, if it does not diverge. -/
def runJob (job : ReplayJob C) : Option (List ((Nat × Nat) × Element)) := do
  let ram := ⟨makeRange readsBuffer job.ramRangeStart job.ramRangeEnd⟩
  let start : Replay C romBits _ := ⟨job.starting.state, ram, D.makeUninitTracer job.chunks⟩
  let replay ← replayBasicUnrolled tape job.numCycles start
  guard (job.current.state.pc = replay.state.pc)
  guard (job.current.state.timestamp = replay.state.timestamp)
  guard (job.current.state.registers = replay.state.registers)
  let destination ← replay.tracer.destination
  some destination.writes

/-- The buffers as returned: the last one is cut to the remainder of the calls. -/
def collectBuffers (numCircuits cyclesPerCircuit numCalls : Nat)
    (memory : Nat × Nat → Option Element) : Option (List (List Element)) := do
  let lastChunkInitSize := numCalls % cyclesPerCircuit
  let result ← (List.range numCircuits).mapM fun circuit =>
    (List.range (if circuit + 1 = numCircuits then lastChunkInitSize else cyclesPerCircuit)).mapM
      fun offset => memory (circuit, offset)
  guard ((result.map List.length).sum = numCalls)
  some result

end Jobs

/-! ## Kinds of work -/

/-- What the circuits of one kind prove: the rows their holder keeps are the calls of a counter. -/
structure Work (C : Type) [Counters C] (Element : Type) where
  calls : C → Nat
  holder : DestinationHolderConstructor Element
  countsRows : CountsRows calls holder

section Works

variable [Counters C] [DecidableEq C] [Ruint] {romBits : Nat}

/-- The snapshots as they are dealt to all cores. -/
def dealToCores (calls : C → Nat) (snapshotter : SimpleSnapshotter C) (cyclesPerCircuit : Nat)
    (numCores : Nat) (lastSnapshot : SimpleSnapshot C) :
    Option (List (ReplayJob C) × Nat × List (SimpleSnapshot C)) :=
  let numCalls := calls lastSnapshot.state.counters
  dealSnapshots calls (divCeil numCalls cyclesPerCircuit) cyclesPerCircuit
    (divCeil numCalls numCores) lastSnapshot numCores snapshotter.initialSnapshot 0
    snapshotter.snapshots

/-- The replay of one kind of work on some cores.  `schedule` is the order in which their writes
arrive, and `allDealt` the check after the loop over the cores. -/
def replayWork (romBits : Nat) (work : Work C Element) (tape : InstructionTape)
    (snapshotter : SimpleSnapshotter C) (cyclesPerCircuit : Nat)
    (allDealt : Nat → List (SimpleSnapshot C) → Bool) (numCores : Nat)
    (schedule : List (List ((Nat × Nat) × Element)) → List ((Nat × Nat) × Element)) :
    Option (List (List Element)) := do
  let lastSnapshot ← snapshotter.snapshots.getLast?
  let numCalls := work.calls lastSnapshot.state.counters
  if numCalls = 0 then
    some []
  else do
    let initial := snapshotter.initialSnapshot
    guard ((lastSnapshot.state.timestamp - initial.state.timestamp) % timestampStep = 0)
    let (jobs, ramRangeStart, left) ←
      dealToCores work.calls snapshotter cyclesPerCircuit numCores lastSnapshot
    let writes ← jobs.mapM (runJob romBits tape snapshotter.readsBuffer work.holder)
    guard (allDealt ramRangeStart left = true)
    collectBuffers (divCeil numCalls cyclesPerCircuit) cyclesPerCircuit numCalls
      (fill (schedule writes))

/-- All of the log must have been dealt. -/
def replayNonMem (romBits : Nat) (family : CircuitFamily) (notMemory : ¬ family.IsMemory)
    (tape : InstructionTape) (snapshotter : SimpleSnapshotter DelegationsAndFamiliesCounters) :=
  fun cyclesPerCircuit =>
    replayWork romBits ⟨_, _, countsRows_nonMem notMemory⟩ tape snapshotter cyclesPerCircuit
      fun ramRangeStart _ => ramRangeStart = snapshotter.readsBuffer.length

/-- All of the log must have been dealt. -/
def replayMem (romBits : Nat) (family : CircuitFamily) (isMemory : family.IsMemory)
    (tape : InstructionTape) (snapshotter : SimpleSnapshotter DelegationsAndFamiliesCounters) :=
  fun cyclesPerCircuit =>
    replayWork romBits ⟨_, _, countsRows_mem isMemory⟩ tape snapshotter cyclesPerCircuit
      fun ramRangeStart _ => ramRangeStart = snapshotter.readsBuffer.length

/-- All snapshots must have been dealt. -/
def replayGenericWork (romBits : Nat) (work : Work C Element) (tape : InstructionTape)
    (snapshotter : SimpleSnapshotter C) (cyclesPerCircuit : Nat) :=
  replayWork romBits work tape snapshotter cyclesPerCircuit fun _ left => left.isEmpty

end Works

/-! ## Slices -/

section Slices

variable {cyclesPerCircuit numCalls : Nat}

theorem lt_divCeil_iff (positive : 0 < cyclesPerCircuit) {circuit : Nat} :
    circuit < divCeil numCalls cyclesPerCircuit ↔ circuit * cyclesPerCircuit < numCalls := by
  rw [divCeil, ← Nat.succ_le_iff, Nat.le_div_iff_mul_le positive, Nat.succ_mul]
  omega

theorem le_divCeil_mul (positive : 0 < cyclesPerCircuit) :
    numCalls ≤ divCeil numCalls cyclesPerCircuit * cyclesPerCircuit :=
  Nat.le_of_not_lt fun more => Nat.lt_irrefl _ ((lt_divCeil_iff positive).mpr more)

theorem places_eq {circuit start stop : Nat} (fits : stop ≤ cyclesPerCircuit) :
    Slice.places ⟨circuit, start, stop⟩ =
      (List.range' (circuit * cyclesPerCircuit + start) (stop - start)).map
        (place cyclesPerCircuit) := by
  rw [← List.map_add_range', List.map_map, Slice.places]
  refine List.map_congr_left fun offset member => ?_
  have bounds := List.mem_range'_1.mp member
  exact (place_of_lt (by dsimp only at bounds; omega)).symm

/-- The slices for the calls up to `endChunkIdx * cyclesPerCircuit + endChunkOffset` are their
places, in order. -/
theorem destinationChunks_eq_some (positive : 0 < cyclesPerCircuit)
    {endChunkIdx endChunkOffset : Nat} (inside : endChunkOffset < cyclesPerCircuit)
    (stop : endChunkIdx * cyclesPerCircuit + endChunkOffset ≤ numCalls)
    {before srcChunk offset : Nat} (chunk : srcChunk + before = endChunkIdx)
    (fits : offset < cyclesPerCircuit)
    (order : srcChunk * cyclesPerCircuit + offset ≤
      endChunkIdx * cyclesPerCircuit + endChunkOffset) :
    ∃ chunks,
      destinationChunks (divCeil numCalls cyclesPerCircuit) cyclesPerCircuit endChunkIdx
          endChunkOffset (before + 1) srcChunk offset = some chunks ∧
        (∀ slice ∈ chunks, slice.start < slice.stop) ∧
        chunks.flatMap Slice.places =
          (List.range' (srcChunk * cyclesPerCircuit + offset)
            (endChunkIdx * cyclesPerCircuit + endChunkOffset -
              (srcChunk * cyclesPerCircuit + offset))).map (place cyclesPerCircuit) := by
  induction before generalizing srcChunk offset with
  | zero =>
      rw [Nat.add_zero] at chunk
      subst chunk
      by_cases more : offset < endChunkOffset
      · have circuit : srcChunk < divCeil numCalls cyclesPerCircuit :=
          (lt_divCeil_iff positive).mpr (by omega)
        refine ⟨[⟨srcChunk, offset, endChunkOffset⟩], ?_, ?_, ?_⟩
        · simp [destinationChunks, bufferSlice, more, circuit, more.le, inside.le]
        · simpa using more
        · rw [List.flatMap_singleton, places_eq inside.le]
          congr 2
          omega
      · have none : srcChunk * cyclesPerCircuit + endChunkOffset -
            (srcChunk * cyclesPerCircuit + offset) = 0 := by
          omega
        refine ⟨[], ?_, by simp, ?_⟩
        · simp [destinationChunks, more]
        · rw [none]
          rfl
  | succ before inductionHypothesis =>
      have notLast : srcChunk ≠ endChunkIdx := by
        omega
      have whole : (srcChunk + 1) * cyclesPerCircuit ≤ endChunkIdx * cyclesPerCircuit :=
        Nat.mul_le_mul_right _ (by omega)
      have next : (srcChunk + 1) * cyclesPerCircuit =
          srcChunk * cyclesPerCircuit + cyclesPerCircuit :=
        Nat.succ_mul _ _
      have circuit : srcChunk < divCeil numCalls cyclesPerCircuit :=
        (lt_divCeil_iff positive).mpr (by omega)
      rcases @inductionHypothesis (srcChunk + 1) 0 (by omega) positive (by omega) with
        ⟨chunks, others, nonempty, places⟩
      refine ⟨⟨srcChunk, offset, cyclesPerCircuit⟩ :: chunks, ?_, ?_, ?_⟩
      · rw [destinationChunks, if_neg notLast, others]
        simp [bufferSlice, circuit, fits.le]
      · exact List.forall_mem_cons.mpr ⟨fits, nonempty⟩
      · rw [List.flatMap_cons, places, places_eq (le_refl _), ← List.map_append, Nat.add_zero]
        have start : (srcChunk + 1) * cyclesPerCircuit =
            srcChunk * cyclesPerCircuit + offset + 1 * (cyclesPerCircuit - offset) := by
          omega
        rw [start, List.range'_append]
        congr 2
        omega

theorem chunksBetween_eq_some (positive : 0 < cyclesPerCircuit) {initialCalls endingCalls : Nat}
    (order : initialCalls ≤ endingCalls) (listed : endingCalls ≤ numCalls) :
    ∃ chunks,
      chunksBetween (divCeil numCalls cyclesPerCircuit) cyclesPerCircuit initialCalls
          endingCalls = some chunks ∧
        (∀ slice ∈ chunks, slice.start < slice.stop) ∧
        chunks.flatMap Slice.places =
          (List.range' initialCalls (endingCalls - initialCalls)).map (place cyclesPerCircuit) := by
  have first := Nat.div_add_mod' initialCalls cyclesPerCircuit
  have last := Nat.div_add_mod' endingCalls cyclesPerCircuit
  have chunks : initialCalls / cyclesPerCircuit ≤ endingCalls / cyclesPerCircuit :=
    Nat.div_le_div_right order
  have count : endingCalls / cyclesPerCircuit + 1 - initialCalls / cyclesPerCircuit =
      endingCalls / cyclesPerCircuit - initialCalls / cyclesPerCircuit + 1 := by
    omega
  have found := destinationChunks_eq_some positive (Nat.mod_lt endingCalls positive)
    (last.le.trans listed) (Nat.add_sub_cancel' chunks) (Nat.mod_lt initialCalls positive)
    (by rw [first, last]; exact order)
  rw [first, last] at found
  rw [chunksBetween, count]
  exact found

end Slices

/-! ## The buffers of the circuits -/

section Collected

variable {cyclesPerCircuit : Nat}

/-- A sequence cut into buffers of the circuits. -/
def inBuffers (cyclesPerCircuit : Nat) (data : List Element) : List (List Element) :=
  (List.range (divCeil data.length cyclesPerCircuit)).map fun circuit =>
    (data.drop (circuit * cyclesPerCircuit)).take cyclesPerCircuit

theorem flatten_inBuffers (positive : 0 < cyclesPerCircuit) (data : List Element) :
    (inBuffers cyclesPerCircuit data).flatten = data := by
  rw [inBuffers, flatten_buffers]
  exact List.take_of_length_le (le_divCeil_mul positive)

theorem mapM_eq_some_map {α β : Type} {f : α → Option β} {g : α → β} {list : List α}
    (each : ∀ element ∈ list, f element = some (g element)) :
    list.mapM f = some (list.map g) := by
  induction list with
  | nil => rfl
  | cons first rest inductionHypothesis =>
      rw [List.forall_mem_cons] at each
      rw [List.mapM_cons, each.1, inductionHypothesis each.2]
      rfl

/-- The buffers are returned unless the last circuit is full: its remainder is then zero, and the
count of the calls does not match. -/
theorem collectBuffers_eq (positive : 0 < cyclesPerCircuit) {data : List Element}
    (calls : 0 < data.length) {writes : List ((Nat × Nat) × Element)}
    (order : writes.Perm (scatter cyclesPerCircuit data)) :
    collectBuffers (divCeil data.length cyclesPerCircuit) cyclesPerCircuit data.length
        (fill writes) =
      if data.length % cyclesPerCircuit = 0 then none
      else some (inBuffers cyclesPerCircuit data) := by
  have circuits : 0 < divCeil data.length cyclesPerCircuit :=
    (lt_divCeil_iff positive).mpr (by omega)
  rcases Nat.exists_eq_succ_of_ne_zero circuits.ne' with ⟨full, numCircuits⟩
  have started : full * cyclesPerCircuit < data.length :=
    (lt_divCeil_iff positive).mp (by omega)
  have enough : data.length ≤ full * cyclesPerCircuit + cyclesPerCircuit := by
    have bound := @le_divCeil_mul _ data.length positive
    rwa [numCircuits, Nat.succ_mul] at bound
  have remainder := Nat.mod_lt data.length positive
  have rest : data.length % cyclesPerCircuit = (data.length - full * cyclesPerCircuit) %
      cyclesPerCircuit := by
    have split : data.length =
        data.length - full * cyclesPerCircuit + full * cyclesPerCircuit := by
      omega
    conv_lhs => rw [split]
    exact Nat.add_mul_mod_self_right _ _ _
  have restLe : full * cyclesPerCircuit + data.length % cyclesPerCircuit ≤ data.length := by
    have le := Nat.mod_le (data.length - full * cyclesPerCircuit) cyclesPerCircuit
    omega
  have earlier : ∀ circuit, circuit < full →
      circuit * cyclesPerCircuit + cyclesPerCircuit ≤ data.length := by
    intro circuit before
    have le := Nat.mul_le_mul_right cyclesPerCircuit (Nat.succ_le_of_lt before)
    rw [Nat.succ_mul] at le
    omega
  -- the full buffers, and what is kept of the last one
  have collected :
      ((List.range (full + 1)).mapM fun circuit =>
        (List.range (if circuit + 1 = full + 1 then data.length % cyclesPerCircuit
          else cyclesPerCircuit)).mapM fun offset => fill writes (circuit, offset)) =
        some
          (((List.range full).map fun circuit =>
            (data.drop (circuit * cyclesPerCircuit)).take cyclesPerCircuit) ++
          [(data.drop (full * cyclesPerCircuit)).take (data.length % cyclesPerCircuit)]) := by
    have before := @mapM_eq_some_map _ _
      (fun circuit => (List.range (if circuit + 1 = full + 1 then data.length % cyclesPerCircuit
        else cyclesPerCircuit)).mapM fun offset => fill writes (circuit, offset))
      (fun circuit => (data.drop (circuit * cyclesPerCircuit)).take cyclesPerCircuit)
      (List.range full) (by
        intro circuit member
        have notLast := List.mem_range.mp member
        rw [if_neg (by omega)]
        exact mapM_fill order (le_refl _) (earlier circuit notLast))
    have last := mapM_fill order remainder.le restLe
    rw [List.range_succ, List.mapM_append, before]
    simp only [List.mapM_cons, List.mapM_nil, if_pos, last, Option.pure_def,
      Option.bind_eq_bind, Option.bind_some]
  have joined :
      (((List.range full).map fun circuit =>
          (data.drop (circuit * cyclesPerCircuit)).take cyclesPerCircuit) ++
        [(data.drop (full * cyclesPerCircuit)).take (data.length % cyclesPerCircuit)]).flatten =
        data.take (full * cyclesPerCircuit + data.length % cyclesPerCircuit) := by
    rw [List.flatten_append, flatten_buffers, List.flatten_singleton, List.take_add]
  rw [collectBuffers, numCircuits, collected]
  simp only [Option.bind_eq_bind, Option.bind_some]
  rw [← List.length_flatten, joined, List.length_take, Nat.min_eq_left restLe]
  split
  · rename_i whole
    rw [whole, Nat.add_zero, guard, if_neg (by omega)]
    rfl
  · rename_i partly
    have exact : full * cyclesPerCircuit + data.length % cyclesPerCircuit = data.length := by
      rcases Nat.lt_or_eq_of_le enough with less | whole
      · have mod : (data.length - full * cyclesPerCircuit) % cyclesPerCircuit =
            data.length - full * cyclesPerCircuit :=
          Nat.mod_eq_of_lt (by omega)
        omega
      · rw [whole, ← Nat.succ_mul, Nat.mul_mod_left] at partly
        exact absurd rfl partly
    have last : (data.drop (full * cyclesPerCircuit)).take (data.length % cyclesPerCircuit) =
        (data.drop (full * cyclesPerCircuit)).take cyclesPerCircuit := by
      rw [List.take_of_length_le (by simp; omega), List.take_of_length_le (by simp; omega)]
    rw [exact, last, inBuffers, numCircuits, List.range_succ, List.map_append]
    simp

end Collected

/-! ## Stretches of a run -/

section Stretches

theorem bitVec_sub_toNat {first last : TimestampScalar} (order : first.toNat ≤ last.toNat) :
    (last - first).toNat = last.toNat - first.toNat := by
  have bound := last.isLt
  rw [BitVec.toNat_sub]
  omega

/-- The cycles of a span, as the source counts them. -/
theorem elapsed_cycles {first last : TimestampScalar} (later : first.toNat < last.toNat)
    (cycles : last.toNat % 4 = first.toNat % 4) :
    (last - first) % timestampStep = 0 ∧
      first + timestampStep * BitVec.ofNat 64 ((last - first) / timestampStep).toNat = last := by
  have bound := last.isLt
  have elapsed := bitVec_sub_toNat later.le
  have step : timestampStep.toNat = 4 := rfl
  constructor
  · apply BitVec.eq_of_toNat_eq
    rw [BitVec.toNat_umod, elapsed, step]
    change _ = 0
    omega
  · apply BitVec.eq_of_toNat_eq
    rw [BitVec.toNat_add, BitVec.toNat_mul, BitVec.toNat_ofNat, BitVec.toNat_udiv, elapsed, step]
    omega

/-- A core takes snapshots until their calls reach the average, or all that are left. -/
theorem takeSnapshots_eq {calls : C → Nat} {average : Nat} {snapshots left : List (SimpleSnapshot C)}
    {starting current : SimpleSnapshot C} {i : Nat} (found : snapshots[i]? = some current)
    (isLeft : left = snapshots.drop (i + 1)) :
    ∃ j next, i ≤ j ∧ snapshots[j]? = some next ∧
      takeSnapshots calls average starting current left = (next, snapshots.drop (j + 1)) ∧
      (j + 1 = snapshots.length ∨
        average ≤ calls next.state.counters - calls starting.state.counters) := by
  induction left generalizing i current with
  | nil =>
      have inside := (List.getElem?_eq_some_iff.mp found).1
      have atEnd := List.drop_eq_nil_iff.mp isLeft.symm
      refine ⟨i, current, le_refl _, found, ?_, .inl (by omega)⟩
      rw [takeSnapshots, ← isLeft]
  | cons next rest inductionHypothesis =>
      have foundNext : snapshots[i + 1]? = some next := by
        rw [← List.head?_drop, ← isLeft]
        rfl
      have isRest : rest = snapshots.drop (i + 1 + 1) := by
        rw [← List.drop_drop, ← isLeft]
        rfl
      rw [takeSnapshots]
      split
      · rcases inductionHypothesis foundNext isRest with ⟨j, last, order, taken⟩
        exact ⟨j, last, by omega, taken⟩
      · rename_i enough
        exact ⟨i, current, le_refl _, found, by rw [isLeft], .inr (Nat.le_of_not_lt enough)⟩

variable [Counters C] [Ruint] {romBits : Nat} {tape : InstructionTape}
  {readsBuffer : List LogEntry} {D : DestinationHolderConstructor Element}

/-- A core with the slices for the rows of its stretch fills them in order. -/
theorem runJob_eq_some {job : ReplayJob C} {rows : List TraceRow}
    (span : Span romBits tape readsBuffer job.starting job.current rows)
    (start : job.ramRangeStart = job.starting.readsEnd)
    (stop : job.ramRangeEnd = job.current.readsEnd)
    (numCycles : job.numCycles =
      ((job.current.state.timestamp - job.starting.state.timestamp) / timestampStep).toNat)
    (nonempty : ∀ slice ∈ job.chunks, slice.start < slice.stop)
    (length : (rows.filterMap D.select).length = (job.chunks.flatMap Slice.places).length) :
    runJob romBits tape readsBuffer D job =
      some ((job.chunks.flatMap Slice.places).zip (rows.filterMap D.select)) := by
  rcases span.replays (D.makeUninitTracer job.chunks) with
    ⟨replay, replayed, tracer, _, pc, timestamp, registers⟩
  have bound := (elapsed_cycles span.later span.cycles).2
  rw [← numCycles] at bound
  have isOpen : Destination.Open (⟨job.chunks, []⟩ : Destination Element) := nonempty
  rcases isOpen.writeAll length with ⟨filled, written, writes⟩
  have destination : replay.tracer.destination = some filled := by
    rw [tracer, DestinationHolderConstructor.offerAll_eq]
    exact written
  rw [runJob, replayBasicUnrolled, start, stop, bound, replayed]
  simp only [Option.bind_eq_bind, Option.bind_some, pc, timestamp, registers, guard, if_pos,
    Option.pure_def, destination, writes, List.nil_append]
  rfl

variable {snapshots : List (SimpleSnapshot C)} {rowsAt : List (List TraceRow)} {calls : C → Nat}

/-- What a holder keeps of the rows between two snapshots. -/
def kept (D : DestinationHolderConstructor Element) (rowsAt : List (List TraceRow)) (i j : Nat) :
    List Element :=
  ((rowsAt.take j).drop i).flatten.filterMap D.select

omit [Ruint] in
theorem kept_append {i j k : Nat} (before : i ≤ j) (after : j ≤ k) :
    kept D rowsAt i j ++ kept D rowsAt j k = kept D rowsAt i k := by
  rw [kept, kept, kept, ← List.filterMap_append, ← List.flatten_append,
    drop_take_append rowsAt before after]

omit [Ruint] in
theorem kept_self (i : Nat) : kept D rowsAt i i = [] := by
  rw [kept, List.drop_of_length_le (by simp)]
  rfl

omit [Ruint] in
theorem kept_all : kept D rowsAt 0 rowsAt.length = rowsAt.flatten.filterMap D.select := by
  rw [kept, List.take_length]
  rfl

theorem calls_eq_add (spans : Spans romBits tape readsBuffer snapshots rowsAt)
    (counts : CountsRows calls D) {i j : Nat} (order : i ≤ j) {first last : SimpleSnapshot C}
    (found : snapshots[i]? = some first) (foundLast : snapshots[j]? = some last) :
    calls last.state.counters = calls first.state.counters + (kept D rowsAt i j).length := by
  rcases Nat.lt_or_eq_of_le order with before | rfl
  · exact counts (spans.span before found foundLast).counted
  · rw [found] at foundLast
    cases foundLast
    rw [kept_self]
    rfl

/-- A core from one snapshot to another one: its slices are inside the buffers, and it writes what
lies in between to their places. -/
theorem runJob_between (spans : Spans romBits tape readsBuffer snapshots rowsAt)
    (counts : CountsRows calls D) {cyclesPerCircuit : Nat} (positive : 0 < cyclesPerCircuit)
    {i j : Nat} (order : i < j) {starting current last : SimpleSnapshot C}
    (found : snapshots[i]? = some starting) (foundCurrent : snapshots[j]? = some current)
    (foundLast : snapshots[rowsAt.length]? = some last) :
    ∃ chunks,
      chunksBetween (divCeil (calls last.state.counters) cyclesPerCircuit) cyclesPerCircuit
          (calls starting.state.counters) (calls current.state.counters) = some chunks ∧
        chunks.flatMap Slice.places =
          (List.range' (calls starting.state.counters) (kept D rowsAt i j).length).map
            (place cyclesPerCircuit) ∧
        runJob romBits tape readsBuffer D
            { starting := starting
              current := current
              chunks := chunks
              ramRangeStart := starting.readsEnd
              ramRangeEnd := current.readsEnd
              numCycles :=
                ((current.state.timestamp - starting.state.timestamp) / timestampStep).toNat } =
          some (((List.range' (calls starting.state.counters) (kept D rowsAt i j).length).map
            (place cyclesPerCircuit)).zip (kept D rowsAt i j)) := by
  have inside := (List.getElem?_eq_some_iff.mp foundCurrent).1
  have length := spans.length
  have span := spans.span order found foundCurrent
  have counted := calls_eq_add spans counts order.le found foundCurrent
  have countedLast : calls last.state.counters =
      calls current.state.counters + (kept D rowsAt j rowsAt.length).length :=
    calls_eq_add spans counts (by omega) foundCurrent foundLast
  rcases @chunksBetween_eq_some _ (calls last.state.counters) positive
      (calls starting.state.counters) (calls current.state.counters) (by omega) (by omega)
    with ⟨chunks, between, nonempty, places⟩
  rw [counted, Nat.add_sub_cancel_left] at places
  refine ⟨chunks, between, places, ?_⟩
  rw [← places]
  refine runJob_eq_some span rfl rfl rfl nonempty ?_
  change (kept D rowsAt i j).length = (chunks.flatMap Slice.places).length
  rw [places, List.length_map, List.length_range']

/-- Some cores from a snapshot on: each fills its slices, together they write what lies up to the last
snapshot they are dealt, in order, and unless that is the last of all, each of them has at least the
average of calls. -/
theorem dealSnapshots_replays [DecidableEq C]
    (spans : Spans romBits tape readsBuffer snapshots rowsAt) (counts : CountsRows calls D)
    {cyclesPerCircuit average : Nat} (positive : 0 < cyclesPerCircuit) (quota : 0 < average)
    {last : SimpleSnapshot C} (foundLast : snapshots[rowsAt.length]? = some last)
    (cores : Nat) {i : Nat} {starting : SimpleSnapshot C}
    (found : snapshots[i]? = some starting) :
    ∃ j jobs current writes, i ≤ j ∧ j ≤ rowsAt.length ∧ snapshots[j]? = some current ∧
      dealSnapshots calls (divCeil (calls last.state.counters) cyclesPerCircuit) cyclesPerCircuit
          average last cores starting starting.readsEnd (snapshots.drop (i + 1)) =
        some (jobs, current.readsEnd, snapshots.drop (j + 1)) ∧
      jobs.mapM (runJob romBits tape readsBuffer D) = some writes ∧
      writes.map (List.map Prod.fst) =
        jobs.map (fun job => job.chunks.flatMap Slice.places) ∧
      writes.flatten =
        ((List.range' (calls starting.state.counters) (kept D rowsAt i j).length).map
          (place cyclesPerCircuit)).zip (kept D rowsAt i j) ∧
      (j = rowsAt.length ∨
        calls starting.state.counters + cores * average ≤ calls current.state.counters) := by
  have length := spans.length
  have listed : i ≤ rowsAt.length := by
    have inside := (List.getElem?_eq_some_iff.mp found).1
    omega
  have nothing (first k : Nat) : ([] : List ((Nat × Nat) × Element)) =
      ((List.range' first (kept D rowsAt k k).length).map (place cyclesPerCircuit)).zip
        (kept D rowsAt k k) := by
    rw [kept_self]
    rfl
  induction cores generalizing i starting with
  | zero =>
      exact ⟨i, [], starting, [], le_refl _, listed, found, rfl, rfl, rfl, nothing _ _,
        .inr (by omega)⟩
  | succ cores inductionHypothesis =>
      rw [dealSnapshots]
      by_cases isLast : starting = last
      · have atEnd : i = rowsAt.length := by
          refine Nat.le_antisymm listed (Nat.le_of_not_lt fun before => ?_)
          have later := (spans.span before found foundLast).later
          rw [isLast] at later
          exact Nat.lt_irrefl _ later
        exact ⟨i, [], starting, [], le_refl _, listed, found, if_pos isLast, rfl, rfl, nothing _ _,
          .inl atEnd⟩
      · have before : i < rowsAt.length := by
          refine Nat.lt_of_le_of_ne listed fun atEnd => isLast ?_
          rw [atEnd, foundLast] at found
          exact (Option.some.inj found).symm
        rcases @takeSnapshots_eq C calls average snapshots _ starting starting i found rfl with
          ⟨j, current, order, foundCurrent, taken, enough⟩
        have bound := (List.getElem?_eq_some_iff.mp foundCurrent).1
        have moved : i < j := by
          refine Nat.lt_of_le_of_ne order fun same => ?_
          subst same
          rw [found] at foundCurrent
          cases foundCurrent
          omega
        have span := spans.span moved found foundCurrent
        have counted := calls_eq_add spans counts order found foundCurrent
        rcases runJob_between spans counts positive moved found foundCurrent foundLast with
          ⟨chunks, between, places, ran⟩
        rcases inductionHypothesis foundCurrent (by omega) with
          ⟨k, jobs, final, writes, orderLater, listedLater, foundFinal, dealt, run, own, joined,
            ends⟩
        let job : ReplayJob C :=
          { starting := starting
            current := current
            chunks := chunks
            ramRangeStart := starting.readsEnd
            ramRangeEnd := current.readsEnd
            numCycles :=
              ((current.state.timestamp - starting.state.timestamp) / timestampStep).toNat }
        refine ⟨k, job :: jobs, final, _ :: writes, order.trans orderLater, listedLater, foundFinal,
          ?_, by rw [List.mapM_cons, ran, run]; rfl, ?_, ?_, ?_⟩
        · rw [if_neg isLast, taken]
          simp only [between, guard, if_pos (elapsed_cycles span.later span.cycles).1, dealt,
            Option.bind_eq_bind, Option.bind_some, Option.pure_def]
          rfl
        · rw [List.map_cons, own, List.map_cons, places, List.map_fst_zip]
          rw [List.length_map, List.length_range']
        · rw [List.flatten_cons, joined, ← kept_append order orderLater, List.length_append,
            ← List.range'_append_1, List.map_append, List.zip_append, counted]
          rw [List.length_map, List.length_range']
        · rcases ends with atEnd | more
          · exact .inl atEnd
          · rcases enough with atEnd | reached
            · exact .inl (by omega)
            · refine .inr ?_
              rw [Nat.succ_mul]
              omega

/-- What the cores write: each fills its own slices, all lie inside the buffers, and no place
is written twice. -/
structure OwnPlaces (numCircuits cyclesPerCircuit : Nat) (jobs : List (ReplayJob C))
    (writes : List (List ((Nat × Nat) × Element))) : Prop where
  own : writes.map (List.map Prod.fst) = jobs.map fun job => job.chunks.flatMap Slice.places
  inside : ∀ write ∈ writes.flatten, write.1.1 < numCircuits ∧ write.1.2 < cyclesPerCircuit
  once : (writes.flatten.map Prod.fst).Nodup

/-- All cores together write what lies up to the last snapshot: the calls that none of them is dealt
would exceed their number. -/
theorem dealToCores_replays [DecidableEq C] {snapshotter : SimpleSnapshotter C}
    (spans : Spans romBits tape readsBuffer
      (snapshotter.initialSnapshot :: snapshotter.snapshots) rowsAt)
    (counts : CountsRows calls D) {cyclesPerCircuit numCores : Nat}
    (positive : 0 < cyclesPerCircuit) (cores : 0 < numCores) {last : SimpleSnapshot C}
    (foundLast : (snapshotter.initialSnapshot :: snapshotter.snapshots)[rowsAt.length]? = some last)
    (fresh : calls snapshotter.initialSnapshot.state.counters = 0)
    (reads : snapshotter.initialSnapshot.readsEnd = 0)
    (nonempty : rowsAt.flatten.filterMap D.select ≠ []) :
    ∃ jobs ramRangeStart left writes,
      dealToCores calls snapshotter cyclesPerCircuit numCores last =
          some (jobs, ramRangeStart, left) ∧
        jobs.mapM (runJob romBits tape readsBuffer D) = some writes ∧
        OwnPlaces (divCeil (rowsAt.flatten.filterMap D.select).length cyclesPerCircuit)
          cyclesPerCircuit jobs writes ∧
        writes.flatten = scatter cyclesPerCircuit (rowsAt.flatten.filterMap D.select) := by
  have foundFirst : (snapshotter.initialSnapshot :: snapshotter.snapshots)[0]? =
      some snapshotter.initialSnapshot := rfl
  have numCalls := calls_eq_add spans counts (Nat.zero_le _) foundFirst foundLast
  rw [fresh, Nat.zero_add, kept_all] at numCalls
  have calls := List.length_pos_iff.mpr nonempty
  have enough := @le_divCeil_mul numCores (rowsAt.flatten.filterMap D.select).length cores
  have average := (@lt_divCeil_iff numCores _ cores 0).mpr ((Nat.zero_mul _).trans_lt calls)
  rcases dealSnapshots_replays spans counts positive average foundLast numCores foundFirst with
    ⟨j, jobs, current, writes, _, listed, foundCurrent, dealt, run, own, joined, ends⟩
  have callsCurrent := calls_eq_add spans counts (Nat.zero_le j) foundFirst foundCurrent
  have split : kept D rowsAt 0 j ++ kept D rowsAt j rowsAt.length =
      rowsAt.flatten.filterMap D.select := by
    rw [kept_append (Nat.zero_le j) listed, kept_all]
  have lengths := congrArg List.length split
  rw [List.length_append] at lengths
  have rest : kept D rowsAt j rowsAt.length = [] := by
    rcases ends with rfl | reached
    · exact kept_self _
    · refine List.eq_nil_of_length_eq_zero ?_
      rw [Nat.mul_comm] at enough
      omega
  rw [rest, List.append_nil] at split
  have written :
      writes.flatten = scatter cyclesPerCircuit (rowsAt.flatten.filterMap D.select) := by
    rw [joined, split, fresh, scatter, List.range_eq_range']
  refine ⟨jobs, current.readsEnd, _, writes, Eq.trans ?_ dealt, run, ⟨own, ?_, ?_⟩, written⟩
  · rw [dealToCores, numCalls, reads]
    rfl
  · rw [written]
    intro write member
    rcases mem_scatter positive member with ⟨circuit, offset⟩
    exact ⟨(lt_divCeil_iff positive).mpr circuit, offset⟩
  · rw [written]
    exact nodup_scatter _ _

end Stretches

/-! ## Parallel and sequential replay -/

section Replays

variable {ND : Type} [NonDeterminismCSRSource ND] [Ruint] [Counters C] [DecidableEq C]
  {romBits : Nat} {tape : InstructionTape}

/-- What the replay of a kind of work returns on some cores when `data` are the calls in order.
Without calls there are no circuits.  Otherwise no core diverges, and each writes to places of its
own; the circuits are returned unless the last of them is full or the check after the loop over the
cores fails. -/
structure ReplayedAs (romBits : Nat) (work : Work C Element) (tape : InstructionTape)
    (snapshotter : SimpleSnapshotter C) (cyclesPerCircuit numCores : Nat)
    (allDealt : Nat → List (SimpleSnapshot C) → Bool) (lastSnapshot : SimpleSnapshot C)
    (data : List Element) (result : Option (List (List Element))) : Prop where
  withoutCalls : data = [] → result = some []
  withCalls : data ≠ [] → ∃ jobs ramRangeStart left writes,
    dealToCores work.calls snapshotter cyclesPerCircuit numCores lastSnapshot =
        some (jobs, ramRangeStart, left) ∧
      jobs.mapM (runJob romBits tape snapshotter.readsBuffer work.holder) = some writes ∧
      OwnPlaces (divCeil data.length cyclesPerCircuit) cyclesPerCircuit jobs writes ∧
      result =
        if data.length % cyclesPerCircuit ≠ 0 ∧ allDealt ramRangeStart left = true then
          some (inBuffers cyclesPerCircuit data)
        else
          none

omit [DecidableEq C] in
/-- The sequential replay of a finished run, and the snapshot that it ends in. -/
theorem sequential_of_runsTo (supported : Tape romBits tape)
    {machine machine' : Machine C romBits ND} {snapshotter : SimpleSnapshotter C}
    (run : RunsTo tape machine true machine' snapshotter)
    (aligned : machine.state.timestamp.toNat % 4 = 0) (zero : machine.state.ZeroX0) :
    ∃ rowsAt lastSnapshot,
      Spans romBits tape snapshotter.readsBuffer
          (snapshotter.initialSnapshot :: snapshotter.snapshots) rowsAt ∧
        snapshotter.initialSnapshot = ⟨machine.state, 0, 0⟩ ∧
        snapshotter.snapshots.getLast? = some lastSnapshot ∧
        (snapshotter.initialSnapshot :: snapshotter.snapshots)[rowsAt.length]? =
          some lastSnapshot ∧
        replaySnapshots romBits tape snapshotter.readsBuffer
            (snapshotter.initialSnapshot :: snapshotter.snapshots) [] = some rowsAt.flatten := by
  rcases RunsTo.spans supported run aligned zero with ⟨initial, rowsAt, spans⟩
  have length := spans.length
  have finished := spans.finished
  rw [List.length_cons, Nat.add_right_cancel_iff] at length
  have foundLast : (snapshotter.initialSnapshot :: snapshotter.snapshots)[rowsAt.length]? =
      snapshotter.snapshots.getLast? := by
    rcases Nat.exists_eq_succ_of_ne_zero finished.ne' with ⟨earlier, count⟩
    rw [List.getLast?_eq_getElem?, length, count, Nat.succ_sub_one]
    rfl
  rcases isLast : snapshotter.snapshots.getLast? with _ | lastSnapshot
  · rw [List.getLast?_eq_none_iff.mp isLast] at length
    exact absurd length finished.ne
  rw [isLast] at foundLast
  have all : replaySnapshots romBits tape snapshotter.readsBuffer
      (((snapshotter.initialSnapshot :: snapshotter.snapshots).take
        (0 + rowsAt.length + 1)).drop 0) ([] : List TraceRow) =
      some (offerAll [] ((rowsAt.take (0 + rowsAt.length)).drop 0).flatten) :=
    spans.replaySnapshots (Nat.zero_add _).le []
  rw [List.take_of_length_le (by simp; omega), List.take_of_length_le (by simp),
    offerAll_rows] at all
  exact ⟨rowsAt, lastSnapshot, spans, initial, rfl, foundLast, all⟩

variable {machine machine' : Machine C romBits ND} {snapshotter : SimpleSnapshotter C}
  {rowsAt : List (List TraceRow)} {lastSnapshot : SimpleSnapshot C}
  {cyclesPerCircuit numCores : Nat}
  {schedule : List (List ((Nat × Nat) × Element)) → List ((Nat × Nat) × Element)}

omit [NonDeterminismCSRSource ND] in
/-- The cores replay what lies between the snapshots, whatever the order of their writes. -/
theorem replayedAs_of_spans
    (spans : Spans romBits tape snapshotter.readsBuffer
      (snapshotter.initialSnapshot :: snapshotter.snapshots) rowsAt)
    (initial : snapshotter.initialSnapshot = ⟨machine.state, 0, 0⟩)
    (isLast : snapshotter.snapshots.getLast? = some lastSnapshot)
    (foundLast : (snapshotter.initialSnapshot :: snapshotter.snapshots)[rowsAt.length]? =
      some lastSnapshot)
    (work : Work C Element) (fresh : work.calls machine.state.counters = 0)
    (positive : 0 < cyclesPerCircuit) (cores : 0 < numCores)
    (anyOrder : ∀ writes, (schedule writes).Perm writes.flatten)
    (allDealt : Nat → List (SimpleSnapshot C) → Bool) :
    work.calls lastSnapshot.state.counters =
        (rowsAt.flatten.filterMap work.holder.select).length ∧
      ReplayedAs romBits work tape snapshotter cyclesPerCircuit numCores allDealt lastSnapshot
        (rowsAt.flatten.filterMap work.holder.select)
        (replayWork romBits work tape snapshotter cyclesPerCircuit allDealt numCores schedule) := by
  have foundFirst : (snapshotter.initialSnapshot :: snapshotter.snapshots)[0]? =
      some snapshotter.initialSnapshot := rfl
  have start : work.calls snapshotter.initialSnapshot.state.counters = 0 := by
    rw [initial]
    exact fresh
  have numCalls := calls_eq_add spans work.countsRows (Nat.zero_le _) foundFirst foundLast
  rw [start, Nat.zero_add, kept_all] at numCalls
  refine ⟨numCalls, fun empty => ?_, fun nonempty => ?_⟩
  · rw [replayWork, isLast]
    simp only [Option.bind_eq_bind, Option.bind_some, numCalls, empty, List.length_nil, if_pos]
  · have calls := List.length_pos_iff.mpr nonempty
    have reads : snapshotter.initialSnapshot.readsEnd = 0 := by
      rw [initial]
    rcases dealToCores_replays spans work.countsRows positive cores foundLast start reads nonempty
      with ⟨jobs, ramRangeStart, left, writes, dealt, run, own, joined⟩
    have order := anyOrder writes
    rw [joined] at order
    have collected := collectBuffers_eq positive calls order
    have whole := spans.span spans.finished foundFirst foundLast
    have cycles := (elapsed_cycles whole.later whole.cycles).1
    refine ⟨jobs, ramRangeStart, left, writes, dealt, run, own, ?_⟩
    rw [replayWork, isLast]
    simp only [Option.bind_eq_bind, Option.bind_some, numCalls, if_neg calls.ne', cycles, guard,
      if_pos, Option.pure_def, dealt, run]
    by_cases returned : (rowsAt.flatten.filterMap work.holder.select).length %
        cyclesPerCircuit ≠ 0 ∧ allDealt ramRangeStart left = true
    · rw [collected, if_neg returned.1, if_pos returned, if_pos returned.2]
      rfl
    · rw [if_neg returned]
      rcases not_and_or.mp returned with full | more
      · rw [collected, if_pos (not_not.mp full)]
        split <;> rfl
      · rw [if_neg more]
        rfl

/-- Whatever the cores and the order of their writes, the buffers hold the rows that the sequential
replay of the run keeps for the work, in order. -/
theorem replayWork_eq (supported : Tape romBits tape)
    (run : RunsTo tape machine true machine' snapshotter)
    (aligned : machine.state.timestamp.toNat % 4 = 0) (zero : machine.state.ZeroX0)
    (work : Work C Element) (fresh : work.calls machine.state.counters = 0)
    (positive : 0 < cyclesPerCircuit) (cores : 0 < numCores)
    (anyOrder : ∀ writes, (schedule writes).Perm writes.flatten)
    (allDealt : Nat → List (SimpleSnapshot C) → Bool) :
    ∃ (rows : List TraceRow) (lastSnapshot : SimpleSnapshot C),
      replaySnapshots romBits tape snapshotter.readsBuffer
          (snapshotter.initialSnapshot :: snapshotter.snapshots) [] = some rows ∧
        snapshotter.snapshots.getLast? = some lastSnapshot ∧
        work.calls lastSnapshot.state.counters =
          (rows.filterMap work.holder.select).length ∧
        ReplayedAs romBits work tape snapshotter cyclesPerCircuit numCores allDealt lastSnapshot
          (rows.filterMap work.holder.select)
          (replayWork romBits work tape snapshotter cyclesPerCircuit allDealt numCores
            schedule) := by
  rcases sequential_of_runsTo supported run aligned zero with
    ⟨rowsAt, lastSnapshot, spans, initial, isLast, foundLast, sequential⟩
  exact ⟨rowsAt.flatten, lastSnapshot, sequential, isLast,
    replayedAs_of_spans spans initial isLast foundLast work fresh positive cores anyOrder allDealt⟩

theorem replayGenericWork_eq (supported : Tape romBits tape)
    (run : RunsTo tape machine true machine' snapshotter)
    (aligned : machine.state.timestamp.toNat % 4 = 0) (zero : machine.state.ZeroX0)
    (work : Work C Element) (fresh : work.calls machine.state.counters = 0)
    (positive : 0 < cyclesPerCircuit) (cores : 0 < numCores)
    (anyOrder : ∀ writes, (schedule writes).Perm writes.flatten) :
    ∃ (rows : List TraceRow) (lastSnapshot : SimpleSnapshot C),
      replaySnapshots romBits tape snapshotter.readsBuffer
          (snapshotter.initialSnapshot :: snapshotter.snapshots) [] = some rows ∧
        ReplayedAs romBits work tape snapshotter cyclesPerCircuit numCores
          (fun _ left => left.isEmpty) lastSnapshot (rows.filterMap work.holder.select)
          (replayGenericWork romBits work tape snapshotter cyclesPerCircuit numCores
            schedule) := by
  rcases sequential_of_runsTo supported run aligned zero with
    ⟨rowsAt, lastSnapshot, spans, initial, isLast, foundLast, sequential⟩
  exact ⟨rowsAt.flatten, lastSnapshot, sequential,
    (replayedAs_of_spans spans initial isLast foundLast work fresh positive cores anyOrder _).2⟩

end Replays

/-! ## Circuit families -/

section Families

variable {ND : Type} [NonDeterminismCSRSource ND] [Ruint] {romBits : Nat} {tape : InstructionTape}
  {machine machine' : Machine DelegationsAndFamiliesCounters romBits ND}
  {snapshotter : SimpleSnapshotter DelegationsAndFamiliesCounters} {family : CircuitFamily}
  {cyclesPerCircuit numCores : Nat}

theorem replayNonMem_eq (supported : Tape romBits tape)
    (run : RunsTo tape machine true machine' snapshotter)
    (aligned : machine.state.timestamp.toNat % 4 = 0) (zero : machine.state.ZeroX0)
    (notMemory : ¬ family.IsMemory)
    (fresh : machine.state.counters.getCallsToCircuitFamily family = 0)
    (positive : 0 < cyclesPerCircuit) (cores : 0 < numCores)
    {schedule : List (List ((Nat × Nat) × NonMemoryOpcodeTracingDataWithTimestamp)) →
      List ((Nat × Nat) × NonMemoryOpcodeTracingDataWithTimestamp)}
    (anyOrder : ∀ writes, (schedule writes).Perm writes.flatten) :
    ∃ (rows : List TraceRow) (lastSnapshot : SimpleSnapshot DelegationsAndFamiliesCounters),
      replaySnapshots romBits tape snapshotter.readsBuffer
          (snapshotter.initialSnapshot :: snapshotter.snapshots) [] = some rows ∧
        ReplayedAs romBits ⟨_, _, countsRows_nonMem notMemory⟩ tape snapshotter cyclesPerCircuit
          numCores (fun ramRangeStart _ => ramRangeStart = snapshotter.readsBuffer.length)
          lastSnapshot (rows.filterMap (nonMemDestinationHolderConstructor family).select)
          (replayNonMem romBits family notMemory tape snapshotter cyclesPerCircuit numCores
            schedule) := by
  rcases sequential_of_runsTo supported run aligned zero with
    ⟨rowsAt, lastSnapshot, spans, initial, isLast, foundLast, sequential⟩
  exact ⟨rowsAt.flatten, lastSnapshot, sequential,
    (replayedAs_of_spans spans initial isLast foundLast _ fresh positive cores anyOrder _).2⟩

theorem replayMem_eq (supported : Tape romBits tape)
    (run : RunsTo tape machine true machine' snapshotter)
    (aligned : machine.state.timestamp.toNat % 4 = 0) (zero : machine.state.ZeroX0)
    (isMemory : family.IsMemory)
    (fresh : machine.state.counters.getCallsToCircuitFamily family = 0)
    (positive : 0 < cyclesPerCircuit) (cores : 0 < numCores)
    {schedule : List (List ((Nat × Nat) × MemoryOpcodeTracingDataWithTimestamp)) →
      List ((Nat × Nat) × MemoryOpcodeTracingDataWithTimestamp)}
    (anyOrder : ∀ writes, (schedule writes).Perm writes.flatten) :
    ∃ (rows : List TraceRow) (lastSnapshot : SimpleSnapshot DelegationsAndFamiliesCounters),
      replaySnapshots romBits tape snapshotter.readsBuffer
          (snapshotter.initialSnapshot :: snapshotter.snapshots) [] = some rows ∧
        ReplayedAs romBits ⟨_, _, countsRows_mem isMemory⟩ tape snapshotter cyclesPerCircuit
          numCores (fun ramRangeStart _ => ramRangeStart = snapshotter.readsBuffer.length)
          lastSnapshot (rows.filterMap (memDestinationHolderConstructor family).select)
          (replayMem romBits family isMemory tape snapshotter cyclesPerCircuit numCores
            schedule) := by
  rcases sequential_of_runsTo supported run aligned zero with
    ⟨rowsAt, lastSnapshot, spans, initial, isLast, foundLast, sequential⟩
  exact ⟨rowsAt.flatten, lastSnapshot, sequential,
    (replayedAs_of_spans spans initial isLast foundLast _ fresh positive cores anyOrder _).2⟩

end Families

/-- The rounds of a Blake2s call in circuits of four calls, on two cores. -/
theorem replayWork_eq_blakeLoop :
    let tape := simpleTape blakeLoopInstructions
    let work : Work DelegationsAndFamiliesCounters DelegationWitness :=
      ⟨_, _, countsRows_delegation .blake⟩
    let allDealt := fun (_ : Nat) (left : List (SimpleSnapshot DelegationsAndFamiliesCounters)) =>
      left.isEmpty
    ∃ machine' snapshotter', RunsTo tape blakeCountsMachine true machine' snapshotter' ∧
      ∃ (rows : List TraceRow) (lastSnapshot : SimpleSnapshot DelegationsAndFamiliesCounters),
        replaySnapshots romSecondWordBits tape snapshotter'.readsBuffer
            (snapshotter'.initialSnapshot :: snapshotter'.snapshots) [] = some rows ∧
          snapshotter'.snapshots.getLast? = some lastSnapshot ∧
          work.calls lastSnapshot.state.counters =
            (rows.filterMap work.holder.select).length ∧
          ReplayedAs romSecondWordBits work tape snapshotter' 4 2 allDealt lastSnapshot
            (rows.filterMap work.holder.select)
            (replayWork romSecondWordBits work tape snapshotter' 4 allDealt 2 List.flatten) := by
  intro tape work allDealt
  rcases blakeCounts_runsTo with ⟨machine', snapshotter', _, run, _⟩
  exact ⟨machine', snapshotter', run,
    replayWork_eq blakeLoop_supported run rfl rfl work rfl (by decide) (by decide)
      (fun _ => .refl _) allDealt⟩

end Prover

end Airbender
