import Airbender.Replayer.MemoryArgument

/-!
# Rows and counters

The destination buffers of a circuit family are sized by the counters of the executor.  Between any
two snapshots the replay writes as many rows of a family and of a delegation as the executor has
counted, and one row for every cycle.
-/

namespace Airbender

open Replayer Vm

/-! ## Counts of a step -/

namespace DelegationsAndFamiliesCounters

/-- The counter of a delegation. -/
def callsTo (delegation : DelegationType) (counters : DelegationsAndFamiliesCounters) : Nat :=
  match delegation with
  | .bigInt => counters.bigintCalls
  | .blake => counters.blakeCalls
  | .keccak => counters.keccakCalls

variable (counters : DelegationsAndFamiliesCounters) (amount : Nat)

theorem getCallsToCircuitFamily_log (family other : CircuitFamily) :
    (Counters.logMultipleCircuitFamilyCalls family amount counters).getCallsToCircuitFamily other =
      counters.getCallsToCircuitFamily other + if other = family then amount else 0 := by
  cases family <;> cases other <;> rfl

theorem getCallsToCircuitFamily_bump (delegation : DelegationType) (family : CircuitFamily) :
    (delegation.bump amount counters).getCallsToCircuitFamily family =
      counters.getCallsToCircuitFamily family := by
  cases delegation <;> cases family <;> rfl

theorem callsTo_log (family : CircuitFamily) (delegation : DelegationType) :
    (Counters.logMultipleCircuitFamilyCalls family amount counters).callsTo delegation =
      counters.callsTo delegation := by
  cases family <;> cases delegation <;> rfl

theorem callsTo_bump (delegation other : DelegationType) :
    (delegation.bump amount counters).callsTo other =
      counters.callsTo other + if other = delegation then amount else 0 := by
  cases delegation <;> cases other <;> rfl

end DelegationsAndFamiliesCounters

namespace Replayer

/-- How many rows are for a circuit family. -/
def familyRows (family : CircuitFamily) (rows : List TraceRow) : Nat :=
  rows.countP fun row => row.family = some family

/-- How many rows are for a delegation. -/
def delegationRows (delegation : DelegationType) (rows : List TraceRow) : Nat :=
  rows.countP fun row => row.delegationType = some delegation.csr

section Counts

variable {before after : DelegationsAndFamiliesCounters} {rows : List TraceRow}

theorem countP_of_forall {p : TraceRow → Bool} {value : Bool}
    (same : ∀ row ∈ rows, p row = value) :
    rows.countP p = if value then rows.length else 0 := by
  cases value with
  | true => exact List.countP_eq_length.mpr same
  | false =>
      apply List.countP_eq_zero.mpr
      intro row member
      rw [same row member]
      exact Bool.false_ne_true

theorem csr_injective {first second : DelegationType} (same : first.csr = second.csr) :
    first = second := by
  cases first <;> cases second <;> first | rfl | exact absurd same (by decide)

/-- A step writes as many rows of a family as it counts. -/
theorem Counted.familyRows (counted : Counted before after rows) (family : CircuitFamily) :
    after.getCallsToCircuitFamily family =
      before.getCallsToCircuitFamily family + familyRows family rows := by
  cases counted with
  | single row written isRow isFamily counted =>
      rw [counted, isRow, DelegationsAndFamiliesCounters.getCallsToCircuitFamily_log,
        Replayer.familyRows, List.countP_singleton, isFamily]
      by_cases same : family = written
      · rw [same, if_pos rfl, if_pos (decide_eq_true rfl)]
      · have notSame : ¬ some written = some family := fun equal => same (Option.some.inj equal).symm
        rw [if_neg same, if_neg (by simp [notSame])]
  | batch delegation calls cycles delegations isRows numCycles _ areCycles areDelegations counted =>
      have inCycles : ∀ row ∈ cycles, decide (row.family = some family) =
          decide (family = .shiftBinaryCsr) := by
        intro row member
        rw [(areCycles row member).1, decide_eq_decide, Option.some.injEq, eq_comm]
      have inDelegations : ∀ row ∈ delegations, decide (row.family = some family) = false := by
        intro row member
        rw [(areDelegations row member).family]
        exact decide_eq_false (by simp)
      rw [counted, isRows, DelegationsAndFamiliesCounters.getCallsToCircuitFamily_log,
        DelegationsAndFamiliesCounters.getCallsToCircuitFamily_bump, Replayer.familyRows,
        List.countP_append, countP_of_forall inCycles, countP_of_forall inDelegations, numCycles]
      by_cases same : family = .shiftBinaryCsr <;> simp [same]

/-- A step writes as many rows of a delegation as it counts. -/
theorem Counted.delegationRows (counted : Counted before after rows)
    (delegation : DelegationType) :
    after.callsTo delegation = before.callsTo delegation + delegationRows delegation rows := by
  cases counted with
  | single row written isRow isFamily counted =>
      have noDelegation : row.delegationType = none := by
        cases row with
        | nonMemory _ _ => rfl
        | memory _ _ => rfl
        | delegation _ _ => cases isFamily
      rw [counted, isRow, DelegationsAndFamiliesCounters.callsTo_log, Replayer.delegationRows,
        List.countP_singleton, noDelegation]
      rfl
  | batch called calls cycles delegations isRows _ numDelegations areCycles areDelegations counted =>
      have inCycles : ∀ row ∈ cycles,
          decide (row.delegationType = some delegation.csr) = false := by
        intro row member
        rw [(areCycles row member).2]
        exact decide_eq_false (by simp)
      have inDelegations : ∀ row ∈ delegations,
          decide (row.delegationType = some delegation.csr) = decide (delegation = called) := by
        intro row member
        rw [(areDelegations row member).delegationType_eq, decide_eq_decide, Option.some.injEq]
        exact ⟨fun same => (csr_injective same).symm, fun same => same ▸ rfl⟩
      rw [counted, isRows, DelegationsAndFamiliesCounters.callsTo_log,
        DelegationsAndFamiliesCounters.callsTo_bump, Replayer.delegationRows, List.countP_append,
        countP_of_forall inCycles, countP_of_forall inDelegations, numDelegations]
      by_cases same : delegation = called <;> simp [same]

theorem CountedRun.familyRows (counted : CountedRun before after rows) (family : CircuitFamily) :
    after.getCallsToCircuitFamily family =
      before.getCallsToCircuitFamily family + familyRows family rows := by
  induction counted with
  | refl => rfl
  | tail _ step inductionHypothesis =>
      rw [step.familyRows family, inductionHypothesis, Replayer.familyRows, Replayer.familyRows,
        Replayer.familyRows, List.countP_append, Nat.add_assoc]

theorem CountedRun.delegationRows (counted : CountedRun before after rows)
    (delegation : DelegationType) :
    after.callsTo delegation = before.callsTo delegation + delegationRows delegation rows := by
  induction counted with
  | refl => rfl
  | tail _ step inductionHypothesis =>
      rw [step.delegationRows delegation, inductionHypothesis, Replayer.delegationRows,
        Replayer.delegationRows, Replayer.delegationRows, List.countP_append, Nat.add_assoc]

end Counts

/-! ## Times of a family -/

section Times

/-- The times of the rows of a family, in the order in which they are written. -/
def familyTimes (family : CircuitFamily) (rows : List TraceRow) : List TimestampData :=
  (rows.filter fun row => row.family = some family).filterMap TraceRow.cycleTimestamp

theorem cycleTimes_pairwise {start : TimestampScalar} {cycles : Nat}
    (fits : start.toNat + 4 * cycles ≤ 2 ^ 48) :
    (cycleTimes start cycles).Pairwise fun first second => first.asScalar < second.asScalar := by
  have time {i : Nat} (early : i < cycles) :
      (TimestampData.fromScalar (start + BitVec.ofNat 64 (4 * i))).asScalar.toNat =
        start.toNat + 4 * i := by
    have sum : (start + BitVec.ofNat 64 (4 * i)).toNat = start.toNat + 4 * i := by
      rw [BitVec.toNat_add, BitVec.toNat_ofNat]
      omega
    rw [TimestampData.asScalar_fromScalar (by omega), sum]
  rw [cycleTimes, List.pairwise_map]
  refine List.pairwise_lt_range.imp_of_mem fun {first second} isFirst isSecond before => ?_
  rw [BitVec.lt_def, time (List.mem_range.mp isFirst), time (List.mem_range.mp isSecond)]
  omega

theorem familyTimes_pairwise {rows : List TraceRow} {start : TimestampScalar} {cycles : Nat}
    (times : rows.filterMap TraceRow.cycleTimestamp = cycleTimes start cycles)
    (fits : start.toNat + 4 * cycles ≤ 2 ^ 48) (family : CircuitFamily) :
    (familyTimes family rows).Pairwise fun first second => first.asScalar < second.asScalar := by
  have sublist : (familyTimes family rows).Sublist (cycleTimes start cycles) := by
    rw [← times]
    exact List.filter_sublist.filterMap TraceRow.cycleTimestamp
  exact (cycleTimes_pairwise fits).sublist sublist

end Times

/-! ## Two snapshots of a run -/

section Runs

open Bigint Ir

variable {romBits : Nat} {ND : Type} [NonDeterminismCSRSource ND] [Ruint] {tape : InstructionTape}

/-- Between any two snapshots of a run the replay writes the rows that the executor has counted for
every family and every delegation, and the row of a cycle for every four time steps. -/
theorem replaySnapshots_counts (supported : Tape romBits tape)
    {machine machine' : Machine DelegationsAndFamiliesCounters romBits ND} {flag : Bool}
    {snapshotter' : SimpleSnapshotter DelegationsAndFamiliesCounters}
    (run : RunsTo tape machine flag machine' snapshotter')
    (aligned : machine.state.timestamp.toNat % 4 = 0) (zero : machine.state.ZeroX0) {i j : Nat}
    (order : i ≤ j) {snapshot snapshot' : SimpleSnapshot DelegationsAndFamiliesCounters}
    (first : (snapshotter'.initialSnapshot :: snapshotter'.snapshots)[i]? = some snapshot)
    (second : (snapshotter'.initialSnapshot :: snapshotter'.snapshots)[j]? = some snapshot') :
    ∃ rows : List TraceRow,
      replaySnapshots romBits tape snapshotter'.readsBuffer
          (((snapshotter'.initialSnapshot :: snapshotter'.snapshots).take (j + 1)).drop i) [] =
        some rows ∧
      (∀ family, snapshot'.state.counters.getCallsToCircuitFamily family =
        snapshot.state.counters.getCallsToCircuitFamily family + familyRows family rows) ∧
      (∀ delegation, snapshot'.state.counters.callsTo delegation =
        snapshot.state.counters.callsTo delegation + delegationRows delegation rows) ∧
      (∃ cycles, rows.filterMap TraceRow.cycleTimestamp =
          cycleTimes snapshot.state.timestamp cycles ∧
        snapshot'.state.timestamp.toNat = snapshot.state.timestamp.toNat + 4 * cycles) ∧
      (snapshot'.state.timestamp.toNat ≤ 2 ^ 48 → ∀ family,
        (familyTimes family rows).Pairwise fun first second =>
          first.asScalar < second.asScalar) := by
  rcases Finishes.recorded run.finishes with ⟨entries, last, recorded, logged, _⟩
  rcases List.getElem?_eq_some_iff.mp second with ⟨inside, _⟩
  rcases Recorded.take recorded inside with ⟨before, middle, taken, isPrefix, _, lastState⟩
  have length : ((snapshotter'.initialSnapshot :: snapshotter'.snapshots).take (j + 1)).length =
      j + 1 := by
    rw [List.length_take]
    omega
  rcases Recorded.writesFrom supported taken (le_refl _) aligned zero (isPrefix.trans logged)
    (i := i) (by omega) [] with ⟨current, rows, _, _, firstState, replayed, written⟩
  rw [second, Option.map_some, Option.some.injEq] at lastState
  rw [List.getElem?_take_of_lt (by omega), first, Option.map_some, Option.some.injEq] at firstState
  rw [firstState, lastState]
  refine ⟨rows, replayed, written.counted.familyRows, written.counted.delegationRows,
    written.times, ?_⟩
  intro fits family
  rcases written.times with ⟨cycles, times, lastTime⟩
  exact familyTimes_pairwise times (by omega) family

end Runs

/-- The machine of the Blake2s call, with the counters of all families. -/
def blakeCountsMachine : Machine DelegationsAndFamiliesCounters romSecondWordBits Unit :=
  initialMachine DelegationsAndFamiliesCounters.zero blakeLoopRam ()

theorem blakeCounts_runsTo :
    ∃ machine' snapshotter' snapshot',
      RunsTo (simpleTape blakeLoopInstructions) blakeCountsMachine true machine' snapshotter' ∧
        snapshotter'.snapshots[0]? = some snapshot' := by
  have stops :
      ((runBasicUnrolled (simpleTape blakeLoopInstructions) 7 blakeCountsMachine
          (SimpleSnapshotter.newWithCycleLimit blakeCountsMachine.state)).map fun result =>
        (result.1, result.2.2.snapshots[0]?.isSome)) = some (true, true) := by
    decide +kernel
  rcases Option.map_eq_some_iff.mp stops with ⟨⟨flag, machine', snapshotter'⟩, run, result⟩
  rcases Prod.mk.inj result with ⟨isLast, taken⟩
  have isTrue : flag = true := isLast
  subst isTrue
  rcases Option.isSome_iff_exists.mp taken with ⟨snapshot', found⟩
  exact ⟨machine', snapshotter', snapshot', .inl ⟨7, run⟩, found⟩

theorem replaySnapshots_counts_blakeLoop :
    let tape := simpleTape blakeLoopInstructions
    ∃ machine' snapshotter' snapshot',
      RunsTo tape blakeCountsMachine true machine' snapshotter' ∧
        snapshotter'.snapshots[0]? = some snapshot' ∧
        ∃ rows : List TraceRow,
          replaySnapshots romSecondWordBits tape snapshotter'.readsBuffer
              (((snapshotter'.initialSnapshot :: snapshotter'.snapshots).take 2).drop 0) [] =
            some rows ∧
          (∀ family, snapshot'.state.counters.getCallsToCircuitFamily family =
            snapshotter'.initialSnapshot.state.counters.getCallsToCircuitFamily family +
              familyRows family rows) ∧
          (∀ delegation, snapshot'.state.counters.callsTo delegation =
            snapshotter'.initialSnapshot.state.counters.callsTo delegation +
              delegationRows delegation rows) ∧
          (∃ cycles, rows.filterMap TraceRow.cycleTimestamp =
              cycleTimes snapshotter'.initialSnapshot.state.timestamp cycles ∧
            snapshot'.state.timestamp.toNat =
              snapshotter'.initialSnapshot.state.timestamp.toNat + 4 * cycles) ∧
          (snapshot'.state.timestamp.toNat ≤ 2 ^ 48 → ∀ family,
            (familyTimes family rows).Pairwise fun first second =>
              first.asScalar < second.asScalar) := by
  intro tape
  rcases blakeCounts_runsTo with ⟨machine', snapshotter', snapshot', run, found⟩
  have first :
      (snapshotter'.initialSnapshot :: snapshotter'.snapshots)[0]? =
        some snapshotter'.initialSnapshot := rfl
  exact ⟨machine', snapshotter', snapshot', run, found,
    replaySnapshots_counts blakeLoop_supported run rfl rfl (Nat.zero_le 1) first found⟩

end Replayer

end Airbender
