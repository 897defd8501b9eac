import Airbender.Replayer.RowCounts
import Airbender.Replayer.Tracers

/-!
# Destination holders

A worker fills parts of the buffers of several circuits.  Its tracer needs the rows of one kind of
work and writes each into the next free place.
-/

namespace Airbender

open Replayer WitnessTracer

/-! ## Parts of buffers -/

/-- A part of the buffer of a circuit: the places from `start` up to `stop`. -/
structure Slice where
  circuit : Nat
  start : Nat
  stop : Nat
deriving DecidableEq, Repr

namespace Slice

def places (slice : Slice) : List (Nat × Nat) :=
  (List.range' slice.start (slice.stop - slice.start)).map fun offset => (slice.circuit, offset)

theorem places_of_lt {slice : Slice} (nonempty : slice.start < slice.stop) :
    slice.places = (slice.circuit, slice.start) ::
      places { slice with start := slice.start + 1 } := by
  have length : slice.stop - slice.start = slice.stop - (slice.start + 1) + 1 := by
    omega
  rw [places, length, List.range'_succ, List.map_cons]
  rfl

end Slice

/-- `buffers` of a holder, and what has been written through it, in order. -/
structure Destination (Element : Type) where
  buffers : List Slice
  writes : List ((Nat × Nat) × Element)

namespace Destination

variable {Element : Type}

/-- The next place takes the data; a row without a place left is dropped.  To write through an empty
slice is undefined. -/
def write (destination : Destination Element) (data : Element) : Option (Destination Element) :=
  match destination.buffers with
  | [] => some destination
  | first :: rest =>
      if first.start < first.stop then
        let next := { first with start := first.start + 1 }
        some
          { buffers := if next.start = next.stop then rest else next :: rest
            writes := destination.writes ++ [((first.circuit, first.start), data)] }
      else
        none

def writeAll (destination : Destination Element) (data : List Element) :
    Option (Destination Element) :=
  data.foldlM write destination

/-- The places left. -/
def places (destination : Destination Element) : List (Nat × Nat) :=
  destination.buffers.flatMap Slice.places

/-- No slice is empty. -/
def Open (destination : Destination Element) : Prop :=
  ∀ slice ∈ destination.buffers, slice.start < slice.stop

/-- A write takes the first place. -/
theorem Open.write {destination : Destination Element} (isOpen : destination.Open)
    {place : Nat × Nat} {rest : List (Nat × Nat)} (places : destination.places = place :: rest)
    (data : Element) :
    ∃ next : Destination Element, destination.write data = some next ∧ next.Open ∧
      next.places = rest ∧ next.writes = destination.writes ++ [(place, data)] := by
  rcases destination with ⟨buffers, writes⟩
  cases buffers with
  | nil => cases places
  | cons first others =>
      have nonempty : first.start < first.stop := isOpen first List.mem_cons_self
      have othersOpen : ∀ slice ∈ others, slice.start < slice.stop :=
        fun slice member => isOpen slice (List.mem_cons_of_mem first member)
      rw [Destination.places, List.flatMap_cons, Slice.places_of_lt nonempty,
        List.cons_append, List.cons.injEq] at places
      rcases places with ⟨rfl, rfl⟩
      let next : Slice := { first with start := first.start + 1 }
      by_cases filled : next.start = next.stop
      · refine ⟨⟨others, writes ++ [((first.circuit, first.start), data)]⟩, ?_, othersOpen, ?_, rfl⟩
        · rw [Destination.write]
          simp only [if_pos nonempty]
          rw [if_pos filled]
        · have none : Slice.places next = [] := by
            rw [Slice.places, filled, Nat.sub_self]
            rfl
          exact (congrArg (· ++ others.flatMap Slice.places) none).symm
      · refine ⟨⟨next :: others, writes ++ [((first.circuit, first.start), data)]⟩, ?_, ?_, rfl, rfl⟩
        · rw [Destination.write]
          simp only [if_pos nonempty]
          rw [if_neg filled]
        · intro slice member
          rcases List.mem_cons.mp member with rfl | inOthers
          · exact Nat.lt_of_le_of_ne nonempty filled
          · exact othersOpen slice inOthers

/-- As many rows as places fill them in order. -/
theorem Open.writeAll {destination : Destination Element} (isOpen : destination.Open)
    {data : List Element} (length : data.length = destination.places.length) :
    ∃ next : Destination Element, destination.writeAll data = some next ∧
      next.writes = destination.writes ++ destination.places.zip data := by
  induction data generalizing destination with
  | nil =>
      refine ⟨destination, rfl, ?_⟩
      rw [List.zip_nil_right, List.append_nil]
  | cons row data inductionHypothesis =>
      rcases places : destination.places with _ | ⟨place, rest⟩
      · rw [places] at length
        cases length
      · rcases isOpen.write places row with ⟨middle, written, stillOpen, left, writes⟩
        rw [places, List.length_cons, List.length_cons, ← left] at length
        rcases inductionHypothesis stillOpen (Nat.succ.inj length) with ⟨next, later, all⟩
        refine ⟨next, ?_, ?_⟩
        · rw [Destination.writeAll, List.foldlM_cons, written]
          exact later
        · rw [all, writes, left, List.append_assoc]
          rfl

end Destination

/-! ## Holders -/

/-- What a kind of holder needs and keeps. -/
structure DestinationHolderConstructor (Element : Type) where
  needsFamily : CircuitFamily → Bool
  needsDelegation : BitVec 16 → Bool
  fromNonMemory : CircuitFamily → NonMemoryOpcodeTracingDataWithTimestamp → Option Element
  fromMemory : CircuitFamily → MemoryOpcodeTracingDataWithTimestamp → Option Element
  fromDelegation : BitVec 16 → DelegationWitness → Option Element

variable {Element : Type}

/-- A holder; `none` once a write was undefined. -/
structure UninitDestinationHolder (D : DestinationHolderConstructor Element) where
  destination : Option (Destination Element)

namespace DestinationHolderConstructor

variable {D : DestinationHolderConstructor Element}

def makeUninitTracer (D : DestinationHolderConstructor Element) (buffers : List Slice) :
    UninitDestinationHolder D where
  destination := some ⟨buffers, []⟩

def keep (holder : UninitDestinationHolder D) (data : Option Element) :
    UninitDestinationHolder D :=
  data.elim holder fun data => ⟨holder.destination.bind fun destination => destination.write data⟩

instance : WitnessTracer (UninitDestinationHolder D) where
  needsTracingDataForCircuitFamily family _ := D.needsFamily family
  needsTracingDataForDelegationType delegationType _ := D.needsDelegation delegationType
  writeNonMemoryFamilyData family data holder := keep holder (D.fromNonMemory family data)
  writeMemoryFamilyData family data holder := keep holder (D.fromMemory family data)
  writeDelegation delegationType witness holder :=
    keep holder (D.fromDelegation delegationType witness)

instance : SteadyTracer (UninitDestinationHolder D) where
  needsFamily := fun _ _ _ => rfl
  needsDelegation := fun _ _ _ => rfl

/-- What a holder keeps of a row of the full trace. -/
def select (D : DestinationHolderConstructor Element) : TraceRow → Option Element
  | .nonMemory family data => if D.needsFamily family then D.fromNonMemory family data else none
  | .memory family data => if D.needsFamily family then D.fromMemory family data else none
  | .delegation delegationType witness =>
      if D.needsDelegation delegationType then D.fromDelegation delegationType witness else none

theorem offer_eq (holder : UninitDestinationHolder D) (row : TraceRow) :
    offer holder row = keep holder (D.select row) := by
  cases row with
  | nonMemory family data =>
      have step : offer holder (.nonMemory family data) =
          if D.needsFamily family then keep holder (D.fromNonMemory family data) else holder := rfl
      rw [step, select]
      split <;> rfl
  | memory family data =>
      have step : offer holder (.memory family data) =
          if D.needsFamily family then keep holder (D.fromMemory family data) else holder := rfl
      rw [step, select]
      split <;> rfl
  | delegation delegationType witness =>
      have step : offer holder (.delegation delegationType witness) =
          if D.needsDelegation delegationType then
            keep holder (D.fromDelegation delegationType witness)
          else
            holder := rfl
      rw [step, select]
      split <;> rfl

/-- A holder writes what it keeps of the rows, in order. -/
theorem offerAll_eq (holder : UninitDestinationHolder D) (rows : List TraceRow) :
    (offerAll holder rows).destination =
      holder.destination.bind fun destination =>
        destination.writeAll (rows.filterMap D.select) := by
  induction rows generalizing holder with
  | nil => rcases holder with ⟨_ | destination⟩ <;> rfl
  | cons row rows inductionHypothesis =>
      have later := inductionHypothesis (offer holder row)
      rw [offer_eq] at later
      rw [offerAll, List.foldl_cons, offer_eq, List.filterMap_cons]
      refine later.trans ?_
      cases D.select row with
      | none => rfl
      | some data =>
          rw [keep, Option.elim_some, Option.bind_assoc]
          rfl

end DestinationHolderConstructor

def nonMemDestinationHolderConstructor (family : CircuitFamily) :
    DestinationHolderConstructor NonMemoryOpcodeTracingDataWithTimestamp where
  needsFamily := fun other => other = family
  needsDelegation := fun _ => false
  fromNonMemory := fun other data => if family = other then some data else none
  fromMemory := fun _ _ => none
  fromDelegation := fun _ _ => none

def memDestinationHolderConstructor (family : CircuitFamily) :
    DestinationHolderConstructor MemoryOpcodeTracingDataWithTimestamp where
  needsFamily := fun other => other = family
  needsDelegation := fun _ => false
  fromNonMemory := fun _ _ => none
  fromMemory := fun other data => if family = other then some data else none
  fromDelegation := fun _ _ => none

def delegationDestinationHolderConstructor (delegationType : BitVec 16) :
    DestinationHolderConstructor DelegationWitness where
  needsFamily := fun _ => false
  needsDelegation := fun other => other = delegationType
  fromNonMemory := fun _ _ => none
  fromMemory := fun _ _ => none
  fromDelegation := fun other witness => if delegationType = other then some witness else none

inductive UnifiedOpcodeTracingDataWithTimestamp where
  | nonMem (data : NonMemoryOpcodeTracingDataWithTimestamp)
  | mem (data : MemoryOpcodeTracingDataWithTimestamp)
deriving DecidableEq, Repr

def unifiedCircuitDestinationHolderConstructor :
    DestinationHolderConstructor UnifiedOpcodeTracingDataWithTimestamp where
  needsFamily := fun _ => true
  needsDelegation := fun _ => false
  fromNonMemory := fun _ data => some (.nonMem data)
  fromMemory := fun _ data => some (.mem data)
  fromDelegation := fun _ _ => none

/-! ## Counters of holders -/

section Counts

/-- A counter of the executor that counts what a holder keeps. -/
def CountsRows {C : Type} [Counters C] (calls : C → Nat)
    (D : DestinationHolderConstructor Element) : Prop :=
  ∀ {before after : C} {rows : List TraceRow}, FitCounted before after rows →
    calls after = calls before + (rows.filterMap D.select).length

theorem length_filterMap_select {D : DestinationHolderConstructor Element} {p : TraceRow → Bool}
    {rows : List TraceRow} (same : ∀ row ∈ rows, ((D.select row).isSome = true ↔ p row = true)) :
    (rows.filterMap D.select).length = rows.countP p := by
  rw [List.length_filterMap_eq_countP]
  exact List.countP_congr same

variable {family : CircuitFamily}

theorem countsRows_nonMem (notMemory : ¬ family.IsMemory) :
    CountsRows (DelegationsAndFamiliesCounters.getCallsToCircuitFamily family)
      (nonMemDestinationHolderConstructor family) := by
  intro before after rows counted
  rw [counted.counted.familyRows family, familyRows]
  congr 1
  refine (length_filterMap_select fun row member => ?_).symm
  rw [decide_eq_true_iff]
  have fits := counted.fits row member
  cases row with
  | nonMemory other data =>
      by_cases same : other = family
      · subst same
        simp [DestinationHolderConstructor.select, nonMemDestinationHolderConstructor,
          TraceRow.family]
      · simp [DestinationHolderConstructor.select, nonMemDestinationHolderConstructor,
          TraceRow.family, same]
  | memory other data =>
      have differs : other ≠ family := fun same => notMemory (same ▸ fits)
      simp [DestinationHolderConstructor.select, nonMemDestinationHolderConstructor,
        TraceRow.family, differs]
  | delegation other witness =>
      simp [DestinationHolderConstructor.select, nonMemDestinationHolderConstructor,
        TraceRow.family]

theorem countsRows_mem (isMemory : family.IsMemory) :
    CountsRows (DelegationsAndFamiliesCounters.getCallsToCircuitFamily family)
      (memDestinationHolderConstructor family) := by
  intro before after rows counted
  rw [counted.counted.familyRows family, familyRows]
  congr 1
  refine (length_filterMap_select fun row member => ?_).symm
  rw [decide_eq_true_iff]
  have fits := counted.fits row member
  cases row with
  | nonMemory other data =>
      have differs : other ≠ family := fun same => fits (same ▸ isMemory)
      simp [DestinationHolderConstructor.select, memDestinationHolderConstructor,
        TraceRow.family, differs]
  | memory other data =>
      by_cases same : other = family
      · subst same
        simp [DestinationHolderConstructor.select, memDestinationHolderConstructor,
          TraceRow.family]
      · simp [DestinationHolderConstructor.select, memDestinationHolderConstructor,
          TraceRow.family, same]
  | delegation other witness =>
      simp [DestinationHolderConstructor.select, memDestinationHolderConstructor,
        TraceRow.family]

theorem length_delegations (delegation : DelegationType) (rows : List TraceRow) :
    (rows.filterMap (delegationDestinationHolderConstructor delegation.csr).select).length =
      delegationRows delegation rows := by
  refine length_filterMap_select fun row _ => ?_
  rw [decide_eq_true_iff]
  cases row with
  | nonMemory other data =>
      simp [DestinationHolderConstructor.select, delegationDestinationHolderConstructor,
        TraceRow.delegationType]
  | memory other data =>
      simp [DestinationHolderConstructor.select, delegationDestinationHolderConstructor,
        TraceRow.delegationType]
  | delegation other witness =>
      by_cases same : other = delegation.csr
      · subst same
        simp [DestinationHolderConstructor.select, delegationDestinationHolderConstructor,
          TraceRow.delegationType]
      · simp [DestinationHolderConstructor.select, delegationDestinationHolderConstructor,
          TraceRow.delegationType, same]

theorem countsRows_delegation (delegation : DelegationType) :
    CountsRows (DelegationsAndFamiliesCounters.callsTo delegation)
      (delegationDestinationHolderConstructor delegation.csr) := by
  intro before after rows counted
  rw [counted.counted.delegationRows delegation, length_delegations]

/-- A step writes as many rows of cycles as the unified circuit counts. -/
theorem Replayer.Counted.cycles {before after : DelegationsAndUnifiedCounters}
    {rows : List TraceRow} (counted : Counted before after rows) :
    after.cycles = before.cycles + rows.countP fun row => row.family.isSome := by
  cases counted with
  | single row family isRow isFamily counted =>
      rw [counted, isRow, List.countP_singleton, isFamily]
      rfl
  | batch delegation calls cycles delegations isRows numCycles _ areCycles areDelegations counted =>
      have inCycles : ∀ row ∈ cycles, row.family.isSome = true := by
        intro row member
        rw [(areCycles row member).1]
        rfl
      have inDelegations : ∀ row ∈ delegations, row.family.isSome = false := by
        intro row member
        rw [(areDelegations row member).family]
        rfl
      rw [counted, isRows, List.countP_append, countP_of_forall inCycles,
        countP_of_forall inDelegations, numCycles]
      cases delegation <;> rfl

theorem countsRows_unified :
    CountsRows DelegationsAndUnifiedCounters.cycles unifiedCircuitDestinationHolderConstructor := by
  intro before after rows counted
  have length : (rows.filterMap unifiedCircuitDestinationHolderConstructor.select).length =
      rows.countP fun row => row.family.isSome := by
    refine length_filterMap_select fun row _ => ?_
    cases row <;> exact Iff.rfl
  rw [length]
  have run := counted.counted
  clear counted length
  induction run with
  | refl => rfl
  | tail _ step inductionHypothesis =>
      rw [Counted.cycles step, inductionHypothesis, List.countP_append, Nat.add_assoc]

end Counts

end Airbender
