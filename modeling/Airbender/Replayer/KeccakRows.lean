import Mathlib.Data.List.GetD
import Airbender.Replayer.DelegationRows

/-!
# The rows of a Keccak call

Every row of a call is for six of its 31 words.  The rows go through the words and the times between
the steps; from the memory after the cycles of the call they lead to that of the executor.
-/

namespace Airbender.Replayer

open Bigint OfflineMemory Vm

variable {C : Type} {romBits : Nat} {tape : InstructionTape}

/-! ## Pairs of words -/

section Pairs

theorem flatMap_finRange {Value : Type} (size : Nat) (values : Nat → List Value) :
    ((List.finRange size).flatMap fun i => values i.val) = (List.range size).flatMap values := by
  induction size generalizing values with
  | zero => rfl
  | succ size inductionHypothesis =>
      rw [List.finRange_succ, List.range_succ_eq_map, List.flatMap_cons, List.flatMap_cons,
        List.flatMap_map, List.flatMap_map]
      exact congrArg (values 0 ++ ·) (inductionHypothesis fun i => values (i + 1))

/-- A list of an even length, pair by pair. -/
theorem pairs_of_length {Value : Type} (default : Value) {size : Nat} {values : List Value}
    (length : values.length = 2 * size) :
    values = (List.finRange size).flatMap fun i =>
      [values.getD (2 * i.val) default, values.getD (2 * i.val + 1) default] := by
  rw [flatMap_finRange size fun i => [values.getD (2 * i) default, values.getD (2 * i + 1) default]]
  induction size generalizing values with
  | zero => exact List.eq_nil_of_length_eq_zero length
  | succ size inductionHypothesis =>
      rcases values with _ | ⟨first, _ | ⟨second, rest⟩⟩
      · rw [List.length_nil] at length
        omega
      · rw [List.length_singleton] at length
        omega
      · have restLength : rest.length = 2 * size := by
          simp only [List.length_cons] at length
          omega
        have tail := inductionHypothesis restLength
        rw [List.range_succ_eq_map, List.flatMap_cons, List.flatMap_map]
        refine congrArg (first :: second :: ·) (tail.trans ?_)
        apply List.flatMap_congr
        intro i _
        have next : 2 * (i + 1) = 2 * i + 2 := by omega
        rw [Nat.succ_eq_add_one, next]
        rfl

theorem zipWith_pairs {Index Left Right Result : Type} (combine : Left → Right → Result)
    (firstLeft secondLeft : Index → Left) (firstRight secondRight : Index → Right)
    (indices : List Index) :
    List.zipWith combine (indices.flatMap fun i => [firstLeft i, secondLeft i])
        (indices.flatMap fun i => [firstRight i, secondRight i]) =
      indices.flatMap fun i =>
        [combine (firstLeft i) (firstRight i), combine (secondLeft i) (secondRight i)] := by
  induction indices with
  | nil => rfl
  | cons i indices inductionHypothesis =>
      exact congrArg
        (combine (firstLeft i) (firstRight i) :: combine (secondLeft i) (secondRight i) :: ·)
        inductionHypothesis

end Pairs

/-! ## Words of a step -/

section Scatter

variable (positions : Fin 6 → Fin 31) (outputs : Fin 6 → U64)

theorem scatter_get_of_ne (words : Keccak.Words) {index : Fin 31}
    (others : ∀ j, positions j ≠ index) :
    (Keccak.scatter words positions outputs).get index = words.get index := by
  rw [Keccak.scatter]
  generalize List.finRange 6 = order
  induction order generalizing words with
  | nil => rfl
  | cons j rest inductionHypothesis =>
      rw [List.foldl_cons, inductionHypothesis]
      exact Vector.getElem_set_ne _ _ fun same => others j (Fin.ext same)

theorem scatter_get_self (injective : Function.Injective positions) (words : Keccak.Words)
    (j : Fin 6) : (Keccak.scatter words positions outputs).get (positions j) = outputs j := by
  have fold : ∀ (order : List (Fin 6)) (words : Keccak.Words),
      (order.foldl (fun words j => words.set (positions j) (outputs j)) words).get
        (positions j) = if j ∈ order then outputs j else words.get (positions j) := by
    intro order
    induction order with
    | nil =>
        intro words
        rfl
    | cons head rest inductionHypothesis =>
        intro words
        rw [List.foldl_cons, inductionHypothesis]
        by_cases later : j ∈ rest
        · rw [if_pos later, if_pos (List.mem_cons_of_mem head later)]
        · rw [if_neg later]
          by_cases here : j = head
          · rw [here, if_pos List.mem_cons_self]
            exact Vector.getElem_set_self _
          · rw [if_neg fun member => (List.mem_cons.mp member).elim here later]
            exact Vector.getElem_set_ne _ _ fun same => here (injective (Fin.ext same.symm))
  rw [Keccak.scatter, fold, if_pos (List.mem_finRange j)]

end Scatter

/-! ## Steps -/

/-- The words of a call: its two registers and the two halves of every lane. -/
inductive KeccakSlot where
  | control
  | pointer
  | low (lane : Fin 31)
  | high (lane : Fin 31)
deriving DecidableEq

namespace KeccakSlot

def laneAddress (x11 : U32) (lane : Fin 31) : U32 :=
  x11 + 8 * (BitVec.ofNat 16 lane.val).setWidth 32

def cell (x11 : U32) : KeccakSlot → MemoryCell
  | control => .register 10
  | pointer => .register 11
  | low lane => wordCell (laneAddress x11 lane)
  | high lane => wordCell (laneAddress x11 lane + 4)

/-- What a slot holds between two steps. -/
def content (x11 : U32) (loop : KeccakLoop) : KeccakSlot → CellContent
  | control => (.fromScalar loop.x10Timestamp, loop.controlFlowReg)
  | pointer => (.fromScalar loop.x11Timestamp, x11)
  | low lane => (.fromScalar (loop.lowTimestamps.get lane), lowWord (loop.localState.get lane))
  | high lane => (.fromScalar (loop.highTimestamps.get lane), highWord (loop.localState.get lane))

def all : List KeccakSlot :=
  [control, pointer] ++ (List.finRange 31).flatMap fun lane => [low lane, high lane]

/-- The slots of a step. -/
def visited (count : Nat) : List KeccakSlot :=
  [control, pointer] ++ (List.finRange 6).flatMap fun j =>
    [low (Keccak.positionsAt count j), high (Keccak.positionsAt count j)]

theorem mem_all (slot : KeccakSlot) : slot ∈ all := by
  cases slot with
  | control => exact List.mem_cons_self
  | pointer => exact List.mem_cons_of_mem _ List.mem_cons_self
  | low lane =>
      exact List.mem_append_right _
        (List.mem_flatMap.mpr ⟨lane, List.mem_finRange lane, List.mem_cons_self⟩)
  | high lane =>
      exact List.mem_append_right _
        (List.mem_flatMap.mpr
          ⟨lane, List.mem_finRange lane, List.mem_cons_of_mem _ List.mem_cons_self⟩)

theorem positionsAt_injective {count : Nat} (inRun : count < 649) :
    Function.Injective (Keccak.positionsAt count) :=
  Keccak.physicalPositions_injective (Keccak.stageAt count) (Keccak.roundAt_add_afterPi_lt inRun)

theorem nodup_visited {count : Nat} (inRun : count < 649) : (visited count).Nodup := by
  have injective := positionsAt_injective inRun
  have pairs : ((List.finRange 6).flatMap fun j =>
      [low (Keccak.positionsAt count j), high (Keccak.positionsAt count j)]).Nodup := by
    rw [List.nodup_flatMap]
    refine ⟨fun j _ => by simp, (List.nodup_finRange 6).imp ?_⟩
    intro j other distinct slot inFirst inSecond
    simp only [List.mem_cons, List.not_mem_nil, or_false] at inFirst inSecond
    rcases inFirst with rfl | rfl <;> rcases inSecond with same | same <;>
      simp only [reduceCtorEq, low.injEq, high.injEq] at same <;> exact distinct (injective same)
  rw [visited, List.nodup_append']
  refine ⟨by decide, pairs, ?_⟩
  intro slot inFirst inSecond
  rcases List.mem_flatMap.mp inSecond with ⟨j, _, isLane⟩
  simp only [List.mem_cons, List.not_mem_nil, or_false] at inFirst isLane
  rcases inFirst with rfl | rfl <;> rcases isLane with same | same <;> cases same

variable {x11 : U32} {loop : KeccakLoop} {count : Nat}

/-- The row of a step accesses its slots. -/
theorem scheduledRow_accesses (inRun : count < 649) :
    (scheduledRow x11 count loop).accesses keccakCsr =
      (visited count).map fun slot =>
        ⟨slot.cell x11, slot.content x11 loop, slot.content x11 (scheduledLoop count loop)⟩ := by
  let row := scheduledRow x11 count loop
  have injective := positionsAt_injective inRun
  have unfolded : row.accesses keccakCsr =
      row.registerAccesses [10, 11] ++ row.writeAccesses (row.laneAddresses x11) := if_pos rfl
  have addresses : row.laneAddresses x11 = (List.finRange 6).flatMap fun j =>
      [laneAddress x11 (Keccak.positionsAt count j),
        laneAddress x11 (Keccak.positionsAt count j) + 4] := by
    rw [DelegationWitness.laneAddresses]
    exact List.flatMap_map ..
  rw [unfolded, addresses, DelegationWitness.writeAccesses]
  simp only [row, scheduledRow, zipWith_pairs]
  rw [visited, List.map_append, List.map_flatMap]
  refine congrArg (_ ++ ·) (List.flatMap_congr fun j _ => ?_)
  have state := scatter_get_self (Keccak.positionsAt count)
    ((Keccak.stageAt count).outputs (Keccak.roundConstant (Keccak.roundAt count))
      fun j => loop.localState.get (Keccak.positionsAt count j)) injective loop.localState j
  have times (timestamps : Vector TimestampScalar 31) :=
    scatter_get_self (Keccak.positionsAt count) (fun _ => loop.currentTimestamp ||| 3) injective
      timestamps j
  have after : (Keccak.scheduledStep count loop.localState).get (Keccak.positionsAt count j) = _ :=
    state
  simp only [List.map_cons, List.map_nil, content, scheduledLoop, after, times]
  rfl

/-- A step leaves the other slots alone. -/
theorem content_of_not_mem {slot : KeccakSlot} (untouched : slot ∉ visited count) :
    slot.content x11 (scheduledLoop count loop) = slot.content x11 loop := by
  have others (lane : Fin 31) (notVisited : low lane ∉ visited count ∨ high lane ∉ visited count) :
      ∀ j, Keccak.positionsAt count j ≠ lane := by
    rintro j rfl
    rcases notVisited with notVisited | notVisited
    · exact notVisited (List.mem_append_right _
        (List.mem_flatMap.mpr ⟨j, List.mem_finRange j, List.mem_cons_self⟩))
    · exact notVisited (List.mem_append_right _
        (List.mem_flatMap.mpr
          ⟨j, List.mem_finRange j, List.mem_cons_of_mem _ List.mem_cons_self⟩))
  cases slot with
  | control => exact absurd List.mem_cons_self untouched
  | pointer => exact absurd (List.mem_cons_of_mem _ List.mem_cons_self) untouched
  | low lane =>
      have apart := others lane (.inl untouched)
      simp only [content, scheduledLoop, Keccak.scheduledStep,
        scatter_get_of_ne _ _ _ apart]
  | high lane =>
      have apart := others lane (.inr untouched)
      simp only [content, scheduledLoop, Keccak.scheduledStep,
        scatter_get_of_ne _ _ _ apart]

end KeccakSlot

/-- The rows of the steps lead from the loop before them to the loop after them. -/
theorem scheduledSteps_rows {base : MemoryCell → CellContent} {x11 : U32} {apart : Prop}
    (nodup : (KeccakSlot.all.map (KeccakSlot.cell x11)).Nodup) (remaining count : Nat)
    (inRun : count + remaining ≤ 649) {loop : KeccakLoop} (before : List TraceRow)
    {memory : MemoryCell → CellContent}
    (holds : HoldsAt base (KeccakSlot.all.map (KeccakSlot.cell x11))
      (KeccakSlot.all.map (KeccakSlot.content x11 loop)) memory) :
    let steps := scheduledSteps x11 remaining count loop before
    ∃ rows memory', steps.2 = before ++ rows ∧
      DelegationRows apart tape keccakCsr loop.currentTimestamp remaining rows ∧
      Performs memory (rows.flatMap (TraceRow.accesses tape)) memory' ∧
      HoldsAt base (KeccakSlot.all.map (KeccakSlot.cell x11))
        (KeccakSlot.all.map (KeccakSlot.content x11 steps.1)) memory' := by
  induction remaining generalizing count loop before memory with
  | zero => exact ⟨[], memory, (List.append_nil before).symm, .nil _ _ _ _, .refl memory, holds⟩
  | succ remaining inductionHypothesis =>
      have here : count < 649 := by
        omega
      have later : count + 1 + remaining ≤ 649 := by
        omega
      rcases holds.performs_some nodup (KeccakSlot.nodup_visited here)
        (fun slot _ => slot.mem_all) (fun slot _ => KeccakSlot.content_of_not_mem) with
        ⟨middle, performs, held⟩
      rw [← KeccakSlot.scheduledRow_accesses here] at performs
      let row := TraceRow.delegation keccakCsr (scheduledRow x11 count loop)
      rcases inductionHypothesis (count + 1) later (before ++ [row]) held with
        ⟨rows, memory', written, delegations, rest, holdsEnd⟩
      refine ⟨row :: rows, memory', ?_, ?_, ?_, holdsEnd⟩
      · rw [← List.append_cons] at written
        exact written
      · apply DelegationRows.cons rfl _ delegations
        intro _
        rw [KeccakSlot.scheduledRow_accesses here, List.map_map]
        exact (KeccakSlot.nodup_visited here).map_on fun slot _ other _ same =>
          List.inj_on_of_nodup_map nodup slot.mem_all other.mem_all same
      · rw [List.flatMap_cons]
        exact performs.append rest

/-! ## The loop after some steps -/

section LoopAfter

/-- The loop after some steps from `start`. -/
def stepsAfter (start : KeccakLoop) : Nat → KeccakLoop
  | 0 => start
  | count + 1 => scheduledLoop count (stepsAfter start count)

variable {start : KeccakLoop}

theorem scheduledSteps_stepsAfter {T : Type} [WitnessTracer T] (x11 : U32) (start : KeccakLoop)
    (remaining count : Nat) (tracer : T) :
    (scheduledSteps x11 remaining count (stepsAfter start count) tracer).1 =
      stepsAfter start (count + remaining) := by
  induction remaining generalizing count tracer with
  | zero => rfl
  | succ remaining inductionHypothesis =>
      have next : count + (remaining + 1) = count + 1 + remaining := by
        omega
      rw [next, ← inductionHypothesis (count + 1)]
      rfl

theorem scheduledSteps_fst {T : Type} [WitnessTracer T] (x11 : U32) (start : KeccakLoop)
    (steps : Nat) (tracer : T) :
    (scheduledSteps x11 steps 0 start tracer).1 = stepsAfter start steps := by
  rw [← Nat.zero_add steps, ← scheduledSteps_stepsAfter x11 start steps 0 tracer, Nat.zero_add]
  rfl

theorem stepsAfter_currentTimestamp (count : Nat) :
    (stepsAfter start count).currentTimestamp =
      start.currentTimestamp + BitVec.ofNat 64 count * timestampStep := by
  induction count with
  | zero => exact (BitVec.add_zero _).symm
  | succ count inductionHypothesis =>
      have moved : (stepsAfter start (count + 1)).currentTimestamp =
          (stepsAfter start count).currentTimestamp + timestampStep := rfl
      rw [moved, inductionHypothesis, BitVec.ofNat_add, BitVec.add_mul, BitVec.add_assoc]
      rfl

theorem stepsAfter_localState (count : Nat) :
    (stepsAfter start count).localState = Keccak.wordsAt start.localState count := by
  induction count with
  | zero => rfl
  | succ count inductionHypothesis =>
      rw [Keccak.wordsAt, ← inductionHypothesis]
      rfl

theorem stepsAfter_registers (count : Nat) :
    let stamp := start.currentTimestamp + BitVec.ofNat 64 count * timestampStep ||| 3
    (stepsAfter start (count + 1)).controlFlowReg = Keccak.scheduledControl (count + 1) ∧
      (stepsAfter start (count + 1)).x10Timestamp = stamp ∧
      (stepsAfter start (count + 1)).x11Timestamp = stamp := by
  rw [← stepsAfter_currentTimestamp]
  exact ⟨rfl, rfl, rfl⟩

/-- A word that was accessed has the time of its last step, which the executor computes from the
time of the whole batch. -/
theorem stepsAfter_timestamps (aligned : start.currentTimestamp.toNat % 4 = 0) {count : Nat}
    {lane : Fin 31} (accessed : ∃ step < count, ∃ j, Keccak.positionsAt step j = lane) :
    (stepsAfter start count).lowTimestamps.get lane =
        (start.currentTimestamp ||| 3) + (Keccak.offsetsAt count).get lane ∧
      (stepsAfter start count).highTimestamps.get lane =
        (start.currentTimestamp ||| 3) + (Keccak.offsetsAt count).get lane := by
  induction count with
  | zero =>
      rcases accessed with ⟨step, early, _⟩
      exact absurd early (Nat.not_lt_zero step)
  | succ count inductionHypothesis =>
      have low : (stepsAfter start (count + 1)).lowTimestamps =
          Keccak.scatter (stepsAfter start count).lowTimestamps (Keccak.positionsAt count)
            fun _ => (stepsAfter start count).currentTimestamp ||| 3 := rfl
      have high : (stepsAfter start (count + 1)).highTimestamps =
          Keccak.scatter (stepsAfter start count).highTimestamps (Keccak.positionsAt count)
            fun _ => (stepsAfter start count).currentTimestamp ||| 3 := rfl
      rw [low, high, Keccak.offsetsAt, Keccak.scatter_const_getElem,
        Keccak.scatter_const_getElem, Keccak.scatter_const_getElem, stepsAfter_currentTimestamp]
      by_cases now : ∃ j, Keccak.positionsAt count j = lane
      · rw [if_pos now, if_pos now, if_pos now]
        have step : timestampStep.toNat = 4 := rfl
        have stillAligned :
            (start.currentTimestamp + BitVec.ofNat 64 count * timestampStep).toNat % 4 = 0 := by
          rw [BitVec.toNat_add, BitVec.toNat_mul, step]
          omega
        rw [or_offset_eq_add stillAligned (by decide), or_offset_eq_add aligned (by decide),
          BitVec.add_assoc, BitVec.add_comm _ 3, BitVec.add_assoc]
        exact ⟨rfl, rfl⟩
      · rw [if_neg now, if_neg now, if_neg now]
        apply inductionHypothesis
        rcases accessed with ⟨step, early, writes⟩
        refine ⟨step, Nat.lt_of_le_of_ne (Nat.le_of_lt_succ early) ?_, writes⟩
        rintro rfl
        exact now writes

end LoopAfter

/-! ## The call -/

section Calls

variable [Counters C] {apart : Prop} {state state' : State C} {ram ram' : RamWithRomRegion romBits}
  {events : List SnapshotEvent} {lastTimestamp registerTimestamp : TimestampScalar}
  {writes : List RamAccess}

theorem map_all {Value : Type} (value : KeccakSlot → Value) :
    KeccakSlot.all.map value =
      [value .control, value .pointer] ++ (List.finRange 31).flatMap fun lane =>
        [value (.low lane), value (.high lane)] := by
  rw [KeccakSlot.all, List.map_append, List.map_flatMap]
  rfl

/-- The slots are the words of the window of a call. -/
theorem keccakCells_eq (x11 : U32) :
    KeccakSlot.all.map (KeccakSlot.cell x11) =
      ([10, 11] : List RegisterIndex).map .register ++
        (wordAddresses x11 62).map wordCell := by
  have pairs := pairs_of_length (0 : U32) (length_wordAddresses x11 (2 * 31))
  have address {i : Nat} (inside : i < 62) :
      (wordAddresses x11 62).getD i 0 = x11 + BitVec.ofNat 32 (4 * i) := by
    rw [wordAddresses, ← List.getElem_eq_getD 0]
    · rw [List.getElem_map, List.getElem_range]
    · rw [List.length_map, List.length_range]
      exact inside
  rw [map_all]
  change _ = _ ++ (wordAddresses x11 (2 * 31)).map wordCell
  rw [pairs, List.map_flatMap]
  refine congrArg (_ ++ ·) (List.flatMap_congr fun lane _ => ?_)
  have inside := lane.isLt
  have low : KeccakSlot.laneAddress x11 lane = x11 + BitVec.ofNat 32 (4 * (2 * lane.val)) := by
    rw [KeccakSlot.laneAddress]
    congr 1
    apply BitVec.eq_of_toNat_eq
    have eight : (8 : U32).toNat = 8 := rfl
    rw [BitVec.toNat_mul, BitVec.toNat_setWidth, BitVec.toNat_ofNat, BitVec.toNat_ofNat, eight]
    omega
  have high : KeccakSlot.laneAddress x11 lane + 4 =
      x11 + BitVec.ofNat 32 (4 * (2 * lane.val + 1)) := by
    rw [low, BitVec.add_assoc, Nat.mul_succ, BitVec.ofNat_add]
    rfl
  change _ = [wordCell ((wordAddresses x11 62).getD _ 0), wordCell ((wordAddresses x11 62).getD _ 0)]
  rw [address (by omega), address (by omega), ← low, ← high]
  rfl

variable (call :
  KeccakCall state ram state' ram' events lastTimestamp registerTimestamp writes)

include call

theorem keccak_length : writes.length = 62 := by
  have length := congrArg List.length call.writes_address
  simpa using length

theorem keccak_aboveRom (romFits : romBits ≤ romSecondWordBits) :
    ∀ access ∈ writes, romWords romBits ≤ wordIdx access.address := by
  intro access member
  have listed := List.mem_map_of_mem (f := RamAccess.address) member
  rw [call.writes_address] at listed
  exact romWords_le_wordIdx romFits call.x11_above_rom (show 256 ∣ 2 ^ 32 by decide) (by decide)
    (by decide) call.x11_aligned listed

theorem keccakCells_call :
    KeccakSlot.all.map (KeccakSlot.cell (state.registers 11).value) =
      ([10, 11] : List RegisterIndex).map .register ++
        (writes.map RamAccess.address).map wordCell := by
  rw [keccakCells_eq, call.writes_address]

theorem nodup_keccakCells :
    (KeccakSlot.all.map (KeccakSlot.cell (state.registers 11).value)).Nodup := by
  rw [keccakCells_call call]
  exact nodup_cells (by decide) call.nodup

/-- The first step finds what the executor found. -/
theorem keccakStart_contents (romFits : romBits ≤ romSecondWordBits) {cycled : State C}
    (registers : ∀ index ∈ ([10, 11] : List RegisterIndex),
      cycled.registers index = state.registers index) :
    let x11 := (state.registers 11).value
    (KeccakSlot.all.map (KeccakSlot.cell x11)).map (memoryOf cycled ram) =
      KeccakSlot.all.map (KeccakSlot.content x11
        (keccakStart state.timestamp initialKeccakF1600ControlValue cycled (wordsOf writes))) := by
  intro x11
  have found := @memoryOf_wordCells C romBits cycled ram writes writes _ call.performs call.nodup
    (keccak_aboveRom call romFits) fun _ member => member
  have length : (wordsOf writes).length = 2 * 31 := by
    rw [wordsOf, List.length_map, keccak_length call]
  have pairs := pairs_of_length (0, 0) length
  have control : memoryOf cycled ram (.register 10) =
      (.fromScalar (cycled.registers 10).timestamp, initialKeccakF1600ControlValue) := by
    rw [← call.x10_initial, ← registers 10 (by decide)]
    rfl
  have pointer : memoryOf cycled ram (.register 11) =
      (.fromScalar (cycled.registers 11).timestamp, x11) := by
    simp only [x11, ← registers 11 (by decide)]
    rfl
  let start :=
    keccakStart state.timestamp initialKeccakF1600ControlValue cycled (wordsOf writes)
  have time (index : Nat) : ((wordsOf writes).map Prod.fst).getD index 0 =
      ((wordsOf writes).getD index (0, 0)).1 := List.getD_map _ (0, 0) Prod.fst
  have value (index : Nat) : ((wordsOf writes).map Prod.snd).getD index 0 =
      ((wordsOf writes).getD index (0, 0)).2 := List.getD_map _ (0, 0) Prod.snd
  have limb (lane : Fin 31) : start.localState.get lane =
      u64OfWords (((wordsOf writes).map Prod.snd).getD (2 * lane) 0)
        (((wordsOf writes).map Prod.snd).getD (2 * lane + 1) 0) := Vector.getElem_ofFn _
  have low (lane : Fin 31) : start.lowTimestamps.get lane =
      ((wordsOf writes).map Prod.fst).getD (2 * lane) 0 := Vector.getElem_ofFn _
  have high (lane : Fin 31) : start.highTimestamps.get lane =
      ((wordsOf writes).map Prod.fst).getD (2 * lane + 1) 0 := Vector.getElem_ofFn _
  have contents := (congrArg wordContents pairs).trans List.map_flatMap
  rw [keccakCells_call call, List.map_append, found, contents, map_all, List.map_map]
  refine congrArg₂ (· ++ ·) ?_ (List.flatMap_congr fun lane _ => ?_)
  · simp only [List.map_cons, List.map_nil, Function.comp_apply, control, pointer]
    rfl
  · change _ = [KeccakSlot.content x11 start (.low lane), KeccakSlot.content x11 start (.high lane)]
    rw [KeccakSlot.content, KeccakSlot.content, limb, low, high, lowWord_u64OfWords,
      highWord_u64OfWords, time, time, value, value]
    rfl

/-- The registers of the executor after a call. -/
theorem keccak_registers (aligned : state.timestamp.toNat % 4 = 0) :
    state'.registers =
      Function.update (Function.update
        (afterCycles numDelegationCallsForKeccakF1600 lastTimestamp state).registers
          10 ⟨lastTimestamp ||| 3, finalKeccakF1600ControlValue⟩)
          11 ⟨lastTimestamp ||| 3, (state.registers 11).value⟩ :=
  (congrArg State.registers (finishKeccak_afterCycles call aligned state.counters)).symm

/-- The last step leaves what the executor leaves. -/
theorem keccakFinal_contents (aligned : state.timestamp.toNat % 4 = 0) {start : KeccakLoop}
    (time : start.currentTimestamp = state.timestamp)
    (words : start.localState = limbsOfWords 31 ((wordsOf writes).map Prod.snd)) :
    let x11 := (state.registers 11).value
    KeccakSlot.all.map (KeccakSlot.content x11
        (stepsAfter start numDelegationCallsForKeccakF1600)) =
      ([10, 11] : List RegisterIndex).map (fun index => (state'.registers index).content) ++
        writes.map fun access => access.after.content := by
  intro x11
  have output : (stepsAfter start numDelegationCallsForKeccakF1600).localState =
      keccakOutput state ram := by
    have found :=
      wordsOf_snd call.performs call.nodup (fun _ member => member) call.writes_address
    rw [stepsAfter_localState, words, found]
    exact Keccak.wordsAt_last _
  have offsets (lane : Fin 31) :=
    @stepsAfter_timestamps start (time ▸ aligned) numDelegationCallsForKeccakF1600 lane
      (Keccak.exists_positionsAt lane)
  have afters := congrArg (List.map Register.content) call.writes_after
  rw [List.map_map, List.map_map, keccakWriteBack, List.map_flatMap] at afters
  have control : Keccak.scheduledControl (648 + 1) = finalKeccakF1600ControlValue := rfl
  have steps : numDelegationCallsForKeccakF1600 = 648 + 1 := rfl
  have sum := ((checkedAdd_eq_some_iff _ _ _).mp call.last).2
  have lastTime : start.currentTimestamp + BitVec.ofNat 64 648 * timestampStep =
      lastTimestamp := by
    rw [time]
    exact sum.symm
  have registers := @stepsAfter_registers start 648
  rw [lastTime, control, ← steps] at registers
  rcases registers with ⟨x10, x10Time, x11Time⟩
  rw [map_all, keccak_registers call aligned]
  refine congrArg₂ (· ++ ·) ?_ (Eq.trans (List.flatMap_congr fun lane _ => ?_) afters.symm)
  · rw [KeccakSlot.content, KeccakSlot.content, x10, x10Time, x11Time]
    rfl
  · rw [KeccakSlot.content, KeccakSlot.content, (offsets lane).1, (offsets lane).2, output, time,
      ← Keccak.finalTimestampOffsets_eq]
    rfl

/-- The steps of a call lead from the memory after its cycles to that of the executor. -/
theorem scheduledSteps_performs (romFits : romBits ≤ romSecondWordBits)
    (aligned : state.timestamp.toNat % 4 = 0) (before : List TraceRow) :
    let cycled := afterCycles numDelegationCallsForKeccakF1600 lastTimestamp state
    let start :=
      keccakStart state.timestamp initialKeccakF1600ControlValue cycled (wordsOf writes)
    ∃ rows,
      (scheduledSteps (state.registers 11).value numDelegationCallsForKeccakF1600 0 start
        before).2 = before ++ rows ∧
      DelegationRows apart tape keccakCsr state.timestamp numDelegationCallsForKeccakF1600 rows ∧
      Performs (memoryOf cycled ram) (rows.flatMap (TraceRow.accesses tape))
        (memoryOf state' ram') := by
  intro cycled start
  let x11 := (state.registers 11).value
  have kept : ∀ index ∈ ([10, 11] : List RegisterIndex),
      cycled.registers index = state.registers index := by
    intro index member
    have notZero : index ≠ 0 := by
      rintro rfl
      exact absurd member (by decide)
    exact Function.update_of_ne notZero _ _
  have inRun : 0 + numDelegationCallsForKeccakF1600 ≤ 649 := Nat.le_refl 649
  have started := HoldsAt.refl (memoryOf cycled ram)
    (KeccakSlot.all.map (KeccakSlot.cell x11))
  rw [keccakStart_contents call romFits kept] at started
  rcases @scheduledSteps_rows tape _ x11 apart (nodup_keccakCells call)
    numDelegationCallsForKeccakF1600 0 inRun start before _ started with
    ⟨rows, memory', written, delegations, performs, holds⟩
  refine ⟨rows, written, delegations, ?_⟩
  have others : ∀ index, index ∉ ([10, 11] : List RegisterIndex) →
      state'.registers index = cycled.registers index := by
    intro index untouched
    simp only [List.mem_cons, List.not_mem_nil, or_false, not_or] at untouched
    rw [keccak_registers call aligned, Function.update_of_ne untouched.2,
      Function.update_of_ne untouched.1]
  have executed := @holdsAt_memoryOf C romBits cycled state' ram ram' writes writes (.refl _)
    call.performs call.nodup (keccak_aboveRom call romFits) [10, 11] others
  have time : start.currentTimestamp = state.timestamp := rfl
  have words : start.localState = limbsOfWords 31 ((wordsOf writes).map Prod.snd) := rfl
  rw [scheduledSteps_fst, keccakFinal_contents call aligned time words, keccakCells_call call]
    at holds
  rwa [← holds.unique executed]

theorem keccakCall_stepRows (romFits : romBits ≤ romSecondWordBits)
    (aligned : state.timestamp.toNat % 4 = 0) (zero : state.ZeroX0) (counters : C)
    (rest : List LogEntry) (before : List TraceRow) :
    ∃ rows, keccakSpecial5Call (state.withCounters counters)
        (ReplayerRam.ofEntries (events.map SnapshotEvent.logEntry ++ rest) :
          ReplayerRam romBits) before =
        some (state'.withCounters counters, .ofEntries rest, before ++ rows) ∧
      StepRows apart tape state ram state' ram' rows := by
  have entries : events.map SnapshotEvent.logEntry = entriesOf writes := by
    rw [call.events_eq]
    rfl
  have inRange : initialKeccakF1600ControlValue < (1 : U32) <<< 11 := by
    decide
  rcases @cyclesOrSkip_rows C romBits tape state ram keccakCsr (by decide) _ _ zero (by decide)
    (by decide) call.last counters before with ⟨cycles, cycled, cycleRows⟩
  rcases @scheduledSteps_performs C romBits tape _ apart state state' ram ram' _ _ _ _ call romFits
    aligned (before ++ cycles) with ⟨delegations, written, rows, performs⟩
  have needsCycles : WitnessTracer.needsTracingDataForCircuitFamily .shiftBinaryCsr before =
      true := rfl
  have needsDelegations (rows : List TraceRow) :
      WitnessTracer.needsTracingDataForDelegationType keccakCsr rows = true := rfl
  have expected :
      checkedAdd (state.withCounters counters).timestamp
        (batchDuration numDelegationCallsForKeccakF1600) = some lastTimestamp := call.last
  have time :
      (afterCycles numDelegationCallsForKeccakF1600 lastTimestamp
        (state.withCounters counters)).timestamp = lastTimestamp := rfl
  have readState :
      (ReplayerRam.ofEntries (entriesOf writes ++ rest) : ReplayerRam romBits).readWords 62 =
        _ :=
    readWords_entriesOf (keccak_length call) rest
  have steps :=
    keccakDelegations_eq readState call.last time (state.registers 11).value (before ++ cycles)
  rw [finishKeccak_afterCycles call aligned counters] at steps
  refine ⟨cycles ++ delegations, ?_, ?_⟩
  · simp only [keccakSpecial5Call, State.withCounters_registers, call.x11_above_rom,
      call.x10_initial, call.x11_aligned, inRange, guard_true, Option.pure_def,
      Option.bind_eq_bind, Option.bind_some, needsCycles, needsDelegations, cycled, if_true,
      expected, time]
    rw [entries, ← List.append_assoc, ← written]
    exact steps
  · have stateTime : state'.timestamp = lastTimestamp := by
      rw [call.state_eq]
      rfl
    have sum := checkedAdd_toNat call.last
    have duration : (batchDuration numDelegationCallsForKeccakF1600).toNat = 4 * (649 - 1) := rfl
    apply StepRows.batch .keccak (by decide) cycleRows rows fun _ => performs
    · rw [call.state_eq]
      rfl
    · rw [stateTime, sum, duration]
      rfl

end Calls

end Airbender.Replayer
