import Airbender.Replayer.DelegationRows

/-!
# The rows of a Blake2s call

The rows of the rounds go through times and words that the executor never writes to its memory.
From the memory after the cycles of the call they lead to that of the executor.
-/

namespace Airbender.Replayer

open Bigint OfflineMemory Vm

variable {C : Type} {romBits : Nat} {tape : InstructionTape}

/-! ## Rounds -/

section Rounds

/-- The cells of a call: its registers, its input and its state. -/
def blakeCells (x10 x11 : U32) : List MemoryCell :=
  ([10, 11, 12] : List RegisterIndex).map .register ++
    (wordAddresses x11 16 ++ wordAddresses x10 24).map wordCell

namespace BlakeLoop

/-- What the cells of a call hold between two rounds. -/
def contents (x10 x11 : U32) (input : Vector U32 16) (loop : BlakeLoop) : List CellContent :=
  [(.fromScalar loop.x10Timestamp, x10), (.fromScalar loop.x11Timestamp, x11),
    (.fromScalar loop.x12Timestamp, loop.controlFlowReg)] ++
    (wordContents (loop.inputTimestamps.zip input.toList) ++
      wordContents (loop.stateTimestamps.zip loop.blakeState.toWords.toList))

/-- A loop with a time for every word. -/
structure Sized (loop : BlakeLoop) : Prop where
  inputTimestamps : loop.inputTimestamps.length = 16
  stateTimestamps : loop.stateTimestamps.length = 24

end BlakeLoop

theorem wordContents_replicate (timestamp : TimestampScalar) (values : List U32) :
    wordContents ((List.replicate values.length timestamp).zip values) =
      writtenContents timestamp values := by
  induction values with
  | nil => rfl
  | cons value values inductionHypothesis =>
      exact congrArg (List.cons (.fromScalar timestamp, value)) inductionHypothesis

variable {x10 x11 x12 : U32} {input : Vector U32 16}

/-- The row of a round finds what the loop before it says and leaves what the loop after it
says. -/
theorem blakeRound_maps (callRound : Nat) {loop : BlakeLoop} (sized : loop.Sized) :
    let round := blakeRound x10 x11 x12 input callRound loop
    let accesses := round.1.accesses blakeCsr
    accesses.map Access.cell = blakeCells x10 x11 ∧
      accesses.map Access.before = loop.contents x10 x11 input ∧
      accesses.map Access.after = round.2.contents x10 x11 input ∧ round.2.Sized := by
  intro round accesses
  have inputLength : input.toList.length = 16 := Vector.length_toList
  have readsLength : (loop.inputTimestamps.zip input.toList).length = 16 := by
    rw [List.length_zip, sized.inputTimestamps, inputLength, Nat.min_self]
  have wordsLength (state : Blake2s.FullState) : state.toWords.toList.length = 24 :=
    Vector.length_toList
  have writesLength :
      (loop.stateTimestamps.zip loop.blakeState.toWords.toList).length = 24 := by
    rw [List.length_zip, sized.stateTimestamps, wordsLength, Nat.min_self]
  have inputs : (loop.inputTimestamps.zip input.toList).map Prod.snd = input.toList := by
    apply List.map_snd_zip
    rw [inputLength, sized.inputTimestamps]
  have maps := @accesses_maps round.1 round.2.blakeState.toWords.toList blakeCsr (by decide)
    _ _ _ (loop.inputTimestamps.zip input.toList)
    (loop.stateTimestamps.zip loop.blakeState.toWords.toList) rfl rfl rfl
    (by rw [writesLength, wordsLength])
  rcases maps with ⟨cells, befores, afters⟩
  rw [readsLength, writesLength] at cells
  rw [inputs] at afters
  refine ⟨cells, befores, ?_, ⟨List.length_replicate, List.length_replicate⟩⟩
  have inputContents := wordContents_replicate (loop.currentTimestamp ||| 3) input.toList
  have stateContents :=
    wordContents_replicate (loop.currentTimestamp ||| 3) round.2.blakeState.toWords.toList
  rw [inputLength] at inputContents
  rw [wordsLength] at stateContents
  have contents : round.2.contents x10 x11 input =
      writtenContents (loop.currentTimestamp ||| 3) [x10, x11, round.2.controlFlowReg] ++
        (wordContents ((List.replicate 16 (loop.currentTimestamp ||| 3)).zip input.toList) ++
          wordContents ((List.replicate 24 (loop.currentTimestamp ||| 3)).zip
            round.2.blakeState.toWords.toList)) := rfl
  rw [contents, inputContents, stateContents]
  refine afters.trans ?_
  simp only [writtenContents, List.map_append]
  rfl

/-- The rows of the rounds.  When the cells are distinct, they lead from the loop before them to the
loop after them. -/
theorem blakeRounds_rows (remaining callRound : Nat) {loop : BlakeLoop} (sized : loop.Sized)
    (before : List TraceRow) :
    let rounds := blakeRounds x10 x11 x12 input remaining callRound loop before
    ∃ rows, rounds.2 = before ++ rows ∧
      DelegationRows (blakeCells x10 x11).Nodup tape blakeCsr loop.currentTimestamp remaining
        rows ∧
      ∀ {base memory : MemoryCell → CellContent}, (blakeCells x10 x11).Nodup →
        HoldsAt base (blakeCells x10 x11) (loop.contents x10 x11 input) memory →
        ∃ memory', Performs memory (rows.flatMap (TraceRow.accesses tape)) memory' ∧
          HoldsAt base (blakeCells x10 x11) (rounds.1.contents x10 x11 input) memory' := by
  induction remaining generalizing callRound loop before with
  | zero =>
      refine ⟨[], (List.append_nil before).symm, .nil _ _ _ _, ?_⟩
      intro base memory _ holds
      exact ⟨memory, .refl memory, holds⟩
  | succ remaining inductionHypothesis =>
      rcases @blakeRound_maps x10 x11 x12 input callRound loop sized with
        ⟨cells, befores, afters, sizedNext⟩
      let row := TraceRow.delegation blakeCsr (blakeRound x10 x11 x12 input callRound loop).1
      rcases inductionHypothesis (callRound + 1) sizedNext (before ++ [row]) with
        ⟨rows, written, delegations, leads⟩
      refine ⟨row :: rows, ?_, ?_, ?_⟩
      · rw [← List.append_cons] at written
        exact written
      · apply DelegationRows.cons rfl _ delegations
        intro nodup
        rw [cells]
        exact nodup
      · intro base memory nodup holds
        rcases holds.performs nodup cells befores with ⟨middle, performs, held⟩
        rw [afters] at held
        rcases leads nodup held with ⟨memory', rest, holdsEnd⟩
        refine ⟨memory', ?_, holdsEnd⟩
        rw [List.flatMap_cons]
        exact performs.append rest

theorem toWords_ofWords (words : Vector U32 24) :
    (Blake2s.FullState.ofWords words).toWords = words := by
  apply Vector.ext
  intro i bound
  rw [Blake2s.FullState.toWords, Blake2s.FullState.ofWords, Vector.getElem_cast,
    Vector.getElem_append]
  split
  · exact Vector.getElem_ofFn _
  · rw [Vector.getElem_ofFn]
    congr 1
    change 8 + (i - 8) = i
    omega

theorem arrayOfWords_toList {size : Nat} {words : List U32} (length : words.length = size) :
    (arrayOfWords size words).toList = words := by
  subst length
  apply List.ext_getElem
  · exact Vector.length_toList
  · intro i _ bound
    rw [Vector.getElem_toList]
    exact (Vector.getElem_ofFn _).trans (List.getElem_eq_getD 0).symm

/-- The loop after some rounds from `start`. -/
def loopAfter (x10 x11 x12 : U32) (input : Vector U32 16) (start : BlakeLoop) : Nat → BlakeLoop
  | 0 => start
  | count + 1 => (blakeRound x10 x11 x12 input count (loopAfter x10 x11 x12 input start count)).2

theorem blakeRounds_loopAfter {T : Type} [WitnessTracer T] (start : BlakeLoop)
    (remaining count : Nat) (tracer : T) :
    (blakeRounds x10 x11 x12 input remaining count (loopAfter x10 x11 x12 input start count)
      tracer).1 = loopAfter x10 x11 x12 input start (count + remaining) := by
  induction remaining generalizing count tracer with
  | zero => rfl
  | succ remaining inductionHypothesis =>
      have next : count + (remaining + 1) = count + 1 + remaining := by
        omega
      rw [next, ← inductionHypothesis (count + 1)]
      rfl

variable {start : BlakeLoop}

theorem loopAfter_currentTimestamp (count : Nat) :
    (loopAfter x10 x11 x12 input start count).currentTimestamp =
      start.currentTimestamp + BitVec.ofNat 64 count * timestampStep := by
  induction count with
  | zero => exact (BitVec.add_zero _).symm
  | succ count inductionHypothesis =>
      have moved : (loopAfter x10 x11 x12 input start (count + 1)).currentTimestamp =
          (loopAfter x10 x11 x12 input start count).currentTimestamp + timestampStep := rfl
      rw [moved, inductionHypothesis, BitVec.ofNat_add, BitVec.add_mul, BitVec.add_assoc]
      rfl

/-- The words of the loop are those of the batch. -/
theorem loopAfter_blakeState {words : Vector U32 24}
    (started : start.blakeState = .ofWords words) (count : Nat) :
    (loopAfter x10 x11 x12 input start (count + 1)).blakeState =
      Blake2s.stateAfter x12 words input (count + 1) := by
  induction count with
  | zero =>
      rw [Blake2s.stateAfter_succ]
      have first : (loopAfter x10 x11 x12 input start 1).blakeState =
          Blake2s.batchRound x12 input (Blake2s.initExtendedState x12 start.blakeState) 0 := rfl
      rw [first, started]
      rfl
  | succ count inductionHypothesis =>
      rw [Blake2s.stateAfter_succ, ← inductionHypothesis]
      rfl

/-- The control word of the loop has the permutation bit of the next round. -/
theorem loopAfter_controlFlowReg (accepts : Blake2s.acceptsControl x12 = true)
    (started : start.controlFlowReg = x12) {count : Nat} (inBatch : count < 10) :
    (loopAfter x10 x11 x12 input start (count + 1)).controlFlowReg =
      Blake2s.packControl (Blake2s.controlBitmask x12)
        (Blake2s.truncatePermutation ((1 : U32) <<< (count + 1))) := by
  have next (index : Nat) (bit : Blake2s.permutationBitmask
      (loopAfter x10 x11 x12 input start index).controlFlowReg = (1 : U32) <<< index) :
      (loopAfter x10 x11 x12 input start (index + 1)).controlFlowReg =
        Blake2s.packControl (Blake2s.controlBitmask x12)
          (Blake2s.truncatePermutation ((1 : U32) <<< (index + 1))) := by
    have packed : (loopAfter x10 x11 x12 input start (index + 1)).controlFlowReg =
        Blake2s.packControl (Blake2s.controlBitmask x12)
          (Blake2s.truncatePermutation (Blake2s.permutationBitmask
            (loopAfter x10 x11 x12 input start index).controlFlowReg <<< 1)) := rfl
    rw [packed, bit, ← BitVec.shiftLeft_add]
  induction count with
  | zero =>
      apply next
      rw [loopAfter, started]
      exact (Blake2s.acceptsControl_iff x12).mp accepts
  | succ count inductionHypothesis =>
      apply next
      rw [inductionHypothesis (Nat.lt_of_succ_lt inBatch),
        Blake2s.permutationBitmask_packControl x12 (by omega),
        Blake2s.truncatePermutation_shiftLeft_one inBatch]

/-- What the cells of a call hold after some rounds. -/
theorem loopAfter_contents {words : Vector U32 24} (accepts : Blake2s.acceptsControl x12 = true)
    (control : start.controlFlowReg = x12) (started : start.blakeState = .ofWords words)
    {count : Nat} (inBatch : count < 10) :
    (loopAfter x10 x11 x12 input start (count + 1)).contents x10 x11 input =
      writtenContents
        (start.currentTimestamp + BitVec.ofNat 64 count * timestampStep ||| 3)
        ([x10, x11, Blake2s.packControl (Blake2s.controlBitmask x12)
            (Blake2s.truncatePermutation ((1 : U32) <<< (count + 1)))] ++
          (input.toList ++ (Blake2s.stateAfter x12 words input (count + 1)).toWords.toList)) := by
  let last := loopAfter x10 x11 x12 input start (count + 1)
  let stamp := (loopAfter x10 x11 x12 input start count).currentTimestamp ||| 3
  have unfolded : last.contents x10 x11 input =
      writtenContents stamp [x10, x11, last.controlFlowReg] ++
        (wordContents ((List.replicate 16 stamp).zip input.toList) ++
          wordContents ((List.replicate 24 stamp).zip last.blakeState.toWords.toList)) := rfl
  have inputContents := wordContents_replicate stamp input.toList
  have stateContents := wordContents_replicate stamp last.blakeState.toWords.toList
  rw [Vector.length_toList] at inputContents stateContents
  rw [unfolded, inputContents, stateContents, loopAfter_controlFlowReg accepts control inBatch,
    loopAfter_blakeState started, writtenContents, writtenContents, writtenContents,
    ← loopAfter_currentTimestamp, writtenContents, List.map_append, List.map_append]

end Rounds

/-! ## The call -/

section Calls

variable [Counters C] {state state' : State C} {ram ram' : RamWithRomRegion romBits}
  {events : List SnapshotEvent} {lastTimestamp registerTimestamp : TimestampScalar}
  {reads writes : List RamAccess}

theorem blake_aboveRom (romFits : romBits ≤ romSecondWordBits)
    (call : BlakeCall state ram state' ram' events lastTimestamp registerTimestamp writes reads) :
    ∀ access ∈ writes ++ reads, romWords romBits ≤ wordIdx access.address := by
  intro access member
  rcases List.mem_append.mp member with inWrites | inReads
  · have listed := List.mem_map_of_mem (f := RamAccess.address) inWrites
    rw [call.writes_address] at listed
    exact romWords_le_wordIdx romFits call.x10_above_rom (show 128 ∣ 2 ^ 32 by decide) (by decide)
      (by decide) call.x10_aligned listed
  · have listed := List.mem_map_of_mem (f := RamAccess.address) inReads
    rw [call.reads_address] at listed
    exact romWords_le_wordIdx romFits call.x11_above_rom (show 64 ∣ 2 ^ 32 by decide) (by decide)
      (by decide) call.x11_aligned listed

theorem blakeCells_eq
    (call : BlakeCall state ram state' ram' events lastTimestamp registerTimestamp writes reads) :
    blakeCells (state.registers 10).value (state.registers 11).value =
      ([10, 11, 12] : List RegisterIndex).map .register ++
        ((reads ++ writes).map RamAccess.address).map wordCell := by
  rw [blakeCells, @List.map_append _ _ RamAccess.address, call.reads_address, call.writes_address]

theorem nodup_blakeCells
    (call : BlakeCall state ram state' ram' events lastTimestamp registerTimestamp writes reads)
    (apart : (state.registers 11).value ≠ (state.registers 10).value + 64) :
    (blakeCells (state.registers 10).value (state.registers 11).value).Nodup := by
  have order : (((reads ++ writes).map RamAccess.address).map wordIdx).Perm
      (((writes ++ reads).map RamAccess.address).map wordIdx) :=
    (List.perm_append_comm.map RamAccess.address).map wordIdx
  rw [blakeCells_eq call]
  exact nodup_cells (by decide) (order.nodup_iff.mpr (call.nodup apart))

variable (call :
  BlakeCall state ram state' ram' events lastTimestamp registerTimestamp writes reads)

include call

theorem blake_inputWords :
    (arrayOfWords 16 ((wordsOf reads).map Prod.snd)).toList = (wordsOf reads).map Prod.snd :=
  arrayOfWords_toList (by rw [List.length_map, wordsOf, List.length_map, (blake_lengths call).2])

theorem blake_stateWords :
    (arrayOfWords 24 ((wordsOf writes).map Prod.snd)).toList = (wordsOf writes).map Prod.snd :=
  arrayOfWords_toList (by rw [List.length_map, wordsOf, List.length_map, (blake_lengths call).1])

theorem blakeStart_sized (x12 : U32) (cycled : State C) :
    (blakeStart state.timestamp x12 cycled (wordsOf writes) (wordsOf reads)).Sized where
  inputTimestamps := (List.length_map _).trans ((List.length_map _).trans (blake_lengths call).2)
  stateTimestamps := (List.length_map _).trans ((List.length_map _).trans (blake_lengths call).1)

/-- The words that the rounds compute are those of the executor. -/
theorem blake_output (apart : (state.registers 11).value ≠ (state.registers 10).value + 64) :
    (Blake2s.stateAfter (state.registers 12).value
      (arrayOfWords 24 ((wordsOf writes).map Prod.snd))
      (arrayOfWords 16 ((wordsOf reads).map Prod.snd))
      (Blake2s.numRounds (state.registers 12).value)).toWords = blakeOutput state ram := by
  have nodup := call.nodup apart
  rw [blakeOutput, ← wordsOf_snd call.performs nodup (fun _ => List.mem_append_left reads)
    call.writes_address, ← wordsOf_snd call.performs nodup
    (fun _ => List.mem_append_right writes) call.reads_address, Blake2s.batchWords]
  rfl

/-- The first round finds what the executor found. -/
theorem blakeStart_contents (romFits : romBits ≤ romSecondWordBits)
    (apart : (state.registers 11).value ≠ (state.registers 10).value + 64) {cycled : State C}
    (registers : ∀ index ∈ ([10, 11, 12] : List RegisterIndex),
      cycled.registers index = state.registers index) :
    let x10 := (state.registers 10).value
    let x11 := (state.registers 11).value
    (blakeCells x10 x11).map (memoryOf cycled ram) =
      (blakeStart state.timestamp (state.registers 12).value cycled (wordsOf writes)
        (wordsOf reads)).contents x10 x11 (arrayOfWords 16 ((wordsOf reads).map Prod.snd)) := by
  intro x10 x11
  have nodup := call.nodup apart
  have aboveRom := blake_aboveRom romFits call
  have foundReads := @memoryOf_wordCells C romBits cycled ram (writes ++ reads) reads _
    call.performs nodup aboveRom fun _ => List.mem_append_right writes
  have foundWrites := @memoryOf_wordCells C romBits cycled ram (writes ++ reads) writes _
    call.performs nodup aboveRom fun _ => List.mem_append_left reads
  have pairs (words : List (TimestampScalar × U32)) :
      (words.map Prod.fst).zip (words.map Prod.snd) = words := by
    rw [List.zip_map']
    exact List.map_id words
  have stateWords : (blakeStart state.timestamp (state.registers 12).value cycled
      (wordsOf writes) (wordsOf reads)).blakeState.toWords.toList =
        (wordsOf writes).map Prod.snd := by
    rw [← blake_stateWords call, ← toWords_ofWords (arrayOfWords 24 _)]
    rfl
  have found : ([10, 11, 12] : List RegisterIndex).map (memoryOf cycled ram ∘ .register) =
      [(.fromScalar (cycled.registers 10).timestamp, x10),
        (.fromScalar (cycled.registers 11).timestamp, x11),
        (.fromScalar (cycled.registers 12).timestamp, (state.registers 12).value)] := by
    simp only [List.map_cons, List.map_nil, Function.comp_apply, memoryOf, Register.content,
      registers 10 (by decide), registers 11 (by decide), registers 12 (by decide)]
    rfl
  rw [blakeCells_eq call, BlakeLoop.contents, blake_inputWords call, stateWords,
    List.map_append, List.map_map, found, List.map_append, List.map_append, List.map_append,
    foundReads, foundWrites]
  change _ = _ ++ (wordContents (((wordsOf reads).map Prod.fst).zip _) ++
    wordContents (((wordsOf writes).map Prod.fst).zip _))
  rw [pairs, pairs]
  rfl

/-- The registers of the executor after a call. -/
theorem blake_registers (aligned : state.timestamp.toNat % 4 = 0) :
    let x12 := (state.registers 12).value
    state'.registers =
      Function.update (Function.update (Function.update
        (afterCycles (Blake2s.numRounds x12) lastTimestamp state).registers
          10 ⟨lastTimestamp ||| 3, (state.registers 10).value⟩)
          11 ⟨lastTimestamp ||| 3, (state.registers 11).value⟩)
          12 ⟨lastTimestamp ||| 3, Blake2s.finalX12 x12⟩ :=
  (congrArg State.registers (finishBlake_afterCycles call aligned state.counters)).symm

/-- The last round leaves what the executor leaves. -/
theorem blakeFinal_contents (apart : (state.registers 11).value ≠ (state.registers 10).value + 64)
    (aligned : state.timestamp.toNat % 4 = 0) {start : BlakeLoop}
    (time : start.currentTimestamp = state.timestamp)
    (control : start.controlFlowReg = (state.registers 12).value)
    (words : start.blakeState = .ofWords (arrayOfWords 24 ((wordsOf writes).map Prod.snd))) :
    let x10 := (state.registers 10).value
    let x11 := (state.registers 11).value
    let x12 := (state.registers 12).value
    let input := arrayOfWords 16 ((wordsOf reads).map Prod.snd)
    (loopAfter x10 x11 x12 input start (Blake2s.numRounds x12)).contents x10 x11 input =
      ([10, 11, 12] : List RegisterIndex).map (fun index => (state'.registers index).content) ++
        (reads ++ writes).map fun access => access.after.content := by
  intro x10 x11 x12 input
  have output := blake_output call apart
  have lastControl := Blake2s.finalX12_eq x12
  have sum := ((checkedAdd_eq_some_iff _ _ _).mp call.last).2
  change (Blake2s.stateAfter x12 _ input (Blake2s.numRounds x12)).toWords = _ at output
  change lastTimestamp = _ + batchDuration (Blake2s.numRounds x12) at sum
  have few := Blake2s.numRounds_le_ten x12
  rcases Nat.exists_eq_succ_of_ne_zero (Blake2s.numRounds_pos x12).ne' with ⟨count, countEq⟩
  rw [blake_registers call aligned]
  change _ = [_, _, (_, Blake2s.finalX12 x12)] ++ _
  rw [countEq] at output lastControl sum few ⊢
  have lastTime : start.currentTimestamp + BitVec.ofNat 64 count * timestampStep =
      lastTimestamp := by
    rw [time]
    exact sum.symm
  rw [loopAfter_contents call.accepts control words few, lastTime, ← lastControl, output,
    blake_inputWords call, List.map_append, map_content_reads call.reads_after,
    map_content_writes call.writes_after]
  simp only [writtenContents, List.map_append]
  rfl

/-- The rounds of a call lead from the memory after its cycles to that of the executor. -/
theorem blakeRounds_performs (romFits : romBits ≤ romSecondWordBits)
    (aligned : state.timestamp.toNat % 4 = 0) (before : List TraceRow) :
    let x12 := (state.registers 12).value
    let apart := (state.registers 11).value ≠ (state.registers 10).value + 64
    let cycled := afterCycles (Blake2s.numRounds x12) lastTimestamp state
    let start := blakeStart state.timestamp x12 cycled (wordsOf writes) (wordsOf reads)
    ∃ rows,
      (blakeRounds (state.registers 10).value (state.registers 11).value x12
        (arrayOfWords 16 ((wordsOf reads).map Prod.snd)) (Blake2s.numRounds x12) 0 start
        before).2 = before ++ rows ∧
      DelegationRows apart tape blakeCsr state.timestamp (Blake2s.numRounds x12) rows ∧
      (apart → Performs (memoryOf cycled ram) (rows.flatMap (TraceRow.accesses tape))
        (memoryOf state' ram')) := by
  intro x12 apart cycled start
  let x10 := (state.registers 10).value
  let x11 := (state.registers 11).value
  let input := arrayOfWords 16 ((wordsOf reads).map Prod.snd)
  rcases @blakeRounds_rows tape x10 x11 x12 input (Blake2s.numRounds x12) 0 start
    (blakeStart_sized call x12 cycled) before with ⟨rows, written, delegations, leads⟩
  refine ⟨rows, written, ⟨delegations.length, delegations.areDelegations, ?_⟩, ?_⟩
  · intro windows
    exact delegations.ordered (nodup_blakeCells call windows)
  · intro windows
    have kept : ∀ index ∈ ([10, 11, 12] : List RegisterIndex),
        cycled.registers index = state.registers index := by
      intro index member
      have notZero : index ≠ 0 := by
        rintro rfl
        exact absurd member (by decide)
      exact Function.update_of_ne notZero _ _
    have started := HoldsAt.refl (memoryOf cycled ram) (blakeCells x10 x11)
    rw [blakeStart_contents call romFits windows kept] at started
    have rounds : (blakeRounds x10 x11 x12 input (Blake2s.numRounds x12) 0 start before).1 =
        loopAfter x10 x11 x12 input start (0 + Blake2s.numRounds x12) :=
      blakeRounds_loopAfter start _ 0 before
    rcases leads (nodup_blakeCells call windows) started with ⟨memory', performs, holds⟩
    have executed := @holdsAt_memoryOf C romBits cycled state' ram ram' (writes ++ reads)
      (reads ++ writes) List.perm_append_comm call.performs (call.nodup windows)
      (blake_aboveRom romFits call) [10, 11, 12]
      (registers_of_call (blake_registers call aligned))
    rw [rounds, Nat.zero_add, blakeFinal_contents call windows aligned rfl rfl rfl,
      blakeCells_eq call] at holds
    rwa [← holds.unique executed]

theorem blakeCall_stepRows (romFits : romBits ≤ romSecondWordBits)
    (aligned : state.timestamp.toNat % 4 = 0) (zero : state.ZeroX0) (counters : C)
    (rest : List LogEntry) (before : List TraceRow) :
    ∃ rows, blake2RoundFunctionCall (state.withCounters counters)
        (ReplayerRam.ofEntries (events.map SnapshotEvent.logEntry ++ rest) :
          ReplayerRam romBits) before =
        some (state'.withCounters counters, .ofEntries rest, before ++ rows) ∧
      StepRows ((state.registers 11).value ≠ (state.registers 10).value + 64) tape state ram state'
        ram' rows := by
  rcases blake_lengths call with ⟨writesLength, readsLength⟩
  have few : Blake2s.numRounds (state.registers 12).value < 2 ^ 32 :=
    Nat.lt_of_le_of_lt (Blake2s.numRounds_le_ten _) (by decide)
  have positive := Blake2s.numRounds_pos (state.registers 12).value
  have pointersNe := call.pointers_ne
  rcases @cyclesOrSkip_rows C romBits tape state ram blakeCsr (by decide) _ _ zero positive few
    call.last counters before with ⟨cycles, cycled, cycleRows⟩
  rcases @blakeRounds_performs C romBits tape _ state state' ram ram' _ _ _ _ _ call romFits
    aligned (before ++ cycles) with ⟨delegations, written, rows, performs⟩
  have needsCycles : WitnessTracer.needsTracingDataForCircuitFamily .shiftBinaryCsr before =
      true := rfl
  have needsDelegations (rows : List TraceRow) :
      WitnessTracer.needsTracingDataForDelegationType blakeCsr rows = true := rfl
  have entries : events.map SnapshotEvent.logEntry = entriesOf writes ++ entriesOf reads := by
    rw [call.events_eq, ← entriesOf_append]
    rfl
  have readState :
      (ReplayerRam.ofEntries (entriesOf writes ++ (entriesOf reads ++ rest)) :
        ReplayerRam romBits).readWords 24 = _ :=
    readWords_entriesOf writesLength (entriesOf reads ++ rest)
  have time :
      (afterCycles (Blake2s.numRounds (state.registers 12).value) lastTimestamp
        (state.withCounters counters)).timestamp = lastTimestamp := rfl
  have rounds :=
    blakeDelegations_eq readState (readWords_entriesOf readsLength rest) call.last time
      (state.registers 10).value (state.registers 11).value (before ++ cycles)
  rw [finishBlake_afterCycles call aligned counters] at rounds
  refine ⟨cycles ++ delegations, ?_, ?_⟩
  · simp only [blake2RoundFunctionCall, State.withCounters_registers, call.x10_above_rom,
      call.x11_above_rom, pointersNe, call.x10_aligned, call.x11_aligned, call.accepts,
      guard_true, Option.pure_def, Option.bind_eq_bind, Option.bind_some, ne_eq,
      not_false_eq_true, needsCycles, needsDelegations, cycled, if_true]
    rw [entries, List.append_assoc, ← List.append_assoc before, ← written]
    exact rounds
  · have stateTime : state'.timestamp = lastTimestamp := by
      rw [call.state_eq]
      rfl
    have sum := checkedAdd_toNat call.last
    have step : timestampStep.toNat = 4 := rfl
    rw [batchDuration, BitVec.toNat_mul, BitVec.toNat_ofNat, step] at sum
    apply StepRows.batch .blake positive cycleRows rows performs
    · rw [call.state_eq]
      rfl
    · rw [stateTime, sum]
      omega

end Calls

end Airbender.Replayer
