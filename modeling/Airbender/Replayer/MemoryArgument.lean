import Airbender.Replayer.RunRows
import Airbender.Vm.InitsAndTeardowns

/-!
# The memory argument of a run

The replay of a finished run writes the rows of all its cycles.  Together with the initial and the
final contents of the registers and of the words that the executor lists, every tuple that a row
finds is left by a row before it, and the other way round.
-/

namespace Airbender

open OfflineMemory

/-! ## Past the end of the RAM -/

/-- The RAM keeps its length and everything past its end. -/
structure StaysPastEnd {romBits : Nat} (ram ram' : RamWithRomRegion romBits) : Prop where
  len_eq : ram'.len = ram.len
  stays : ∀ slot, ram.len ≤ slot → ram'.backing slot = ram.backing slot

section PastEnd

variable {romBits : Nat} {ram middle ram' : RamWithRomRegion romBits}

theorem StaysPastEnd.refl (ram : RamWithRomRegion romBits) : StaysPastEnd ram ram :=
  ⟨rfl, fun _ _ => rfl⟩

theorem StaysPastEnd.trans (first : StaysPastEnd ram middle) (second : StaysPastEnd middle ram') :
    StaysPastEnd ram ram' where
  len_eq := second.len_eq.trans first.len_eq
  stays := by
    intro slot outside
    rw [second.stays slot (first.len_eq ▸ outside), first.stays slot outside]

theorem StaysPastEnd.setSlot {slot : Nat} (inRange : slot < ram.len) (register : Register) :
    StaysPastEnd ram (ram.setSlot slot register) where
  len_eq := rfl
  stays := by
    intro other outside
    rw [RamWithRomRegion.setSlot_backing, Function.update_of_ne (by omega)]

theorem StaysPastEnd.of_readWords {timestamp : TimestampScalar} {address : U32} {count : Nat}
    {words : List U32} {events : List SnapshotEvent}
    (read : ram.readWords timestamp address count = some (words, ram', events)) :
    StaysPastEnd ram ram' := by
  induction count generalizing ram address words events with
  | zero =>
      simp only [RamWithRomRegion.readWords, Option.some.injEq, Prod.mk.injEq] at read
      rcases read with ⟨_, rfl, _⟩
      exact .refl ram
  | succ count inductionHypothesis =>
      simp only [RamWithRomRegion.readWords, Option.bind_eq_bind, Option.bind_eq_some_iff,
        Option.some.injEq, Prod.mk.injEq, Prod.exists] at read
      rcases read with ⟨_, _, next, first, _, _, _, remaining, _, rfl, _⟩
      rcases RamWithRomRegion.readWord_eq_some_iff.mp first with ⟨inRange, _, rfl⟩
      exact (StaysPastEnd.setSlot inRange _).trans (inductionHypothesis remaining)

theorem StaysPastEnd.of_writeBackWords {address : U32} {words : List (U32 × TimestampScalar)}
    {events : List SnapshotEvent}
    (write : ram.writeBackWords address words = some (ram', events)) :
    StaysPastEnd ram ram' := by
  induction words generalizing ram address events with
  | nil =>
      simp only [RamWithRomRegion.writeBackWords, Option.some.injEq, Prod.mk.injEq] at write
      rcases write with ⟨rfl, _⟩
      exact .refl ram
  | cons pair rest inductionHypothesis =>
      rcases pair with ⟨word, timestamp⟩
      simp only [RamWithRomRegion.writeBackWords, Option.bind_eq_bind, Option.bind_eq_some_iff,
        Option.some.injEq, Prod.mk.injEq, Prod.exists] at write
      rcases write with ⟨_, _, next, first, _, _, remaining, rfl, _⟩
      rcases RamWithRomRegion.writeWord_eq_some_iff.mp first with ⟨inRange, _, _, rfl⟩
      exact (StaysPastEnd.setSlot inRange _).trans (inductionHypothesis remaining)

namespace Vm

open Bigint

variable {C : Type} [Counters C] {state state' : State C} {events : List SnapshotEvent}

theorem bigintCall_staysPastEnd [Ruint]
    (call : bigintCall state ram = some (state', ram', events)) : StaysPastEnd ram ram' := by
  simp only [bigintCall, Option.bind_eq_bind, Option.bind_eq_some_iff, Option.guard_eq_some',
    exists_const, Option.some.injEq, Prod.mk.injEq, Prod.exists] at call
  rcases call with ⟨_, _, _, _, _, _, _, _, _, _, read, _, _, _, _, _, write, _, rfl, _⟩
  exact (StaysPastEnd.of_readWords read).trans (.of_writeBackWords write)

theorem blake2RoundFunctionCall_staysPastEnd
    (call : blake2RoundFunctionCall state ram = some (state', ram', events)) :
    StaysPastEnd ram ram' := by
  simp only [blake2RoundFunctionCall, Option.bind_eq_bind, Option.bind_eq_some_iff,
    Option.guard_eq_some', exists_const, Option.some.injEq, Prod.mk.injEq, Prod.exists] at call
  rcases call with ⟨_, _, _, _, _, _, _, _, _, _, _, _, _, _, _, _, write, _, _, _, read, _, rfl, _⟩
  exact (StaysPastEnd.of_writeBackWords write).trans (.of_readWords read)

theorem keccakSpecial5Call_staysPastEnd
    (call : keccakSpecial5Call state ram = some (state', ram', events)) :
    StaysPastEnd ram ram' := by
  simp only [keccakSpecial5Call, Option.bind_eq_bind, Option.bind_eq_some_iff,
    Option.guard_eq_some', exists_const, Option.some.injEq, Prod.mk.injEq, Prod.exists] at call
  rcases call with ⟨_, _, _, _, _, _, _, _, _, _, _, _, write, _, rfl, _⟩
  exact .of_writeBackWords write

theorem callDelegation_staysPastEnd [Ruint] {instr : Instruction}
    (call : callDelegation state ram instr = some (state', ram', events)) :
    StaysPastEnd ram ram' := by
  rw [callDelegation] at call
  split_ifs at call
  · exact bigintCall_staysPastEnd call
  · exact blake2RoundFunctionCall_staysPastEnd call
  · exact keccakSpecial5Call_staysPastEnd call

variable {ND : Type} [NonDeterminismCSRSource ND] [Ruint] {machine machine' : Machine C romBits ND}

theorem executeOpcode_staysPastEnd {opcode : Opcode} {instr : Instruction}
    (executed : executeOpcode opcode machine instr = some (machine', events)) :
    StaysPastEnd machine.ram machine'.ram := by
  cases opcode <;>
    simp only [executeOpcode, Machine.onState, Machine.onMemory, Option.map_eq_some_iff,
      Prod.mk.injEq, Prod.exists, exists_eq_left', Option.some.injEq] at executed
  case load family size value =>
    rcases executed with ⟨state', ram', _, loaded, rfl, rfl⟩
    rcases loadOp_eq_some loaded with ⟨_, _, inRange, _, rfl, _⟩
    exact .setSlot inRange _
  case store family size newWord =>
    rcases executed with ⟨state', ram', _, stored, rfl, rfl⟩
    rcases storeOp_eq_some stored with ⟨_, _, _, _, inRange, _, _, rfl, _⟩
    exact .setSlot inRange _
  case delegation =>
    rcases executed with ⟨state', ram', _, call, rfl, rfl⟩
    exact callDelegation_staysPastEnd call
  case alu family op useImm =>
    rcases executed with ⟨rfl, rfl⟩
    exact .refl _
  case lui =>
    rcases executed with ⟨rfl, rfl⟩
    exact .refl _
  case auipc =>
    rcases executed with ⟨rfl, rfl⟩
    exact .refl _
  case ndRead =>
    rcases executed with ⟨_, _, _, _, rfl, rfl⟩
    exact .refl _
  case ndWrite =>
    rcases executed with ⟨_, _, _, rfl, rfl⟩
    exact .refl _
  all_goals
    rcases executed with ⟨_, _, rfl, rfl⟩
    exact .refl _

theorem runCycle_staysPastEnd {tape : InstructionTape}
    (cycle : runCycle tape machine = some (machine', events)) :
    StaysPastEnd machine.ram machine'.ram := by
  rcases runCycle_eq_some_iff.mp cycle with ⟨stepped, timestamp, step, _, rfl⟩
  rcases runStep_eq_some_iff.mp step with ⟨instr, opcode, _, _, executed⟩
  have stepStays := executeOpcode_staysPastEnd executed
  exact stepStays

theorem runCycles_staysPastEnd {tape : InstructionTape} {count : Nat}
    (run : runCycles tape count machine = some (machine', events)) :
    StaysPastEnd machine.ram machine'.ram := by
  induction count generalizing machine events with
  | zero =>
      simp only [runCycles, Option.some.injEq, Prod.mk.injEq] at run
      rcases run with ⟨rfl, _⟩
      exact .refl _
  | succ count inductionHypothesis =>
      simp only [runCycles, Option.bind_eq_bind, Option.bind_eq_some_iff,
        Option.some.injEq, Prod.mk.injEq, Prod.exists] at run
      rcases run with ⟨next, _, cycle, _, _, rest, rfl, _⟩
      exact (runCycle_staysPastEnd cycle).trans (inductionHypothesis rest)

end Vm

end PastEnd

/-! ## Times of rows -/

/-- A time inside a cycle is not the time zero. -/
theorem TimestampData.fromScalar_or_ne_zero {offset : TimestampScalar}
    (inCycle : offset = 1 ∨ offset = 2 ∨ offset = 3) (timestamp : TimestampScalar) :
    fromScalar (timestamp ||| offset) ≠ fromScalar 0 := by
  intro same
  have lowLimbs (i : Nat) := congrArg (fun data => data.l0.getLsbD i) same
  have first := lowLimbs 0
  have second := lowLimbs 1
  rcases inCycle with rfl | rfl | rfl <;> simp [fromScalar] at first second

theorem TimestampData.plusOffset_ne_zero {offset : TimestampScalar}
    (inCycle : offset = 1 ∨ offset = 2 ∨ offset = 3) (data : TimestampData) :
    data.plusOffset offset ≠ fromScalar 0 :=
  fromScalar_or_ne_zero inCycle data.asScalar

namespace TraceRow

/-- No word that the row accesses is left with the time zero. -/
def LeavesTimes (tape : Vm.InstructionTape) (row : TraceRow) : Prop :=
  ∀ access ∈ row.accesses tape, ∀ slot, access.cell = .word slot → access.after.1 ≠ .fromScalar 0

theorem leavesTimes_of_family {tape : Vm.InstructionTape} {row : TraceRow}
    {family : CircuitFamily} (isFamily : row.family = some family) : row.LeavesTimes tape := by
  cases row with
  | nonMemory _ row =>
      intro access member slot isWord
      simp only [accesses, NonMemoryOpcodeTracingDataWithTimestamp.accesses, List.mem_cons,
        List.not_mem_nil, or_false] at member
      rcases member with rfl | rfl | rfl <;> cases isWord
  | memory _ row =>
      intro access member slot isWord
      rcases row with ⟨data, _, _, _, cycleTimestamp⟩
      cases data with
      | load data =>
          simp only [accesses, MemoryOpcodeTracingDataWithTimestamp.accesses, List.mem_cons,
            List.not_mem_nil, or_false] at member
          rcases member with rfl | rfl | rfl
          · cases isWord
          · exact TimestampData.plusOffset_ne_zero (.inl rfl) cycleTimestamp
          · cases isWord
      | store data =>
          simp only [accesses, MemoryOpcodeTracingDataWithTimestamp.accesses, List.mem_cons,
            List.not_mem_nil, or_false] at member
          rcases member with rfl | rfl | rfl
          · cases isWord
          · cases isWord
          · exact TimestampData.plusOffset_ne_zero (.inr (.inl rfl)) cycleTimestamp
  | delegation _ _ => cases isFamily

theorem IsDelegation.leavesTimes {tape : Vm.InstructionTape} {delegationType : BitVec 16}
    {row : TraceRow} (isDelegation : row.IsDelegation delegationType) : row.LeavesTimes tape := by
  rcases isDelegation with ⟨witness, start, rfl, time⟩
  intro access member slot _
  rw [(DelegationWitness.of_mem_accesses member).1, time]
  exact TimestampData.fromScalar_or_ne_zero (.inr (.inr rfl)) start

end TraceRow

namespace Replayer

open Bigint Ir Vm

section Runs

variable {C : Type} [Counters C] {romBits : Nat} {tape : InstructionTape} {rows : List TraceRow}

theorem Counted.leavesTimes {before after : C} (counted : Counted before after rows) :
    ∀ row ∈ rows, row.LeavesTimes tape := by
  intro row member
  cases counted with
  | single first family isRow isFamily =>
      rw [isRow, List.mem_singleton] at member
      rw [member]
      exact TraceRow.leavesTimes_of_family isFamily
  | batch delegation calls cycles delegations isRows _ _ areCycles areDelegations =>
      rw [isRows] at member
      rcases List.mem_append.mp member with inCycles | inDelegations
      · exact TraceRow.leavesTimes_of_family (areCycles row inCycles).1
      · exact (areDelegations row inDelegations).leavesTimes

theorem CountedRun.leavesTimes {before after : C} (counted : CountedRun before after rows) :
    ∀ row ∈ rows, row.LeavesTimes tape := by
  induction counted with
  | refl => exact fun _ member => absurd member List.not_mem_nil
  | tail _ step inductionHypothesis =>
      intro row member
      rcases List.mem_append.mp member with earlier | now
      · exact inductionHypothesis row earlier
      · exact step.leavesTimes row now

end Runs

/-! ## Balance of a run -/

section Balance

variable {C : Type} {romBits : Nat}

/-- Every register. -/
def registerIndices : List RegisterIndex := (List.finRange 32).map BitVec.ofFin

/-- The registers and the words that are listed after a run. -/
def boundaryCells (entries : List InitAndTeardown) : List MemoryCell :=
  registerIndices.map .register ++ entries.map fun entry => .word (wordIdx entry.1)

/-- The tuples before a run: nothing was accessed, and everything is zero. -/
def initTuples (entries : List InitAndTeardown) : Multiset (MemoryCell × CellContent) :=
  let zero : CellContent := (.fromScalar 0, 0)
  ((boundaryCells entries).map fun cell => (cell, zero) : List _)

/-- The tuples after a run: the final registers and the listed words. -/
def teardownTuples (state : State C) (entries : List InitAndTeardown) :
    Multiset (MemoryCell × CellContent) :=
  let ofRegister (index : RegisterIndex) : MemoryCell × CellContent :=
    (.register index, (state.registers index).content)
  let ofWord (entry : InitAndTeardown) : MemoryCell × CellContent :=
    (.word (wordIdx entry.1), .fromScalar entry.2.1, entry.2.2)
  (registerIndices.map ofRegister ++ entries.map ofWord : List _)

theorem nodup_registerIndices : registerIndices.Nodup :=
  (List.nodup_finRange 32).map fun _ _ same => BitVec.ofFin.inj same

theorem mem_registerIndices (index : RegisterIndex) : index ∈ registerIndices :=
  List.mem_map.mpr ⟨index.toFin, List.mem_finRange _, rfl⟩

theorem romWords_mul_four (romBits : Nat) : romBytes romBits = 4 * romWords romBits := by
  have bytes : romBytes romBits = 4 * 2 ^ (14 + romBits) := by
    rw [romBytes, Nat.one_shiftLeft, show 16 + romBits = 2 + (14 + romBits) by omega, Nat.pow_add]
  rw [romWords, bytes, Nat.mul_div_cancel_left _ (by decide)]

/-- Where a run starts every cell has the time zero and counts as zero. -/
theorem memoryOf_initialMachine {ND : Type} {content : List U32} {totalSizeBytes : Nat}
    {ram : RamWithRomRegion romBits}
    (loaded : RamWithRomRegion.fromRomContent romBits content totalSizeBytes = some ram)
    (counters : C) (nd : ND) (cell : MemoryCell) :
    memoryOf (initialMachine counters ram nd).state ram cell = (.fromScalar 0, 0) := by
  simp only [RamWithRomRegion.fromRomContent, Option.ite_none_right_eq_some,
    Option.some.injEq] at loaded
  rcases loaded with ⟨⟨_, _, short⟩, rfl⟩
  cases cell with
  | register index => rfl
  | word slot =>
      rw [memoryOf, wordContent]
      split_ifs with below
      · rfl
      · have pastContent : content.getD slot 0 = 0 := List.getD_eq_default _ _ (by omega)
        exact Prod.ext rfl pastContent

theorem boundary_initialMachine {ND : Type} {content : List U32} {totalSizeBytes : Nat}
    {ram : RamWithRomRegion romBits}
    (loaded : RamWithRomRegion.fromRomContent romBits content totalSizeBytes = some ram)
    (counters : C) (nd : ND) (entries : List InitAndTeardown) :
    boundary (memoryOf (initialMachine counters ram nd).state ram) (boundaryCells entries) =
      initTuples entries := by
  refine congrArg _ (List.map_congr_left fun cell _ => ?_)
  rw [memoryOf_initialMachine loaded]

variable {state : State C} {ram : RamWithRomRegion romBits} {accesses : List RamAccess}
  {entries : List InitAndTeardown}

/-- The listed words are what the memory holds. -/
theorem boundary_listed (timesOf : ∀ entry ∈ entries,
      entry.2.1 = (ram.backing (wordIdx entry.1)).timestamp)
    (lists : ListsAccessedWords ram accesses entries) :
    boundary (memoryOf state ram) (boundaryCells entries) = teardownTuples state entries := by
  rw [boundary, boundaryCells, teardownTuples, List.map_append, List.map_map, List.map_map]
  refine congrArg _ (congrArg _ (List.map_congr_left fun entry member => ?_))
  have aligned := lists.aligned entry member
  have slot := wordIdx_toNat entry.1
  have bytes := romWords_mul_four romBits
  rw [Function.comp_apply, memoryOf, wordContent, lists.value entry member, timesOf entry member]
  by_cases below : entry.1.toNat < romBytes romBits
  · rw [if_pos (by omega), if_pos below]
  · rw [if_neg (by omega), if_neg below]
    rfl

theorem unique_of_listsAccessedWords (lists : ListsAccessedWords ram accesses entries) :
    (entries.map fun entry => wordIdx entry.1).Nodup := by
  rw [List.nodup_iff_pairwise_ne, List.pairwise_map]
  refine lists.increasing.imp_of_mem fun {first second} isFirst isSecond before same => ?_
  rw [wordIdx_toNat, wordIdx_toNat] at same
  have firstAligned := lists.aligned first isFirst
  have secondAligned := lists.aligned second isSecond
  omega

theorem nodup_boundaryCells
    (unique : (entries.map fun entry => wordIdx entry.1).Nodup) :
    (boundaryCells entries).Nodup := by
  have words : entries.map (fun entry => MemoryCell.word (wordIdx entry.1)) =
      (entries.map fun entry => wordIdx entry.1).map MemoryCell.word := by
    rw [List.map_map]
    rfl
  rw [boundaryCells, List.nodup_append', words]
  refine ⟨nodup_registerIndices.map fun _ _ => MemoryCell.register.inj,
    unique.map fun _ _ => MemoryCell.word.inj, ?_⟩
  intro cell isRegister isWord
  rcases List.mem_map.mp isRegister with ⟨index, _, rfl⟩
  rcases List.mem_map.mp isWord with ⟨slot, _, same⟩
  cases same

end Balance

/-! ## Finished runs -/

section Finished

variable {C : Type} [Counters C] {romBits : Nat} {ND : Type} [NonDeterminismCSRSource ND]
  [Ruint] {tape : InstructionTape}

/-- The executor lists every word that a row accesses. -/
theorem listed_of_performs {machine machine' : Machine C romBits ND} {rows : List TraceRow}
    {events : List SnapshotEvent} {count : Nat}
    (performs : Performs (memoryOf machine.state machine.ram)
      (rows.flatMap (TraceRow.accesses tape)) (memoryOf machine'.state machine'.ram))
    (leaves : ∀ row ∈ rows, row.LeavesTimes tape)
    (run : runCycles tape count machine = some (machine', events))
    (fresh : ∀ slot, (machine.ram.backing slot).timestamp = 0) {accesses : List RamAccess}
    {entries : List InitAndTeardown} (lists : ListsAccessedWords machine'.ram accesses entries)
    (timed : ∀ slot, (machine'.ram.backing slot).timestamp ≠ 0 → slot < 2 ^ 30)
    {access : MemoryAccess} (member : access ∈ rows.flatMap (TraceRow.accesses tape)) :
    access.cell ∈ boundaryCells entries := by
  cases isCell : access.cell with
  | register index =>
      exact List.mem_append_left _ (List.mem_map_of_mem (mem_registerIndices index))
  | word slot =>
      apply List.mem_append_right
      have touched : MemoryCell.word slot ∈
          (rows.flatMap (TraceRow.accesses tape)).map Access.cell := by
        rw [← isCell]
        exact List.mem_map_of_mem member
      rcases performs.last_access touched with ⟨before, last, after, split, here, _, content⟩
      have lastMember : last ∈ rows.flatMap (TraceRow.accesses tape) := by
        rw [split]
        exact List.mem_append_right before List.mem_cons_self
      rcases List.mem_flatMap.mp lastMember with ⟨row, isRow, inRow⟩
      have lastTime := leaves row isRow last inRow slot here
      rw [← content, memoryOf] at lastTime
      have nonzero : (machine'.ram.backing slot).timestamp ≠ 0 := by
        intro zero
        apply lastTime
        rw [wordContent, Register.content, zero]
        split_ifs <;> rfl
      have kept := runCycles_staysPastEnd run
      have inside : slot < machine'.ram.len := by
        by_contra outside
        rw [kept.len_eq, Nat.not_lt] at outside
        rw [kept.stays slot outside] at nonzero
        exact nonzero (fresh slot)
      have small := timed slot nonzero
      have position := wordIdx_ofNat small
      have aligned : (BitVec.ofNat 32 (slot * 4)).toNat % 4 = 0 := by
        rw [toNat_ofNat_mul_four small]
        exact Nat.mul_mod_left slot 4
      rcases (lists.nonZero (BitVec.ofNat 32 (slot * 4))).mpr
        ⟨⟨aligned, position.symm ▸ inside⟩, position.symm ▸ nonzero⟩ with ⟨entry, listed, key⟩
      refine List.mem_map.mpr ⟨entry, listed, ?_⟩
      rw [key, position]

omit [Ruint] in
theorem fromRomContent_facts {content : List U32} {totalSizeBytes : Nat}
    {ram : RamWithRomRegion romBits}
    (loaded : RamWithRomRegion.fromRomContent romBits content totalSizeBytes = some ram) :
    ram.len ≠ 0 ∧ ∀ slot, (ram.backing slot).timestamp = 0 := by
  simp only [RamWithRomRegion.fromRomContent, Option.ite_none_right_eq_some,
    Option.some.injEq] at loaded
  rcases loaded with ⟨⟨_, above, _⟩, rfl⟩
  have bytes : 2 ^ 16 ≤ romBytes romBits := by
    rw [romBytes, Nat.one_shiftLeft]
    exact Nat.pow_le_pow_right Nat.two_pos (Nat.le_add_right 16 romBits)
  refine ⟨?_, fun _ => rfl⟩
  change totalSizeBytes / 4 ≠ 0
  omega

/-- The replay of a finished run: its rows, and the words that the executor lists on every number
of cores, such that the initial tuples and those that the rows leave are the final tuples and those
that the rows find. -/
theorem replaySnapshots_balance (supported : Tape romBits tape) {content : List U32}
    {totalSizeBytes : Nat} {ram : RamWithRomRegion romBits}
    (loaded : RamWithRomRegion.fromRomContent romBits content totalSizeBytes = some ram)
    {counters : C} {nd : ND} {machine' : Machine C romBits ND} {snapshotter' : SimpleSnapshotter C}
    (run : RunsTo tape (initialMachine counters ram nd) true machine' snapshotter')
    (apart : WindowsApartUntil tape (initialMachine counters ram nd) machine'.state.timestamp) :
    ∃ (rows : List TraceRow) (entries : List InitAndTeardown),
      replaySnapshots romBits tape snapshotter'.readsBuffer
          (snapshotter'.initialSnapshot :: snapshotter'.snapshots) [] = some rows ∧
        (∀ numCores, 1 ≤ numCores → ∃ chunks,
          machine'.ram.collectInitsAndTeardowns numCores = some chunks ∧
            chunks.flatten = entries) ∧
        initTuples entries + writes (rows.flatMap (TraceRow.accesses tape)) =
          teardownTuples machine'.state entries +
            reads (rows.flatMap (TraceRow.accesses tape)) := by
  rcases Finishes.recorded run.finishes with ⟨logged, last, recorded, isPrefix, complete⟩
  rcases complete rfl with ⟨rfl, rfl⟩
  have older := olderThanNow_initialMachine loaded counters nd
  have started : 0 < (initialMachine counters ram nd).state.timestamp.toNat :=
    Nat.zero_lt_of_lt (older.older 0)
  rcases Recorded.writes supported recorded (le_refl _) older.aligned rfl isPrefix [] with
    ⟨rows, replayed, written⟩
  rcases Recorded.reached recorded with ⟨count, events, cycles⟩
  rcases runCycles_performs older.aligned started cycles with
    ⟨accesses, performs, len, _, timed⟩
  rcases fromRomContent_facts loaded with ⟨nonempty, fresh⟩
  have lists := listsAccessedWords performs fresh timed
  have timesOf : ∀ entry ∈ (List.range last.ram.len).filterMap last.ram.collectedWord,
      entry.2.1 = (last.ram.backing (wordIdx entry.1)).timestamp := by
    intro entry member
    have nonzero := ((lists.nonZero entry.1).mp ⟨entry, member, rfl⟩).2
    rcases List.mem_filterMap.mp member with ⟨slot, _, listed⟩
    rcases RamWithRomRegion.collectedWord_eq_some listed with ⟨slotNonzero, key, time, _⟩
    rcases (timestamp_ne_zero_iff performs fresh timed slot).mp slotNonzero with
      ⟨access, _, here⟩
    rw [time, key, wordIdx_ofNat (here ▸ wordIdx_lt access.address)]
  have small : ∀ slot, (last.ram.backing slot).timestamp ≠ 0 → slot < 2 ^ 30 := by
    intro slot nonzero
    rcases (timestamp_ne_zero_iff performs fresh timed slot).mp nonzero with ⟨access, _, here⟩
    exact here ▸ wordIdx_lt access.address
  refine ⟨rows, (List.range last.ram.len).filterMap last.ram.collectedWord, replayed, ?_, ?_⟩
  · intro numCores cores
    apply last.ram.collectInitsAndTeardowns_flatten (Nat.ne_of_gt cores)
    rw [len]
    exact nonempty
  · rw [← boundary_initialMachine loaded counters nd, ← boundary_listed timesOf lists]
    have performs := written.performs apart
    exact performs.balance (nodup_boundaryCells (unique_of_listsAccessedWords lists))
      fun access member =>
        listed_of_performs performs written.counted.leavesTimes cycles fresh lists small member

/-- The accesses of the replay of a finished run lead from a memory of zeros to the executor's last
one, and each of them advances. -/
theorem performs_of_runsTo (supported : Tape romBits tape) {content : List U32}
    {totalSizeBytes : Nat} {ram : RamWithRomRegion romBits}
    (loaded : RamWithRomRegion.fromRomContent romBits content totalSizeBytes = some ram)
    {counters : C} {nd : ND} {machine' : Machine C romBits ND} {snapshotter' : SimpleSnapshotter C}
    (run : RunsTo tape (initialMachine counters ram nd) true machine' snapshotter')
    (apart : WindowsApartUntil tape (initialMachine counters ram nd) machine'.state.timestamp)
    (fits : machine'.state.timestamp.toNat ≤ 2 ^ 48) :
    ∃ rows : List TraceRow,
      replaySnapshots romBits tape snapshotter'.readsBuffer
          (snapshotter'.initialSnapshot :: snapshotter'.snapshots) [] = some rows ∧
        Performs (fun _ => (.fromScalar 0, 0)) (rows.flatMap (TraceRow.accesses tape))
          (memoryOf machine'.state machine'.ram) ∧
        Advances cellTime (rows.flatMap (TraceRow.accesses tape)) := by
  rcases Finishes.recorded run.finishes with ⟨logged, last, recorded, isPrefix, complete⟩
  rcases complete rfl with ⟨rfl, rfl⟩
  have older := olderThanNow_initialMachine loaded counters nd
  rcases Recorded.writes supported recorded (le_refl _) older.aligned rfl isPrefix [] with
    ⟨rows, replayed, written⟩
  have performs := written.performs apart
  have ordered := written.ordered apart older.aligned fits
  have zeros : memoryOf (initialMachine counters ram nd).state ram =
      fun _ => (.fromScalar 0, 0) :=
    funext (memoryOf_initialMachine loaded counters nd)
  have starts : memoryOf (initialMachine counters ram nd).state
      (initialMachine counters ram nd).ram = fun _ => (.fromScalar 0, 0) := zeros
  rw [starts] at performs
  refine ⟨rows, replayed, performs, performs.advances_of_ordered ordered ?_⟩
  intro access member
  have start : 4 ≤ cellTime access.after := (ordered.window access member).1
  have zero : cellTime (TimestampData.fromScalar 0, (0 : U32)) = 0 := rfl
  omega

/-- In the replay of a finished run every access finds a strictly older time than it leaves, and
leaves a time that no other access of its cell leaves. -/
theorem replaySnapshots_advances (supported : Tape romBits tape) {content : List U32}
    {totalSizeBytes : Nat} {ram : RamWithRomRegion romBits}
    (loaded : RamWithRomRegion.fromRomContent romBits content totalSizeBytes = some ram)
    {counters : C} {nd : ND} {machine' : Machine C romBits ND} {snapshotter' : SimpleSnapshotter C}
    (run : RunsTo tape (initialMachine counters ram nd) true machine' snapshotter')
    (apart : WindowsApartUntil tape (initialMachine counters ram nd) machine'.state.timestamp)
    (fits : machine'.state.timestamp.toNat ≤ 2 ^ 48) :
    ∃ rows : List TraceRow,
      replaySnapshots romBits tape snapshotter'.readsBuffer
          (snapshotter'.initialSnapshot :: snapshotter'.snapshots) [] = some rows ∧
        Advances cellTime (rows.flatMap (TraceRow.accesses tape)) ∧
        ((rows.flatMap (TraceRow.accesses tape)).map fun access =>
          (access.cell, cellTime access.after)).Nodup := by
  rcases performs_of_runsTo supported loaded run apart fits with
    ⟨rows, replayed, performs, advances⟩
  exact ⟨rows, replayed, advances, performs.nodup_times advances⟩

/-- The times in the rows are all that the circuits have to keep of the order of a finished run: in
whatever order the rows are dealt to them, all accesses sorted by their times lead from a memory of
zeros to the executor's last registers and RAM, each reading what was last written. -/
theorem replaySnapshots_sorted (supported : Tape romBits tape) {content : List U32}
    {totalSizeBytes : Nat} {ram : RamWithRomRegion romBits}
    (loaded : RamWithRomRegion.fromRomContent romBits content totalSizeBytes = some ram)
    {counters : C} {nd : ND} {machine' : Machine C romBits ND} {snapshotter' : SimpleSnapshotter C}
    (run : RunsTo tape (initialMachine counters ram nd) true machine' snapshotter')
    (apart : WindowsApartUntil tape (initialMachine counters ram nd) machine'.state.timestamp)
    (fits : machine'.state.timestamp.toNat ≤ 2 ^ 48) :
    ∃ rows : List TraceRow,
      replaySnapshots romBits tape snapshotter'.readsBuffer
          (snapshotter'.initialSnapshot :: snapshotter'.snapshots) [] = some rows ∧
        ∀ order : List MemoryAccess, order.Perm (rows.flatMap (TraceRow.accesses tape)) →
          order.Pairwise (fun first second => cellTime first.after ≤ cellTime second.after) →
            Performs (fun _ => (.fromScalar 0, 0)) order
              (memoryOf machine'.state machine'.ram) := by
  rcases performs_of_runsTo supported loaded run apart fits with
    ⟨rows, replayed, performs, advances⟩
  exact ⟨rows, replayed, fun _ perm sorted => performs.of_sorted advances perm sorted⟩

theorem runCycles_timestamp {machine machine' : Machine C romBits ND} {count : Nat}
    {events : List SnapshotEvent} (run : runCycles tape count machine = some (machine', events)) :
    machine.state.timestamp.toNat + 4 * count ≤ machine'.state.timestamp.toNat := by
  induction count generalizing machine events with
  | zero =>
      simp only [runCycles, Option.some.injEq, Prod.mk.injEq] at run
      rw [run.1]
      omega
  | succ count inductionHypothesis =>
      simp only [runCycles, Option.bind_eq_bind, Option.bind_eq_some_iff,
        Option.some.injEq, Prod.mk.injEq, Prod.exists] at run
      rcases run with ⟨next, _, cycle, _, _, rest, rfl, _⟩
      have advance := (runCycle_facts cycle).1
      have later := inductionHypothesis rest
      omega

end Finished

/-! ## A Blake2s call and a last jump -/

/-- The call on the state at the start of the RAM, and then a jump to itself. -/
def blakeLoopImage : List U32 := blakeImage 128 ++ [0x36f]

def blakeLoopInstructions : List Instruction :=
  blakeInstructions 128 ++ [.fromImm .jal 0 0 6 0]

def blakeLoopRam : RamWithRomRegion romSecondWordBits where
  backing := fun index => ⟨0, blakeLoopImage.getD index 0⟩
  len := 0x200000

def blakeLoopMachine : Machine DelegationsCounters romSecondWordBits Unit :=
  initialMachine DelegationsCounters.zero blakeLoopRam ()

theorem blakeLoop_preprocessed :
    preprocessBytecode fullUnsignedMachineDecoderConfig blakeLoopImage =
      some blakeLoopInstructions := by
  decide +kernel

theorem blakeLoop_supported : Tape romSecondWordBits (simpleTape blakeLoopInstructions) :=
  ⟨fun _ _ read => simpleTape_canonical blakeLoop_preprocessed read, le_refl _⟩

theorem blakeLoop_loaded :
    RamWithRomRegion.fromRomContent romSecondWordBits blakeLoopImage 0x800000 =
      some blakeLoopRam := by
  have sizes :
      0x800000 = 2 ^ Nat.log2 0x800000 ∧ romBytes romSecondWordBits < 0x800000 ∧
        12 ≤ romWords romSecondWordBits := by
    decide +kernel
  exact if_pos sizes

theorem blakeLoop_runsTo :
    ∃ machine' snapshotter',
      RunsTo (simpleTape blakeLoopInstructions) blakeLoopMachine true machine' snapshotter' ∧
        machine'.state.timestamp = 52 := by
  have stops :
      ((runBasicUnrolled (simpleTape blakeLoopInstructions) 7 blakeLoopMachine
          (SimpleSnapshotter.newWithCycleLimit blakeLoopMachine.state)).map fun result =>
        (result.1, result.2.1.state.timestamp)) = some (true, 52) := by
    decide +kernel
  rcases Option.map_eq_some_iff.mp stops with ⟨⟨flag, machine', snapshotter'⟩, run, result⟩
  rcases Prod.mk.inj result with ⟨isLast, lastTime⟩
  have isTrue : flag = true := isLast
  subst isTrue
  exact ⟨machine', snapshotter', .inl ⟨7, run⟩, lastTime⟩

theorem blakeLoop_apart :
    WindowsApartUntil (simpleTape blakeLoopInstructions) blakeLoopMachine 52 := by
  have pointers :
      ∀ earlier < 12,
        ((runCycles (simpleTape blakeLoopInstructions) earlier blakeLoopMachine).map
          fun result => decide ((result.1.state.registers 11).value ≠
            (result.1.state.registers 10).value + 64)) = some true := by
    decide +kernel
  rintro current instr ⟨count, reported, reached⟩ early _ _ _
  have later := runCycles_timestamp reached
  rw [BitVec.lt_def] at early
  have bound : (52 : TimestampScalar).toNat = 52 := rfl
  have start : blakeLoopMachine.state.timestamp.toNat = 4 := rfl
  have checked := pointers count (by omega)
  rw [reached, Option.map_some, Option.some.injEq] at checked
  exact of_decide_eq_true checked

theorem replaySnapshots_balance_blakeLoop :
    let tape := simpleTape blakeLoopInstructions
    ∃ machine' snapshotter', RunsTo tape blakeLoopMachine true machine' snapshotter' ∧
      ∃ (rows : List TraceRow) (entries : List InitAndTeardown),
        replaySnapshots romSecondWordBits tape snapshotter'.readsBuffer
            (snapshotter'.initialSnapshot :: snapshotter'.snapshots) [] = some rows ∧
          (∀ numCores, 1 ≤ numCores → ∃ chunks,
            machine'.ram.collectInitsAndTeardowns numCores = some chunks ∧
              chunks.flatten = entries) ∧
          initTuples entries + writes (rows.flatMap (TraceRow.accesses tape)) =
            teardownTuples machine'.state entries +
              reads (rows.flatMap (TraceRow.accesses tape)) := by
  rcases blakeLoop_runsTo with ⟨machine', snapshotter', run, lastTime⟩
  exact ⟨machine', snapshotter', run,
    replaySnapshots_balance blakeLoop_supported blakeLoop_loaded run
      (lastTime.symm ▸ blakeLoop_apart)⟩

theorem replaySnapshots_advances_blakeLoop :
    let tape := simpleTape blakeLoopInstructions
    ∃ machine' snapshotter', RunsTo tape blakeLoopMachine true machine' snapshotter' ∧
      ∃ rows : List TraceRow,
        replaySnapshots romSecondWordBits tape snapshotter'.readsBuffer
            (snapshotter'.initialSnapshot :: snapshotter'.snapshots) [] = some rows ∧
          Advances cellTime (rows.flatMap (TraceRow.accesses tape)) ∧
          ((rows.flatMap (TraceRow.accesses tape)).map fun access =>
            (access.cell, cellTime access.after)).Nodup := by
  rcases blakeLoop_runsTo with ⟨machine', snapshotter', run, lastTime⟩
  have fits : machine'.state.timestamp.toNat ≤ 2 ^ 48 := by
    rw [lastTime]
    decide
  exact ⟨machine', snapshotter', run,
    replaySnapshots_advances blakeLoop_supported blakeLoop_loaded run
      (lastTime.symm ▸ blakeLoop_apart) fits⟩

theorem replaySnapshots_sorted_blakeLoop :
    let tape := simpleTape blakeLoopInstructions
    ∃ machine' snapshotter', RunsTo tape blakeLoopMachine true machine' snapshotter' ∧
      ∃ rows : List TraceRow,
        replaySnapshots romSecondWordBits tape snapshotter'.readsBuffer
            (snapshotter'.initialSnapshot :: snapshotter'.snapshots) [] = some rows ∧
          ∀ order : List MemoryAccess, order.Perm (rows.flatMap (TraceRow.accesses tape)) →
            order.Pairwise (fun first second => cellTime first.after ≤ cellTime second.after) →
              Performs (fun _ => (.fromScalar 0, 0)) order
                (memoryOf machine'.state machine'.ram) := by
  rcases blakeLoop_runsTo with ⟨machine', snapshotter', run, lastTime⟩
  have fits : machine'.state.timestamp.toNat ≤ 2 ^ 48 := by
    rw [lastTime]
    decide
  exact ⟨machine', snapshotter', run,
    replaySnapshots_sorted blakeLoop_supported blakeLoop_loaded run
      (lastTime.symm ▸ blakeLoop_apart) fits⟩

end Replayer

end Airbender
