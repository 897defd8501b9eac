import Airbender.Fft.Worker
import Airbender.Vm.AccessTimes

/-!
# Initial and final words of a run

After a run the executor lists the words that were accessed.  Every thread walks over its own part
of the backing array.
-/

namespace Airbender

open Fft OfflineMemory

/-- An address, the time of the last access and the value then. -/
abbrev InitAndTeardown := U32 × (TimestampScalar × U32)

namespace RamWithRomRegion

variable {romBits : Nat}

/-- The loop of one thread over its words. -/
def collectPart (romBits : Nat) : Nat → List Register → List InitAndTeardown
  | _, [] => []
  | address, word :: rest =>
      if word.timestamp ≠ 0 then
        -- the ROM region is masked to be zero
        let wordValue := if address < 1 <<< (16 + romBits) then 0 else word.value
        (BitVec.ofNat 32 address, (word.timestamp, wordValue)) ::
          collectPart romBits (address + 4) rest
      else
        collectPart romBits (address + 4) rest

/-- `collect_inits_and_teardowns`: a list for every core, of which the last may be unused. -/
def collectInitsAndTeardowns (ram : RamWithRomRegion romBits) (numCores : Nat) :
    Option (List (List InitAndTeardown)) := do
  let geometry ← getGeometryForNumCores numCores ram.len
  guard (geometry.numChunks ≤ numCores)
  let chunks ← (List.range geometry.numChunks).mapM fun threadIdx => do
    let chunkSize ← geometry.getChunkSize threadIdx
    let chunkStart ← geometry.getChunkStartPos threadIdx
    let src := (List.range' chunkStart chunkSize).map ram.backing
    return collectPart romBits (chunkStart * 4) src
  return chunks ++ List.replicate (numCores - geometry.numChunks) []

/-! ## The list of all threads -/

/-- What is listed for one word. -/
def collectedWord (ram : RamWithRomRegion romBits) (index : Nat) : Option InitAndTeardown :=
  if (ram.backing index).timestamp ≠ 0 then
    some (BitVec.ofNat 32 (index * 4), ((ram.backing index).timestamp,
      if index * 4 < romBytes romBits then 0 else (ram.backing index).value))
  else
    none

theorem collectPart_eq (ram : RamWithRomRegion romBits) (start count : Nat) :
    collectPart romBits (start * 4) ((List.range' start count).map ram.backing) =
      (List.range' start count).filterMap ram.collectedWord := by
  induction count generalizing start with
  | zero => rfl
  | succ count inductionHypothesis =>
      have next : start * 4 + 4 = (start + 1) * 4 := (Nat.succ_mul start 4).symm
      rw [List.range'_succ, List.map_cons, List.filterMap_cons, collectPart, next,
        inductionHypothesis, collectedWord]
      by_cases accessed : (ram.backing start).timestamp ≠ 0
      · rw [if_pos accessed, if_pos accessed]
        rfl
      · rw [if_neg accessed, if_neg accessed]

/-- On every number of cores the lists together are the words of the memory in order. -/
theorem collectInitsAndTeardowns_flatten (ram : RamWithRomRegion romBits) {numCores : Nat}
    (cores : numCores ≠ 0) (nonempty : ram.len ≠ 0) :
    ∃ chunks, ram.collectInitsAndTeardowns numCores = some chunks ∧
      chunks.flatten = (List.range ram.len).filterMap ram.collectedWord := by
  rcases getGeometryForNumCores_splits cores nonempty with ⟨geometry, computed, count, splits⟩
  have few : geometry.numChunks ≤ numCores := by
    rw [count]
    exact Nat.min_le_left numCores ram.len
  have parts : (List.range geometry.numChunks).mapM (fun threadIdx => do
      let chunkSize ← geometry.getChunkSize threadIdx
      let chunkStart ← geometry.getChunkStartPos threadIdx
      let src := (List.range' chunkStart chunkSize).map ram.backing
      return collectPart romBits (chunkStart * 4) src) =
      some ((List.range geometry.numChunks).map fun threadIdx =>
        (positions (geometry.preparedChunk threadIdx)).filterMap ram.collectedWord) := by
    apply mapM_eq_some
    intro threadIdx member
    have prepared := List.mem_range.mp member
    rw [WorkerGeometry.getChunkSize_eq prepared, WorkerGeometry.getChunkStartPos,
      if_pos prepared, positions, ← collectPart_eq]
    rfl
  refine ⟨(List.range geometry.numChunks).map (fun threadIdx =>
      (positions (geometry.preparedChunk threadIdx)).filterMap ram.collectedWord) ++
        List.replicate (numCores - geometry.numChunks) [], ?_, ?_⟩
  · rw [collectInitsAndTeardowns, computed, Option.bind_eq_bind, Option.bind_some, guard_of few,
      Option.bind_eq_bind, Option.bind_some, parts]
    rfl
  · have empty : (List.replicate (numCores - geometry.numChunks)
        ([] : List InitAndTeardown)).flatten = [] := List.flatten_replicate_nil
    rw [List.flatten_append, empty, List.append_nil, ← List.flatMap_def, ← List.filterMap_flatMap,
      splits.flatMap_positions]

theorem collectedWord_eq_some {ram : RamWithRomRegion romBits} {index : Nat}
    {entry : InitAndTeardown} (listed : ram.collectedWord index = some entry) :
    (ram.backing index).timestamp ≠ 0 ∧ entry.1 = BitVec.ofNat 32 (index * 4) ∧
      entry.2.1 = (ram.backing index).timestamp ∧
        entry.2.2 = if index * 4 < romBytes romBits then 0 else (ram.backing index).value := by
  by_cases accessed : (ram.backing index).timestamp ≠ 0
  · rw [collectedWord, if_pos accessed] at listed
    cases listed
    exact ⟨accessed, rfl, rfl, rfl⟩
  · rw [collectedWord, if_neg accessed] at listed
    cases listed

end RamWithRomRegion

/-! ## Words of a 32-bit address space -/

theorem wordIdx_toNat (address : U32) : wordIdx address = address.toNat / 4 := rfl

theorem wordIdx_lt (address : U32) : wordIdx address < 2 ^ 30 := by
  have bound := address.isLt
  rw [wordIdx_toNat]
  omega

theorem toNat_ofNat_mul_four {index : Nat} (small : index < 2 ^ 30) :
    (BitVec.ofNat 32 (index * 4)).toNat = index * 4 := by
  rw [BitVec.toNat_ofNat, Nat.mod_eq_of_lt (by omega)]

theorem wordIdx_ofNat {index : Nat} (small : index < 2 ^ 30) :
    wordIdx (BitVec.ofNat 32 (index * 4)) = index := by
  rw [wordIdx_toNat, toNat_ofNat_mul_four small, Nat.mul_div_cancel _ (by decide)]

namespace Vm

open Bigint

/-- The accessed words of a memory in the order of their addresses, each with the time of its last
access and its value. -/
structure ListsAccessedWords {romBits : Nat} (ram : RamWithRomRegion romBits)
    (accesses : List RamAccess) (entries : List InitAndTeardown) : Prop where
  increasing : entries.Pairwise fun first second => first.1.toNat < second.1.toNat
  aligned : ∀ entry ∈ entries, entry.1.toNat % 4 = 0
  accessed : ∀ address : U32, (∃ entry ∈ entries, entry.1 = address) ↔
    (address.toNat % 4 = 0 ∧ wordIdx address < ram.len) ∧
      ∃ access ∈ accesses, wordIdx access.address = wordIdx address
  nonZero : ∀ address : U32, (∃ entry ∈ entries, entry.1 = address) ↔
    (address.toNat % 4 = 0 ∧ wordIdx address < ram.len) ∧
      (ram.backing (wordIdx address)).timestamp ≠ 0
  lastAccess : ∀ entry ∈ entries, ∃ before access after,
    accesses = before ++ access :: after ∧ wordIdx access.address = wordIdx entry.1 ∧
      (∀ later ∈ after, wordIdx later.address ≠ wordIdx entry.1) ∧
        entry.2.1 = access.after.timestamp
  value : ∀ entry ∈ entries, entry.2.2 =
    if entry.1.toNat < romBytes romBits then 0 else (ram.backing (wordIdx entry.1)).value

section Accesses

variable {romBits : Nat} {ram : RamWithRomRegion romBits} {start : Nat → Register}
  {accesses : List RamAccess}

/-- A word with a time holds what its last access left. -/
theorem last_access_of_timestamp
    (performs : Performs start (accesses.map RamAccess.toAccess) ram.backing)
    (fresh : ∀ index, (start index).timestamp = 0) {index : Nat}
    (timed : (ram.backing index).timestamp ≠ 0) :
    ∃ before access after, accesses = before ++ access :: after ∧
      wordIdx access.address = index ∧ (∀ later ∈ after, wordIdx later.address ≠ index) ∧
        ram.backing index = access.after := by
  have touched : index ∈ (accesses.map RamAccess.toAccess).map Access.cell := by
    by_contra untouched
    rw [performs.frame untouched] at timed
    exact timed (fresh index)
  rcases performs.last_access touched with ⟨first, cell, rest, split, here, untouched, content⟩
  rcases List.map_eq_append_iff.mp split with ⟨before, others, rfl, _, tail⟩
  rcases List.map_eq_cons_iff.mp tail with ⟨access, after, rfl, rfl, rfl⟩
  refine ⟨before, access, after, rfl, here, ?_, content⟩
  intro later member same
  apply untouched
  rw [List.map_map, ← same]
  exact List.mem_map_of_mem member

/-- Exactly the accessed words have a time. -/
theorem timestamp_ne_zero_iff
    (performs : Performs start (accesses.map RamAccess.toAccess) ram.backing)
    (fresh : ∀ index, (start index).timestamp = 0)
    (timed : ∀ access ∈ accesses, access.after.timestamp ≠ 0) (index : Nat) :
    (ram.backing index).timestamp ≠ 0 ↔ ∃ access ∈ accesses, wordIdx access.address = index := by
  constructor
  · intro nonzero
    rcases last_access_of_timestamp performs fresh nonzero with
      ⟨before, access, after, split, here, _⟩
    refine ⟨access, ?_, here⟩
    rw [split]
    exact List.mem_append_right before List.mem_cons_self
  · rintro ⟨access, member, here⟩
    have touched : index ∈ (accesses.map RamAccess.toAccess).map Access.cell := by
      rw [List.map_map, ← here]
      exact List.mem_map_of_mem member
    rcases performs.last_access touched with ⟨first, last, rest, split, _, _, content⟩
    have lastMember : last ∈ accesses.map RamAccess.toAccess := by
      rw [split]
      exact List.mem_append_right first List.mem_cons_self
    rcases List.mem_map.mp lastMember with ⟨lastAccess, inAccesses, rfl⟩
    rw [content]
    exact timed lastAccess inAccesses

/-- The list of a memory in which exactly the accessed words have a time. -/
theorem listsAccessedWords
    (performs : Performs start (accesses.map RamAccess.toAccess) ram.backing)
    (fresh : ∀ index, (start index).timestamp = 0)
    (timed : ∀ access ∈ accesses, access.after.timestamp ≠ 0) :
    ListsAccessedWords ram accesses ((List.range ram.len).filterMap ram.collectedWord) := by
  have small : ∀ index, (ram.backing index).timestamp ≠ 0 → index < 2 ^ 30 := by
    intro index nonzero
    rcases (timestamp_ne_zero_iff performs fresh timed index).mp nonzero with ⟨access, _, here⟩
    rw [← here]
    exact wordIdx_lt access.address
  have nonZero : ∀ address : U32,
      (∃ entry ∈ (List.range ram.len).filterMap ram.collectedWord, entry.1 = address) ↔
        (address.toNat % 4 = 0 ∧ wordIdx address < ram.len) ∧
          (ram.backing (wordIdx address)).timestamp ≠ 0 := by
    intro address
    constructor
    · rintro ⟨entry, member, rfl⟩
      rcases List.mem_filterMap.mp member with ⟨index, inside, listed⟩
      rcases RamWithRomRegion.collectedWord_eq_some listed with ⟨nonzero, key, _⟩
      rw [key, wordIdx_ofNat (small index nonzero), toNat_ofNat_mul_four (small index nonzero)]
      exact ⟨⟨Nat.mul_mod_left index 4, List.mem_range.mp inside⟩, nonzero⟩
    · rintro ⟨⟨aligned, inside⟩, nonzero⟩
      have word : wordIdx address * 4 = address.toNat := by
        rw [wordIdx_toNat]
        omega
      have listed : ram.collectedWord (wordIdx address) = some _ := if_pos nonzero
      refine ⟨_, List.mem_filterMap.mpr ⟨wordIdx address, List.mem_range.mpr inside, listed⟩, ?_⟩
      apply BitVec.eq_of_toNat_eq
      rw [toNat_ofNat_mul_four (wordIdx_lt address), word]
  refine ⟨?_, ?_, ?_, nonZero, ?_, ?_⟩
  · apply List.pairwise_lt_range.filterMap
    intro first second before entry firstListed other secondListed
    rcases RamWithRomRegion.collectedWord_eq_some firstListed with ⟨firstNonzero, firstKey, _⟩
    rcases RamWithRomRegion.collectedWord_eq_some secondListed with ⟨secondNonzero, secondKey, _⟩
    rw [firstKey, secondKey, toNat_ofNat_mul_four (small first firstNonzero),
      toNat_ofNat_mul_four (small second secondNonzero)]
    omega
  · intro entry member
    rcases List.mem_filterMap.mp member with ⟨index, _, listed⟩
    rcases RamWithRomRegion.collectedWord_eq_some listed with ⟨nonzero, key, _⟩
    rw [key, toNat_ofNat_mul_four (small index nonzero)]
    exact Nat.mul_mod_left index 4
  · intro address
    rw [nonZero address, timestamp_ne_zero_iff performs fresh timed (wordIdx address)]
  · intro entry member
    rcases List.mem_filterMap.mp member with ⟨index, _, listed⟩
    rcases RamWithRomRegion.collectedWord_eq_some listed with ⟨nonzero, key, time, _⟩
    rcases last_access_of_timestamp performs fresh nonzero with
      ⟨before, access, after, split, here, untouched, content⟩
    have word : wordIdx entry.1 = index := by
      rw [key, wordIdx_ofNat (small index nonzero)]
    refine ⟨before, access, after, split, here.trans word.symm, ?_, ?_⟩
    · rw [word]
      exact untouched
    · rw [time, content]
  · intro entry member
    rcases List.mem_filterMap.mp member with ⟨index, _, listed⟩
    rcases RamWithRomRegion.collectedWord_eq_some listed with ⟨nonzero, key, _, content⟩
    rw [content, key, toNat_ofNat_mul_four (small index nonzero), wordIdx_ofNat (small index nonzero)]

end Accesses

/-! ## Words of a run -/

section Runs

variable {C : Type} [Counters C] {romBits : Nat} {ND : Type} [NonDeterminismCSRSource ND]
  [Ruint]

/-- The accesses of a cycle account for all changes to the RAM and leave a time. -/
theorem runCycle_performs {tape : InstructionTape} {machine machine' : Machine C romBits ND}
    {events : List SnapshotEvent} (aligned : machine.state.timestamp.toNat % 4 = 0)
    (started : 0 < machine.state.timestamp.toNat)
    (cycle : runCycle tape machine = some (machine', events)) :
    ∃ accesses : List RamAccess,
      Performs machine.ram.backing (accesses.map RamAccess.toAccess) machine'.ram.backing ∧
        machine'.ram.len = machine.ram.len ∧
        events.filter SnapshotEvent.isMemoryRead = accesses.map RamAccess.event ∧
        (∀ access ∈ accesses, access.after.timestamp ≠ 0) ∧
        machine'.state.timestamp.toNat % 4 = 0 ∧ 0 < machine'.state.timestamp.toNat := by
  rcases runCycle_eq_some_iff.mp cycle with ⟨stepped, timestamp, step, added, rfl⟩
  rcases runStep_eq_some_iff.mp step with ⟨instr, opcode, read, named, executed⟩
  rcases executeOpcode_accesses named executed with ⟨accesses, values, spec⟩
  have facts := runStep_facts step
  have sum : timestamp.toNat = stepped.state.timestamp.toNat + 4 := checkedAdd_toNat added
  have sameResidue := facts.timestamp_mod
  refine ⟨accesses, spec.performs, spec.len_eq, ?_, ?_, ?_, ?_⟩
  · rw [spec.events_eq, filter_isMemoryRead]
  · intro access member zero
    have window := (spec.window aligned access member).1
    rw [zero] at window
    have none : (0 : TimestampScalar).toNat = 0 := rfl
    omega
  · rw [State.setTimestamp_timestamp]
    omega
  · rw [State.setTimestamp_timestamp]
    omega

/-- The same along a run. -/
theorem runCycles_performs {tape : InstructionTape} {count : Nat}
    {machine machine' : Machine C romBits ND} {events : List SnapshotEvent}
    (aligned : machine.state.timestamp.toNat % 4 = 0)
    (started : 0 < machine.state.timestamp.toNat)
    (run : runCycles tape count machine = some (machine', events)) :
    ∃ accesses : List RamAccess,
      Performs machine.ram.backing (accesses.map RamAccess.toAccess) machine'.ram.backing ∧
        machine'.ram.len = machine.ram.len ∧
        events.filter SnapshotEvent.isMemoryRead = accesses.map RamAccess.event ∧
        ∀ access ∈ accesses, access.after.timestamp ≠ 0 := by
  induction count generalizing machine events with
  | zero =>
      simp only [runCycles, Option.some.injEq, Prod.mk.injEq] at run
      rcases run with ⟨rfl, rfl⟩
      exact ⟨[], rfl, rfl, rfl, fun _ member => absurd member List.not_mem_nil⟩
  | succ count inductionHypothesis =>
      simp only [runCycles, Option.bind_eq_bind, Option.bind_eq_some_iff,
        Option.some.injEq, Prod.mk.injEq, Prod.exists] at run
      rcases run with ⟨next, first, cycle, last, later, rest, rfl, rfl⟩
      rcases runCycle_performs aligned started cycle with
        ⟨accesses, performs, len, reported, timed, alignedNext, startedNext⟩
      rcases inductionHypothesis alignedNext startedNext rest with
        ⟨accessesLater, performsLater, lenLater, reportedLater, timedLater⟩
      refine ⟨accesses ++ accessesLater, ?_, lenLater.trans len, ?_, ?_⟩
      · rw [List.map_append]
        exact performs.append performsLater
      · rw [List.filter_append, List.map_append, reported, reportedLater]
      · intro access member
        rcases List.mem_append.mp member with now | after
        · exact timed access now
        · exact timedLater access after

/-- After every run from a loaded program and on every number of cores, the lists together are
the accessed words in the order of their addresses. -/
theorem collectInitsAndTeardowns_listsAccessedWords
    {content : List U32} {totalSizeBytes : Nat} {ram : RamWithRomRegion romBits}
    (loaded : RamWithRomRegion.fromRomContent romBits content totalSizeBytes = some ram)
    {tape : InstructionTape} {counters : C} {nd : ND} {count : Nat}
    {machine' : Machine C romBits ND} {events : List SnapshotEvent}
    (run : runCycles tape count (initialMachine counters ram nd) = some (machine', events)) :
    ∃ accesses entries,
      events.filter SnapshotEvent.isMemoryRead = accesses.map RamAccess.event ∧
        Performs ram.backing (accesses.map RamAccess.toAccess) machine'.ram.backing ∧
        ListsAccessedWords machine'.ram accesses entries ∧
        ∀ numCores, 1 ≤ numCores → ∃ chunks,
          machine'.ram.collectInitsAndTeardowns numCores = some chunks ∧
            chunks.flatten = entries := by
  have older := olderThanNow_initialMachine loaded counters nd
  have started : 0 < (initialMachine counters ram nd).state.timestamp.toNat :=
    Nat.zero_lt_of_lt (older.older 0)
  rcases runCycles_performs older.aligned started run with
    ⟨accesses, performs, len, reported, timed⟩
  simp only [RamWithRomRegion.fromRomContent, Option.ite_none_right_eq_some,
    Option.some.injEq] at loaded
  rcases loaded with ⟨⟨power, above, _⟩, rfl⟩
  have nonempty : machine'.ram.len ≠ 0 := by
    have bytes : 2 ^ 16 ≤ romBytes romBits := by
      rw [romBytes, Nat.one_shiftLeft]
      exact Nat.pow_le_pow_right Nat.two_pos (Nat.le_add_right 16 romBits)
    rw [len]
    change totalSizeBytes / 4 ≠ 0
    omega
  refine ⟨accesses, _, reported, performs, listsAccessedWords performs (fun _ => rfl) timed, ?_⟩
  intro numCores cores
  exact machine'.ram.collectInitsAndTeardowns_flatten (Nat.ne_of_gt cores) nonempty

end Runs

/-- After a Blake2s call, whose state and input are in the first words of the RAM. -/
theorem collectInitsAndTeardowns_listsAccessedWords_blakeImage :
    ∃ machine' events, runCycles (simpleTape (blakeInstructions 128)) 4 (blakeMachine 128) =
        some (machine', events) ∧
      ∃ accesses entries,
        events.filter SnapshotEvent.isMemoryRead = accesses.map RamAccess.event ∧
          Performs (blakeRam 128).backing (accesses.map RamAccess.toAccess)
            machine'.ram.backing ∧
          ListsAccessedWords machine'.ram accesses entries ∧
          ∀ numCores, 1 ≤ numCores → ∃ chunks,
            machine'.ram.collectInitsAndTeardowns numCores = some chunks ∧
              chunks.flatten = entries := by
  have succeeds :
      (runCycles (simpleTape (blakeInstructions 128)) 4 (blakeMachine 128)).isSome = true := by
    decide +kernel
  rcases Option.isSome_iff_exists.mp succeeds with ⟨⟨machine', events⟩, run⟩
  exact ⟨machine', events, run,
    collectInitsAndTeardowns_listsAccessedWords (fromRomContent_blakeImage 128) run⟩

end Vm

end Airbender
