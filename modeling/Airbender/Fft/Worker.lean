import Mathlib.Data.List.Range
import Mathlib.Data.Nat.Log
import Airbender.Field.TwoAdic
import Airbender.Lib.NestedList

/-!
# How the worker splits work between threads

Work is cut into consecutive chunks of one ordinary size, of which the last may be different.
-/

namespace Airbender.Fft

structure WorkerGeometry where
  numChunks : ℕ
  ordinaryChunkSize : ℕ
  remainder : ℕ
deriving DecidableEq, Repr

namespace WorkerGeometry

/-- `get_chunk_size`; a chunk that was not prepared is a panic. -/
def getChunkSize (geometry : WorkerGeometry) (chunkIdx : ℕ) : Option ℕ :=
  if chunkIdx < geometry.numChunks then
    if geometry.remainder = 0 then
      some geometry.ordinaryChunkSize
    else if chunkIdx = geometry.numChunks - 1 then
      some geometry.remainder
    else
      some geometry.ordinaryChunkSize
  else
    none

def getChunkStartPos (geometry : WorkerGeometry) (chunkIdx : ℕ) : Option ℕ :=
  if chunkIdx < geometry.numChunks then
    some (geometry.ordinaryChunkSize * chunkIdx)
  else
    none

/-- The start and the size of a chunk. -/
def chunk (geometry : WorkerGeometry) (chunkIdx : ℕ) : Option (ℕ × ℕ) := do
  let chunkStart ← geometry.getChunkStartPos chunkIdx
  let chunkSize ← geometry.getChunkSize chunkIdx
  some (chunkStart, chunkSize)

/-- The size of the last chunk. -/
def lastChunkSize (geometry : WorkerGeometry) : ℕ :=
  if geometry.remainder = 0 then geometry.ordinaryChunkSize else geometry.remainder

/-- The chunks follow each other and make up the work. -/
structure Splits (geometry : WorkerGeometry) (workSize : ℕ) : Prop where
  positive : 0 < geometry.numChunks
  total : (geometry.numChunks - 1) * geometry.ordinaryChunkSize + geometry.lastChunkSize =
    workSize

end WorkerGeometry

open WorkerGeometry

/-- An assertion that holds. -/
theorem guard_of {p : Prop} [Decidable p] (holds : p) : (guard p : Option Unit) = some () :=
  if_pos holds

/-- The heuristic of `get_geometry_for_num_cores`: a chunk size close to a power of two becomes
that power. -/
def roundedChunkSize (ordinaryChunkSize : ℕ) : ℕ :=
  if Usize.isPowerOfTwo ordinaryChunkSize = false ∧
      2 ^ Nat.clog 2 ordinaryChunkSize - ordinaryChunkSize < 32 then
    2 ^ Nat.clog 2 ordinaryChunkSize
  else
    ordinaryChunkSize

/-- The chunk size for work that does not divide evenly and has no room for the rounded size. -/
def defaultChunkSize (numChunks workSize : ℕ) : ℕ :=
  if workSize % (numChunks - 1) ≠ 0 then workSize / (numChunks - 1) else workSize / numChunks

/-- The last step of `get_geometry_for_num_cores`: a large last chunk gives one unit to each of
the others. -/
def lightenLastChunk (numCores : ℕ) (result : WorkerGeometry) : Option WorkerGeometry := do
  if result.ordinaryChunkSize < result.remainder ∧ numCores - 1 < result.remainder then
    let remainder := result.remainder - (numCores - 1)
    let ordinaryChunkSize := result.ordinaryChunkSize + 1
    guard (remainder < ordinaryChunkSize)
    return ⟨result.numChunks, ordinaryChunkSize, remainder⟩
  return result

/-- `get_geometry_for_num_cores`; no cores and no work are panics. -/
def getGeometryForNumCores (numCores workSize : ℕ) : Option WorkerGeometry := do
  guard (numCores ≠ 0)
  guard (workSize ≠ 0)
  if numCores = 1 then
    return ⟨1, workSize, 0⟩
  let numChunks := min numCores workSize
  let ordinaryChunkSize := workSize / numChunks
  let remainder := workSize % numChunks
  if remainder = 0 then
    lightenLastChunk numCores ⟨numChunks, ordinaryChunkSize, remainder⟩
  else
    guard (1 < numChunks)
    let ordinaryChunkSize := roundedChunkSize ordinaryChunkSize
    let mainPart := (numChunks - 1) * ordinaryChunkSize
    if mainPart < workSize then
      lightenLastChunk numCores ⟨numChunks, ordinaryChunkSize, workSize - mainPart⟩
    else
      let ordinaryChunkSize := defaultChunkSize numChunks workSize
      let mainPart := (numChunks - 1) * ordinaryChunkSize
      guard (mainPart < workSize)
      lightenLastChunk numCores ⟨numChunks, ordinaryChunkSize, workSize - mainPart⟩

/-! ## Every unit of work is in one chunk -/

/-- A geometry whose last chunk takes what the others leave. -/
theorem splits_of_rest {numChunks size workSize : ℕ} (positive : 0 < numChunks)
    (rest : (numChunks - 1) * size < workSize) :
    (⟨numChunks, size, workSize - (numChunks - 1) * size⟩ : WorkerGeometry).Splits workSize := by
  refine ⟨positive, ?_⟩
  have nonzero : workSize - (numChunks - 1) * size ≠ 0 := by omega
  rw [lastChunkSize, if_neg nonzero]
  change (numChunks - 1) * size + (workSize - (numChunks - 1) * size) = workSize
  omega

theorem splits_of_even {numChunks size workSize : ℕ} (positive : 0 < numChunks)
    (even : numChunks * size = workSize) :
    (⟨numChunks, size, 0⟩ : WorkerGeometry).Splits workSize := by
  refine ⟨positive, ?_⟩
  rw [lastChunkSize, if_pos rfl, ← Nat.succ_mul, Nat.succ_eq_add_one, Nat.sub_add_cancel positive]
  exact even

theorem le_roundedChunkSize (size : ℕ) : size ≤ roundedChunkSize size := by
  rw [roundedChunkSize]
  split
  · exact Nat.le_pow_clog (by decide) size
  · exact Nat.le_refl size

theorem defaultChunkSize_bounds {numChunks workSize : ℕ} (several : 1 < numChunks)
    (enough : numChunks ≤ workSize) :
    workSize / numChunks ≤ defaultChunkSize numChunks workSize ∧
      (numChunks - 1) * defaultChunkSize numChunks workSize < workSize := by
  by_cases uneven : workSize % (numChunks - 1) ≠ 0
  · rw [defaultChunkSize, if_pos uneven]
    have division := Nat.div_add_mod workSize (numChunks - 1)
    exact ⟨Nat.div_le_div_left (Nat.sub_le numChunks 1) (by omega), by omega⟩
  · rw [defaultChunkSize, if_neg uneven]
    have division := Nat.div_add_mod workSize numChunks
    have positive : 0 < workSize / numChunks := Nat.div_pos enough (by omega)
    have whole : numChunks * (workSize / numChunks) =
        (numChunks - 1) * (workSize / numChunks) + workSize / numChunks := by
      rw [← Nat.succ_mul, Nat.succ_eq_add_one, Nat.sub_add_cancel (by omega)]
    exact ⟨Nat.le_refl _, by omega⟩

/-- A chunk size that is not below the average leaves little for the last chunk. -/
theorem lightened_bound {numChunks workSize size : ℕ} (several : 1 < numChunks)
    (atLeast : workSize / numChunks ≤ size) :
    workSize - (numChunks - 1) * size - (numChunks - 1) < size + 1 := by
  have division := Nat.div_add_mod workSize numChunks
  have modulus := Nat.mod_lt workSize (Nat.zero_lt_of_lt several)
  have grown : (numChunks - 1) * (workSize / numChunks) ≤ (numChunks - 1) * size :=
    Nat.mul_le_mul_left _ atLeast
  have whole : numChunks * (workSize / numChunks) =
      (numChunks - 1) * (workSize / numChunks) + workSize / numChunks := by
    rw [← Nat.succ_mul, Nat.succ_eq_add_one, Nat.sub_add_cancel (by omega)]
  omega

/-- Lightening the last chunk moves work, and its assertion passes. -/
theorem lightenLastChunk_splits {numChunks workSize size : ℕ} (several : 1 < numChunks)
    (atLeast : workSize / numChunks ≤ size) (rest : (numChunks - 1) * size < workSize) :
    ∃ geometry, lightenLastChunk numChunks ⟨numChunks, size, workSize - (numChunks - 1) * size⟩ =
      some geometry ∧ geometry.numChunks = numChunks ∧ geometry.Splits workSize := by
  by_cases large : size < workSize - (numChunks - 1) * size ∧
      numChunks - 1 < workSize - (numChunks - 1) * size
  · have moved : (numChunks - 1) * (size + 1) = (numChunks - 1) * size + (numChunks - 1) :=
      Nat.mul_succ _ _
    have same : workSize - (numChunks - 1) * size - (numChunks - 1) =
        workSize - (numChunks - 1) * (size + 1) := by omega
    simp only [lightenLastChunk, if_pos large, guard_of (lightened_bound several atLeast)]
    refine ⟨_, rfl, rfl, ?_⟩
    rw [same]
    exact splits_of_rest (by omega) (by omega)
  · rw [lightenLastChunk, if_neg large]
    exact ⟨_, rfl, rfl, splits_of_rest (by omega) rest⟩

/-- Every assertion of the split passes, and the chunks make up the work. -/
theorem getGeometryForNumCores_splits {numCores workSize : ℕ} (cores : numCores ≠ 0)
    (work : workSize ≠ 0) :
    ∃ geometry, getGeometryForNumCores numCores workSize = some geometry ∧
      geometry.numChunks = min numCores workSize ∧ geometry.Splits workSize := by
  rw [getGeometryForNumCores, guard_of cores, guard_of work]
  simp only [Option.pure_def, Option.bind_eq_bind, Option.bind_some]
  by_cases single : numCores = 1
  · have chunks : min numCores workSize = 1 := by omega
    rw [if_pos single, chunks]
    exact ⟨_, rfl, rfl, splits_of_even Nat.one_pos (Nat.one_mul workSize)⟩
  rw [if_neg single]
  by_cases even : workSize % min numCores workSize = 0
  · -- a remainder of zero is not lightened
    rw [if_pos even, even, lightenLastChunk, if_neg (fun large => Nat.not_lt_zero _ large.1)]
    refine ⟨_, rfl, rfl, splits_of_even (by omega) ?_⟩
    exact Nat.mul_div_cancel' (Nat.dvd_of_mod_eq_zero even)
  have chunks : min numCores workSize = numCores := by
    by_contra fewer
    have whole : min numCores workSize = workSize := by omega
    rw [whole, Nat.mod_self] at even
    exact even rfl
  have several : 1 < numCores := by omega
  rw [if_neg even, chunks, guard_of several, Option.bind_some]
  by_cases fits : (numCores - 1) * roundedChunkSize (workSize / numCores) < workSize
  · rw [if_pos fits]
    exact lightenLastChunk_splits several (le_roundedChunkSize _) fits
  · obtain ⟨atLeast, rest⟩ := defaultChunkSize_bounds several (show numCores ≤ workSize by omega)
    rw [if_neg fits, guard_of rest, Option.bind_some]
    exact lightenLastChunk_splits several atLeast rest

/-! ## Threads -/

/-- The positions of a chunk, in order. -/
def positions (chunk : ℕ × ℕ) : List ℕ := List.range' chunk.1 chunk.2

/-- The chunks of a geometry, one after the other. -/
def workChunks (numCores workSize : ℕ) : Option (List (ℕ × ℕ)) := do
  let geometry ← getGeometryForNumCores numCores workSize
  (List.range geometry.numChunks).mapM geometry.chunk

/-- What each of the threads works on when there is one for every core; a thread without a chunk
panics. -/
def threadChunks (numCores workSize : ℕ) : Option (List (ℕ × ℕ)) := do
  let geometry ← getGeometryForNumCores numCores workSize
  (List.range numCores).mapM geometry.chunk

theorem mapM_eq_some {α β : Type} {f : α → Option β} {g : α → β} {xs : List α}
    (all : ∀ x ∈ xs, f x = some (g x)) : xs.mapM f = some (xs.map g) := by
  induction xs with
  | nil => rfl
  | cons x xs inductionHypothesis =>
      obtain ⟨head, rest⟩ := List.forall_mem_cons.mp all
      rw [List.mapM_cons, head, inductionHypothesis rest]
      rfl

/-- A chunk that was prepared. -/
def WorkerGeometry.preparedChunk (geometry : WorkerGeometry) (chunkIdx : ℕ) : ℕ × ℕ :=
  (geometry.ordinaryChunkSize * chunkIdx,
    if chunkIdx = geometry.numChunks - 1 then geometry.lastChunkSize
    else geometry.ordinaryChunkSize)

theorem WorkerGeometry.getChunkSize_eq {geometry : WorkerGeometry} {chunkIdx : ℕ}
    (prepared : chunkIdx < geometry.numChunks) :
    geometry.getChunkSize chunkIdx = some (geometry.preparedChunk chunkIdx).2 := by
  rw [getChunkSize, if_pos prepared, preparedChunk, lastChunkSize]
  by_cases equal : geometry.remainder = 0
  · rw [if_pos equal, if_pos equal, ite_self]
  · rw [if_neg equal, if_neg equal]
    split <;> rfl

theorem WorkerGeometry.chunk_eq {geometry : WorkerGeometry} {chunkIdx : ℕ}
    (prepared : chunkIdx < geometry.numChunks) :
    geometry.chunk chunkIdx = some (geometry.preparedChunk chunkIdx) := by
  rw [chunk, getChunkStartPos, if_pos prepared, getChunkSize_eq prepared]
  rfl

/-- A chunk that was not prepared. -/
theorem WorkerGeometry.chunk_none {geometry : WorkerGeometry} {chunkIdx : ℕ}
    (unprepared : geometry.numChunks ≤ chunkIdx) : geometry.chunk chunkIdx = none := by
  rw [chunk, getChunkStartPos, if_neg (Nat.not_lt.mpr unprepared)]
  rfl

/-- Chunks of one size. -/
theorem flatMap_range'_mul (count size : ℕ) :
    (List.range count).flatMap (fun i => List.range' (size * i) size) =
      List.range (count * size) := by
  induction count with
  | zero => rw [Nat.zero_mul, List.range_zero, List.flatMap_nil]
  | succ count inductionHypothesis =>
      rw [List.range_succ, List.flatMap_append, inductionHypothesis, List.flatMap_singleton,
        Nat.succ_mul, List.range_eq_range', List.range_eq_range', Nat.mul_comm size count]
      have joined := List.range'_append_1 (s := 0) (m := count * size) (n := size)
      rwa [Nat.zero_add] at joined

theorem WorkerGeometry.Splits.flatMap_positions {geometry : WorkerGeometry} {workSize : ℕ}
    (splits : geometry.Splits workSize) :
    (List.range geometry.numChunks).flatMap (fun i => positions (geometry.preparedChunk i)) =
      List.range workSize := by
  have positive := splits.positive
  have total := splits.total
  obtain ⟨before, count⟩ : ∃ before, geometry.numChunks = before + 1 :=
    ⟨geometry.numChunks - 1, by omega⟩
  have ordinary : ∀ i ∈ List.range before, positions (geometry.preparedChunk i) =
      List.range' (geometry.ordinaryChunkSize * i) geometry.ordinaryChunkSize := by
    intro i member
    have below := List.mem_range.mp member
    rw [preparedChunk, if_neg (by omega), positions]
  have last : positions (geometry.preparedChunk before) =
      List.range' (before * geometry.ordinaryChunkSize) geometry.lastChunkSize := by
    rw [preparedChunk, if_pos (by omega), Nat.mul_comm, positions]
  rw [count, Nat.add_sub_cancel] at total
  rw [count, List.range_succ, List.flatMap_append, List.flatMap_singleton, last,
    List.flatMap_congr ordinary, flatMap_range'_mul, ← total, List.range_eq_range',
    List.range_eq_range']
  have joined := List.range'_append_1 (s := 0) (m := before * geometry.ordinaryChunkSize)
    (n := geometry.lastChunkSize)
  rwa [Nat.zero_add] at joined

theorem workChunks_eq {numCores workSize : ℕ} (cores : numCores ≠ 0) (work : workSize ≠ 0) :
    ∃ chunks, workChunks numCores workSize = some chunks ∧
      chunks.flatMap positions = List.range workSize := by
  obtain ⟨geometry, computed, _, splits⟩ := getGeometryForNumCores_splits cores work
  refine ⟨(List.range geometry.numChunks).map geometry.preparedChunk, ?_, ?_⟩
  · rw [workChunks, computed]
    apply mapM_eq_some
    intro chunkIdx member
    exact WorkerGeometry.chunk_eq (List.mem_range.mp member)
  · rw [List.flatMap_map, splits.flatMap_positions]

theorem cores_of_getGeometryForNumCores {numCores workSize : ℕ} {geometry : WorkerGeometry}
    (computed : getGeometryForNumCores numCores workSize = some geometry) : numCores ≠ 0 := by
  rw [getGeometryForNumCores] at computed
  rcases Option.bind_eq_some_iff.mp computed with ⟨_, cores, _⟩
  exact (Option.guard_eq_some' ()).mp cores

/-- With work for every core each thread finds its chunk. -/
theorem threadChunks_eq {numCores workSize : ℕ} (cores : numCores ≠ 0)
    (enough : numCores ≤ workSize) :
    ∃ chunks, threadChunks numCores workSize = some chunks ∧
      chunks.flatMap positions = List.range workSize := by
  obtain ⟨geometry, computed, count, splits⟩ :=
    getGeometryForNumCores_splits cores (show workSize ≠ 0 by omega)
  rw [Nat.min_eq_left enough] at count
  refine ⟨(List.range numCores).map geometry.preparedChunk, ?_, ?_⟩
  · rw [threadChunks, computed]
    apply mapM_eq_some
    intro chunkIdx member
    exact WorkerGeometry.chunk_eq (by rw [count]; exact List.mem_range.mp member)
  · rw [← count, List.flatMap_map, splits.flatMap_positions]

/-- With less work than cores the last thread finds no chunk. -/
theorem threadChunks_of_few {numCores workSize : ℕ} (work : workSize ≠ 0)
    (few : workSize < numCores) : threadChunks numCores workSize = none := by
  rcases getGeometryForNumCores_splits (show numCores ≠ 0 by omega) work with
    ⟨geometry, computed, count, _⟩
  rw [threadChunks, computed, Option.bind_eq_bind, Option.bind_some]
  cases all : (List.range numCores).mapM geometry.chunk with
  | none => rfl
  | some chunks =>
      have last : (List.range numCores)[numCores - 1]? = some (numCores - 1) :=
        List.getElem?_range (by omega)
      rcases NestedList.getElem?_of_mapM all last with ⟨_, _, found⟩
      rw [WorkerGeometry.chunk_none (by omega)] at found
      cases found

/-- A chunk is no larger than the work. -/
theorem chunk_le_of_flatMap {chunks : List (ℕ × ℕ)} {workSize : ℕ}
    (total : chunks.flatMap positions = List.range workSize) {chunk : ℕ × ℕ}
    (member : chunk ∈ chunks) : chunk.1 + chunk.2 ≤ workSize ∨ chunk.2 = 0 := by
  by_cases empty : chunk.2 = 0
  · exact Or.inr empty
  · left
    have last : chunk.1 + (chunk.2 - 1) ∈ chunks.flatMap positions := by
      apply List.mem_flatMap.mpr
      refine ⟨chunk, member, ?_⟩
      rw [positions, List.mem_range'_1]
      omega
    rw [total, List.mem_range] at last
    omega

end Airbender.Fft
