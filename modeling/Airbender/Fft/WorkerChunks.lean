import Airbender.Fft.Worker
import Airbender.Lib.Iteration

/-!
# The chunks of a slice

The iterators of the worker over the chunks of a slice, from the front and from the back.
-/

namespace Airbender.Fft

open Iteration WorkerGeometry

variable {α : Type}

/-- `split_at`, which panics behind the end of the slice. -/
def splitAt (slice : List α) (mid : ℕ) : Option (List α × List α) :=
  if mid ≤ slice.length then some (slice.take mid, slice.drop mid) else none

/-! ## From the front -/

structure GeometryAwareChunks (α : Type) where
  v : List α
  geometry : WorkerGeometry
  scale : ℕ
  curIdx : ℕ

namespace GeometryAwareChunks

def new (slice : List α) (geometry : WorkerGeometry) (scale : ℕ) : GeometryAwareChunks α :=
  ⟨slice, geometry, scale, 0⟩

def getCurChunkSize (chunks : GeometryAwareChunks α) : Option ℕ := do
  let chunkSize ← chunks.geometry.getChunkSize chunks.curIdx
  return chunkSize * chunks.scale

def next (chunks : GeometryAwareChunks α) :
    Option (Option (List α × GeometryAwareChunks α)) :=
  if chunks.v.isEmpty then
    some none
  else do
    let chunksz ← chunks.getCurChunkSize
    let (fst, snd) ← splitAt chunks.v chunksz
    return some (fst, { chunks with v := snd, curIdx := chunks.curIdx + 1 })

end GeometryAwareChunks

def chunksForGeometry (slice : List α) (geometry : WorkerGeometry) : GeometryAwareChunks α :=
  GeometryAwareChunks.new slice geometry 1

/-! ## From the back -/

structure GeometryAwareChunksRev (α : Type) where
  v : List α
  geometry : WorkerGeometry
  scale : ℕ
  curIdx : ℕ

namespace GeometryAwareChunksRev

/-- The index starts from the length of the slice, of which an empty one is a panic. -/
def new (slice : List α) (geometry : WorkerGeometry) (scale : ℕ) :
    Option (GeometryAwareChunksRev α) := do
  guard (1 ≤ slice.length)
  return ⟨slice, geometry, scale, slice.length - 1⟩

def getCurChunkSize (chunks : GeometryAwareChunksRev α) : Option ℕ := do
  let chunkSize ← chunks.geometry.getChunkSize chunks.curIdx
  return chunkSize * chunks.scale

def next (chunks : GeometryAwareChunksRev α) :
    Option (Option (List α × GeometryAwareChunksRev α)) :=
  if chunks.v.isEmpty then
    some none
  else do
    let chunksz ← chunks.getCurChunkSize
    guard (chunksz ≤ chunks.v.length)
    let (fst, snd) ← splitAt chunks.v (chunks.v.length - chunksz)
    return some (snd, { chunks with v := fst, curIdx := chunks.curIdx + 1 })

end GeometryAwareChunksRev

def chunksForGeometryRev (slice : List α) (geometry : WorkerGeometry) :
    Option (GeometryAwareChunksRev α) :=
  GeometryAwareChunksRev.new slice geometry 1

/-- The iterator from the back gives the chunks of the one from the front in reverse order. -/
def RevMatches (slice : List α) (geometry : WorkerGeometry) : Prop :=
  ∃ chunks start, Yields GeometryAwareChunks.next (chunksForGeometry slice geometry) chunks ∧
    chunksForGeometryRev slice geometry = some start ∧
      Yields GeometryAwareChunksRev.next start chunks.reverse

/-! ## The prepared chunks -/

/-- The part of a slice in a chunk. -/
def chunkOf (slice : List α) (chunk : ℕ × ℕ) : List α := (slice.drop chunk.1).take chunk.2

/-- Where a chunk starts, or the end of the work behind the last one. -/
def boundary (geometry : WorkerGeometry) (workSize chunkIdx : ℕ) : ℕ :=
  if chunkIdx < geometry.numChunks then geometry.ordinaryChunkSize * chunkIdx else workSize

section Boundaries

variable {geometry : WorkerGeometry} {workSize chunkIdx : ℕ} (splits : geometry.Splits workSize)

include splits

theorem boundary_succ (prepared : chunkIdx < geometry.numChunks) :
    (geometry.preparedChunk chunkIdx).1 + (geometry.preparedChunk chunkIdx).2 =
      boundary geometry workSize (chunkIdx + 1) := by
  by_cases last : chunkIdx = geometry.numChunks - 1
  · rw [preparedChunk, if_pos last, boundary, if_neg (by omega), last, Nat.mul_comm]
    exact splits.total
  · rw [preparedChunk, if_neg last, boundary, if_pos (by omega), Nat.mul_succ]

/-- The last chunk has work. -/
theorem lastChunkSize_pos (work : workSize ≠ 0) : 0 < geometry.lastChunkSize := by
  have total := splits.total
  by_contra none
  have zero : geometry.lastChunkSize = 0 := Nat.eq_zero_of_not_pos none
  have ordinary : geometry.ordinaryChunkSize = 0 := by
    rw [lastChunkSize] at zero
    split at zero
    · exact zero
    · contradiction
  rw [zero, ordinary] at total
  omega

theorem boundary_lt (work : workSize ≠ 0) (prepared : chunkIdx < geometry.numChunks) :
    boundary geometry workSize chunkIdx < workSize := by
  have total := splits.total
  have positive := lastChunkSize_pos splits work
  have before : geometry.ordinaryChunkSize * chunkIdx ≤
      geometry.ordinaryChunkSize * (geometry.numChunks - 1) :=
    Nat.mul_le_mul_left _ (by omega)
  rw [Nat.mul_comm _ (geometry.numChunks - 1)] at before
  rw [boundary, if_pos prepared]
  omega

theorem boundary_le (work : workSize ≠ 0) : boundary geometry workSize chunkIdx ≤ workSize := by
  by_cases prepared : chunkIdx < geometry.numChunks
  · exact (boundary_lt splits work prepared).le
  · rw [boundary, if_neg prepared]

end Boundaries

theorem splitAt_eq {slice : List α} {mid : ℕ} (inside : mid ≤ slice.length) :
    splitAt slice mid = some (slice.take mid, slice.drop mid) :=
  if_pos inside

section Forward

variable {slice : List α} {geometry : WorkerGeometry} (splits : geometry.Splits slice.length)
  (work : slice.length ≠ 0)

include splits work

theorem next_eq {chunkIdx : ℕ} (prepared : chunkIdx < geometry.numChunks) :
    GeometryAwareChunks.next
        ⟨slice.drop (boundary geometry slice.length chunkIdx), geometry, 1, chunkIdx⟩ =
      some (some (chunkOf slice (geometry.preparedChunk chunkIdx),
        ⟨slice.drop (boundary geometry slice.length (chunkIdx + 1)), geometry, 1, chunkIdx + 1⟩)) := by
  have start := boundary_lt splits work prepared
  have stop : boundary geometry slice.length (chunkIdx + 1) ≤ slice.length :=
    boundary_le splits work
  have next := boundary_succ splits prepared
  have first : boundary geometry slice.length chunkIdx = (geometry.preparedChunk chunkIdx).1 :=
    if_pos prepared
  rw [first] at start
  have left : (slice.drop (geometry.preparedChunk chunkIdx).1).length =
      slice.length - (geometry.preparedChunk chunkIdx).1 := List.length_drop
  have nonempty : (slice.drop (geometry.preparedChunk chunkIdx).1).isEmpty = false :=
    List.isEmpty_eq_false_iff.mpr (List.ne_nil_of_length_pos (by omega))
  have inside : (geometry.preparedChunk chunkIdx).2 ≤
      (slice.drop (geometry.preparedChunk chunkIdx).1).length := by omega
  rw [first, GeometryAwareChunks.next, nonempty, if_neg Bool.false_ne_true,
    GeometryAwareChunks.getCurChunkSize, getChunkSize_eq prepared]
  simp only [Option.bind_eq_bind, Option.bind_some, Option.pure_def, Nat.mul_one,
    splitAt_eq inside, List.drop_drop, ← next, chunkOf]

/-- The iterator from the front gives all chunks. -/
theorem chunksForGeometry_yields :
    Yields GeometryAwareChunks.next (chunksForGeometry slice geometry)
      ((List.range geometry.numChunks).map fun i => chunkOf slice (geometry.preparedChunk i)) := by
  have suffixes : ∀ count chunkIdx, chunkIdx + count = geometry.numChunks →
      Yields GeometryAwareChunks.next
        ⟨slice.drop (boundary geometry slice.length chunkIdx), geometry, 1, chunkIdx⟩
        ((List.range' chunkIdx count).map fun i => chunkOf slice (geometry.preparedChunk i)) := by
    intro count
    induction count with
    | zero =>
        intro chunkIdx all
        apply Yields.finished
        have behind : boundary geometry slice.length chunkIdx = slice.length :=
          if_neg (by omega)
        rw [behind, List.drop_length]
        rfl
    | succ count inductionHypothesis =>
        intro chunkIdx all
        rw [List.range'_succ, List.map_cons]
        exact Yields.item (next_eq splits work (by omega))
          (inductionHypothesis (chunkIdx + 1) (by omega))
  have start : boundary geometry slice.length 0 = 0 := by
    rw [boundary, if_pos splits.positive, Nat.mul_zero]
  have whole := suffixes geometry.numChunks 0 (Nat.zero_add _)
  rw [start, List.drop_zero, ← List.range_eq_range'] at whole
  exact whole

end Forward

/-! ## When both directions agree -/

/-- As many chunks as units of work have one unit each. -/
theorem getGeometryForNumCores_units {numCores workSize : ℕ} {geometry : WorkerGeometry}
    (computed : getGeometryForNumCores numCores workSize = some geometry)
    (units : min numCores workSize = workSize) : geometry = ⟨workSize, 1, 0⟩ := by
  rcases Option.bind_eq_some_iff.mp computed with ⟨_, cores, afterCores⟩
  rcases Option.bind_eq_some_iff.mp afterCores with ⟨_, work, split⟩
  have nonzero := (Option.guard_eq_some' ()).mp cores
  have positive := (Option.guard_eq_some' ()).mp work
  by_cases single : numCores = 1
  · have one : workSize = 1 := by omega
    rw [if_pos single, one] at split
    cases split
    rw [one]
  · have quotient : workSize / workSize = 1 := Nat.div_self (Nat.pos_of_ne_zero positive)
    simp only [if_neg single, units, Nat.mod_self, if_true, quotient, lightenLastChunk,
      Nat.not_lt_zero, false_and, if_false] at split
    cases split
    rfl

theorem chunksForGeometryRev_eq {slice : List α} (geometry : WorkerGeometry)
    (work : slice.length ≠ 0) :
    chunksForGeometryRev slice geometry = some ⟨slice, geometry, 1, slice.length - 1⟩ := by
  have nonempty : 1 ≤ slice.length := Nat.pos_of_ne_zero work
  rw [chunksForGeometryRev, GeometryAwareChunksRev.new, guard_of nonempty]
  rfl

/-- A call from the back. -/
theorem nextRev_eq {v : List α} {geometry : WorkerGeometry} {curIdx chunksz : ℕ}
    (nonempty : v ≠ []) (size : geometry.getChunkSize curIdx = some chunksz)
    (inside : chunksz ≤ v.length) :
    GeometryAwareChunksRev.next ⟨v, geometry, 1, curIdx⟩ =
      some (some (v.drop (v.length - chunksz),
        ⟨v.take (v.length - chunksz), geometry, 1, curIdx + 1⟩)) := by
  have tested : v.isEmpty = false := List.isEmpty_eq_false_iff.mpr nonempty
  rw [GeometryAwareChunksRev.next, tested, if_neg Bool.false_ne_true,
    GeometryAwareChunksRev.getCurChunkSize, size]
  simp only [Option.bind_eq_bind, Option.bind_some, Option.pure_def, Nat.mul_one,
    guard_of inside, splitAt_eq (Nat.sub_le v.length chunksz)]

theorem nextRev_panics {v : List α} {geometry : WorkerGeometry} {curIdx : ℕ} (nonempty : v ≠ [])
    (unprepared : geometry.numChunks ≤ curIdx) :
    GeometryAwareChunksRev.next ⟨v, geometry, 1, curIdx⟩ = none := by
  have tested : v.isEmpty = false := List.isEmpty_eq_false_iff.mpr nonempty
  have size : geometry.getChunkSize curIdx = none := if_neg (Nat.not_lt.mpr unprepared)
  rw [GeometryAwareChunksRev.next, tested, if_neg Bool.false_ne_true,
    GeometryAwareChunksRev.getCurChunkSize, size]
  rfl

/-- A slice of one element is one chunk in both directions. -/
theorem revMatches_single {slice : List α} {geometry : WorkerGeometry}
    (splits : geometry.Splits slice.length) (chunks : geometry.numChunks = 1)
    (single : slice.length = 1) : RevMatches slice geometry := by
  have work : slice.length ≠ 0 := by omega
  have total := splits.total
  have prepared : geometry.preparedChunk 0 = (0, slice.length) := by
    rw [chunks, Nat.sub_self, Nat.zero_mul, Nat.zero_add] at total
    rw [preparedChunk, if_pos (by omega), Nat.mul_zero, total]
  have forward := chunksForGeometry_yields splits work
  have whole : chunkOf slice (0, slice.length) = slice := by
    rw [chunkOf, List.drop_zero, List.take_length]
  rw [chunks, List.range_one, List.map_singleton, prepared, whole] at forward
  have size : geometry.getChunkSize (slice.length - 1) = some slice.length := by
    rw [single, Nat.sub_self, getChunkSize_eq splits.positive, prepared, single]
  have called := nextRev_eq (List.ne_nil_of_length_pos (by omega)) size (Nat.le_refl _)
  rw [Nat.sub_self, List.drop_zero, List.take_zero] at called
  refine ⟨[slice], _, forward, chunksForGeometryRev_eq geometry work, ?_⟩
  rw [List.reverse_singleton]
  exact Yields.item called (Yields.finished rfl)

theorem length_of_revMatches {numCores : ℕ} {slice : List α} {geometry : WorkerGeometry}
    (computed : getGeometryForNumCores numCores slice.length = some geometry)
    (count : geometry.numChunks = min numCores slice.length) (work : slice.length ≠ 0)
    (same : RevMatches slice geometry) : slice.length = 1 := by
  rcases same with ⟨chunks, start, _, started, yields⟩
  have nonempty : slice ≠ [] := List.ne_nil_of_length_pos (Nat.pos_of_ne_zero work)
  rw [chunksForGeometryRev_eq geometry work] at started
  cases started
  by_contra several
  by_cases few : geometry.numChunks ≤ slice.length - 1
  · -- the first call asks for the chunk of the last element
    exact not_yields_of_panic (nextRev_panics nonempty few) yields
  · -- the second call asks for one more
    have units := getGeometryForNumCores_units computed (by omega)
    have size : geometry.getChunkSize (slice.length - 1) = some 1 := by
      rw [units, getChunkSize, if_pos (show slice.length - 1 < slice.length by omega), if_pos rfl]
    rcases yields.rest (nextRev_eq nonempty size (by omega)) with ⟨later, _, continued⟩
    have rest : slice.take (slice.length - 1) ≠ [] := by
      apply List.ne_nil_of_length_pos
      rw [List.length_take]
      omega
    exact not_yields_of_panic (nextRev_panics rest (by omega)) continued

/-- From the back the iterator works for single elements only: it starts from an index that belongs
to the elements of the slice, not to its chunks, and goes away from the others. -/
theorem revMatches_iff {numCores : ℕ} {slice : List α} {geometry : WorkerGeometry}
    (computed : getGeometryForNumCores numCores slice.length = some geometry) :
    RevMatches slice geometry ↔ slice.length = 1 := by
  have cores := cores_of_getGeometryForNumCores computed
  rcases Option.bind_eq_some_iff.mp computed with ⟨_, _, afterCores⟩
  rcases Option.bind_eq_some_iff.mp afterCores with ⟨_, guarded, _⟩
  have work := (Option.guard_eq_some' ()).mp guarded
  rcases getGeometryForNumCores_splits cores work with ⟨other, same, count, splits⟩
  rw [computed] at same
  cases same
  constructor
  · exact length_of_revMatches computed count work
  · intro single
    exact revMatches_single splits (by omega) single

theorem revMatches_iff_two :
    getGeometryForNumCores 1 [0, 1].length = some ⟨1, 2, 0⟩ ∧
      (RevMatches [0, 1] ⟨1, 2, 0⟩ ↔ [0, 1].length = 1) := by
  have computed : getGeometryForNumCores 1 [0, 1].length = some ⟨1, 2, 0⟩ := rfl
  exact ⟨computed, revMatches_iff computed⟩

/-- Two elements and one core: one chunk from the front, a panic from the back. -/
theorem chunksForGeometryRev_panics :
    getGeometryForNumCores 1 2 = some ⟨1, 2, 0⟩ ∧
      Yields GeometryAwareChunks.next (chunksForGeometry [0, 1] ⟨1, 2, 0⟩) [[0, 1]] ∧
      (chunksForGeometryRev [0, 1] ⟨1, 2, 0⟩).bind GeometryAwareChunksRev.next = none ∧
        ¬RevMatches [0, 1] ⟨1, 2, 0⟩ := by
  refine ⟨rfl, Yields.item rfl (Yields.finished rfl), rfl, ?_⟩
  rintro ⟨chunks, start, _, started, yields⟩
  cases started
  exact not_yields_of_panic rfl yields

end Airbender.Fft
