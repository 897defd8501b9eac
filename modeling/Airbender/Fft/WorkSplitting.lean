import Mathlib.Algebra.BigOperators.Group.List.Basic
import Airbender.Fft.Worker
import Airbender.Lib.NestedList

/-!
# Splitting work exactly

`get_geometry_for_num_cores` multiplies machine words.  The product of the rounded chunk size may
pass the largest word although the work itself is one; nothing else in the split can.
-/

namespace Airbender.Fft

open WorkerGeometry

/-- What a build does with a product past the largest word. -/
inductive OverflowChecks where
  | enabled
  | disabled
deriving DecidableEq, Repr

/-- A product of two words. -/
def mulUsize (checks : OverflowChecks) (a b : ℕ) : Option ℕ :=
  if a * b < 2 ^ 64 then
    some (a * b)
  else
    match checks with
    | .enabled => none
    | .disabled => some (a * b % 2 ^ 64)

theorem mulUsize_of_lt (checks : OverflowChecks) {a b : ℕ} (fits : a * b < 2 ^ 64) :
    mulUsize checks a b = some (a * b) :=
  if_pos fits

theorem mulUsize_enabled {a b : ℕ} (past : ¬ a * b < 2 ^ 64) : mulUsize .enabled a b = none :=
  if_neg past

theorem mulUsize_disabled {a b : ℕ} (past : ¬ a * b < 2 ^ 64) :
    mulUsize .disabled a b = some (a * b % 2 ^ 64) :=
  if_neg past

/-- `get_geometry_for_num_cores` with its products on words. -/
def getGeometryForNumCoresUsize (checks : OverflowChecks) (numCores workSize : ℕ) :
    Option WorkerGeometry := do
  guard (numCores ≠ 0)
  guard (workSize ≠ 0)
  if numCores = 1 then
    return ⟨1, workSize, 0⟩
  let numChunks := min numCores workSize
  let ordinaryChunkSize := workSize / numChunks
  let remainder := workSize % numChunks
  if remainder = 0 then
    lightenLastChunk numCores ⟨numChunks, ordinaryChunkSize, remainder⟩
  else
    guard (1 < numChunks)
    let ordinaryChunkSize := roundedChunkSize ordinaryChunkSize
    let mainPart ← mulUsize checks (numChunks - 1) ordinaryChunkSize
    if mainPart < workSize then
      lightenLastChunk numCores ⟨numChunks, ordinaryChunkSize, workSize - mainPart⟩
    else
      let ordinaryChunkSize := defaultChunkSize numChunks workSize
      let mainPart ← mulUsize checks (numChunks - 1) ordinaryChunkSize
      guard (mainPart < workSize)
      lightenLastChunk numCores ⟨numChunks, ordinaryChunkSize, workSize - mainPart⟩

namespace WorkerGeometry

/-- `get_chunk_start_pos` with its product on words. -/
def getChunkStartPosUsize (checks : OverflowChecks) (geometry : WorkerGeometry) (chunkIdx : ℕ) :
    Option ℕ :=
  if chunkIdx < geometry.numChunks then
    mulUsize checks geometry.ordinaryChunkSize chunkIdx
  else
    none

/-- Where the chunks start and how many units they have. -/
def chunksUsize (checks : OverflowChecks) (geometry : WorkerGeometry) : Option (List (ℕ × ℕ)) :=
  (List.range geometry.numChunks).mapM fun chunkIdx => do
    let chunkStart ← geometry.getChunkStartPosUsize checks chunkIdx
    let chunkSize ← geometry.getChunkSize chunkIdx
    some (chunkStart, chunkSize)

/-- The chunks are an exact partition of the work. -/
structure PartitionsExactly (checks : OverflowChecks) (geometry : WorkerGeometry)
    (numCores workSize : ℕ) (chunks : List (ℕ × ℕ)) : Prop where
  atLeastOne : 1 ≤ geometry.numChunks
  atMostCores : geometry.numChunks ≤ numCores
  computed : geometry.chunksUsize checks = some chunks
  nonEmpty : ∀ chunk ∈ chunks, 0 < chunk.2
  consecutive : chunks.IsChain fun chunk next => next.1 = chunk.1 + chunk.2
  covers : chunks.flatMap positions = List.range workSize

end WorkerGeometry

/-- The split fails no assertion and is an exact partition. -/
def SplitsExactly (checks : OverflowChecks) (numCores workSize : ℕ) : Prop :=
  ∃ geometry, getGeometryForNumCoresUsize checks numCores workSize = some geometry ∧
    ∃ chunks, geometry.PartitionsExactly checks numCores workSize chunks

/-- The work divides evenly, or rounding its average chunk up to a power of two leaves the main
part in a word.  Averages further than 31 from that power are not rounded. -/
def MainPartFits (numCores workSize : ℕ) : Prop :=
  workSize ≤ numCores ∨ numCores ∣ workSize ∨
    workSize / numCores + 32 ≤ 2 ^ Nat.clog 2 (workSize / numCores) ∨
      (numCores - 1) * 2 ^ Nat.clog 2 (workSize / numCores) < 2 ^ 64

/-! ## The sizes of the chunks -/

theorem lightenLastChunk_nonEmpty {numCores : ℕ} {result geometry : WorkerGeometry}
    (ordinary : 0 < result.ordinaryChunkSize)
    (lightened : lightenLastChunk numCores result = some geometry) :
    0 < geometry.ordinaryChunkSize ∧ 0 < geometry.lastChunkSize := by
  by_cases large : result.ordinaryChunkSize < result.remainder ∧
      numCores - 1 < result.remainder
  · rw [lightenLastChunk, if_pos large] at lightened
    have left : 0 < result.remainder - (numCores - 1) := by omega
    rcases Option.bind_eq_some_iff.mp lightened with ⟨_, _, same⟩
    cases Option.some.inj same
    refine ⟨Nat.succ_pos _, ?_⟩
    rw [lastChunkSize, if_neg (Nat.ne_of_gt left)]
    exact left
  · rw [lightenLastChunk, if_neg large] at lightened
    cases Option.some.inj lightened
    refine ⟨ordinary, ?_⟩
    rw [lastChunkSize]
    split
    · exact ordinary
    · exact Nat.pos_of_ne_zero ‹_›

/-- Lightening the last chunk keeps the number of chunks and the work. -/
theorem lightenLastChunk_total {numCores workSize : ℕ} {result geometry : WorkerGeometry}
    (count : result.numChunks = numCores)
    (total : (numCores - 1) * result.ordinaryChunkSize + result.remainder = workSize)
    (left : 0 < result.remainder)
    (lightened : lightenLastChunk numCores result = some geometry) :
    geometry.numChunks = numCores ∧
      (numCores - 1) * geometry.ordinaryChunkSize + geometry.lastChunkSize = workSize := by
  by_cases large : result.ordinaryChunkSize < result.remainder ∧
      numCores - 1 < result.remainder
  · rw [lightenLastChunk, if_pos large] at lightened
    rcases Option.bind_eq_some_iff.mp lightened with ⟨_, _, same⟩
    cases Option.some.inj same
    have moved : (numCores - 1) * (result.ordinaryChunkSize + 1) =
        (numCores - 1) * result.ordinaryChunkSize + (numCores - 1) := Nat.mul_succ _ _
    have nonzero : result.remainder - (numCores - 1) ≠ 0 := by omega
    refine ⟨count, ?_⟩
    rw [lastChunkSize, if_neg nonzero]
    change (numCores - 1) * (result.ordinaryChunkSize + 1) +
      (result.remainder - (numCores - 1)) = workSize
    omega
  · rw [lightenLastChunk, if_neg large] at lightened
    cases Option.some.inj lightened
    refine ⟨count, ?_⟩
    rw [lastChunkSize, if_neg (Nat.ne_of_gt left)]
    exact total

theorem getGeometryForNumCores_nonEmpty {numCores workSize : ℕ} {geometry : WorkerGeometry}
    (computed : getGeometryForNumCores numCores workSize = some geometry) :
    0 < geometry.ordinaryChunkSize ∧ 0 < geometry.lastChunkSize := by
  rw [getGeometryForNumCores] at computed
  rcases Option.bind_eq_some_iff.mp computed with ⟨_, cores, afterCores⟩
  rcases Option.bind_eq_some_iff.mp afterCores with ⟨_, work, afterWork⟩
  have someCores := (Option.guard_eq_some' ()).mp cores
  have someWork := (Option.guard_eq_some' ()).mp work
  clear computed afterCores cores work
  by_cases single : numCores = 1
  · rw [if_pos single] at afterWork
    cases Option.some.inj afterWork
    exact ⟨Nat.pos_of_ne_zero someWork, Nat.pos_of_ne_zero someWork⟩
  rw [if_neg single] at afterWork
  have average : 0 < workSize / min numCores workSize :=
    Nat.div_pos (Nat.min_le_right _ _) (by omega)
  dsimp only at afterWork
  by_cases even : workSize % min numCores workSize = 0
  · rw [if_pos even] at afterWork
    exact lightenLastChunk_nonEmpty average afterWork
  rw [if_neg even] at afterWork
  rcases Option.bind_eq_some_iff.mp afterWork with ⟨_, several, afterSeveral⟩
  have moreChunks := (Option.guard_eq_some' ()).mp several
  clear afterWork several
  by_cases fits : (min numCores workSize - 1) *
      roundedChunkSize (workSize / min numCores workSize) < workSize
  · rw [if_pos fits] at afterSeveral
    exact lightenLastChunk_nonEmpty (average.trans_le (le_roundedChunkSize _)) afterSeveral
  · rw [if_neg fits] at afterSeveral
    rcases Option.bind_eq_some_iff.mp afterSeveral with ⟨_, _, lightened⟩
    have atLeast := (defaultChunkSize_bounds moreChunks (Nat.min_le_right numCores workSize)).1
    exact lightenLastChunk_nonEmpty (average.trans_le atLeast) lightened

/-! ## The chunks of a geometry -/

namespace WorkerGeometry

/-- The starts of chunks that make up a word of work are words. -/
theorem chunksUsize_eq (checks : OverflowChecks) {geometry : WorkerGeometry} {workSize : ℕ}
    (splits : geometry.Splits workSize) (word : workSize < 2 ^ 64) :
    geometry.chunksUsize checks =
      some ((List.range geometry.numChunks).map geometry.preparedChunk) := by
  apply mapM_eq_some
  intro chunkIdx member
  have prepared := List.mem_range.mp member
  have before : geometry.ordinaryChunkSize * chunkIdx ≤
      (geometry.numChunks - 1) * geometry.ordinaryChunkSize := by
    rw [Nat.mul_comm]
    exact Nat.mul_le_mul_right _ (by omega)
  have total := splits.total
  rw [getChunkStartPosUsize, if_pos prepared, mulUsize_of_lt checks (by omega),
    getChunkSize_eq prepared]
  rfl

theorem length_flatMap_positions (chunks : List (ℕ × ℕ)) :
    (chunks.flatMap positions).length = (chunks.map Prod.snd).sum := by
  have lengths : (fun chunk : ℕ × ℕ => (positions chunk).length) = Prod.snd := by
    funext chunk
    exact List.length_range'
  rw [List.length_flatMap, lengths]

/-- Wherever they start, the chunks have as many units as the geometry. -/
theorem length_of_chunksUsize {checks : OverflowChecks} {geometry : WorkerGeometry} {workSize : ℕ}
    {chunks : List (ℕ × ℕ)} (splits : geometry.Splits workSize)
    (computed : geometry.chunksUsize checks = some chunks) :
    (chunks.flatMap positions).length = workSize := by
  have sizes : chunks.map Prod.snd =
      (List.range geometry.numChunks).map fun chunkIdx => (geometry.preparedChunk chunkIdx).2 := by
    apply NestedList.map_of_mapM computed
    intro chunkIdx chunk each
    rcases Option.bind_eq_some_iff.mp each with ⟨chunkStart, started, sized⟩
    rcases Option.bind_eq_some_iff.mp sized with ⟨chunkSize, size, same⟩
    have prepared : chunkIdx < geometry.numChunks := by
      by_contra outside
      rw [getChunkStartPosUsize, if_neg outside] at started
      cases started
    rw [getChunkSize_eq prepared] at size
    cases Option.some.inj same
    exact (Option.some.inj size).symm
  have whole := congrArg List.length splits.flatMap_positions
  rw [← List.flatMap_map, length_flatMap_positions, List.map_map, List.length_range] at whole
  rw [length_flatMap_positions, sizes]
  exact whole

/-- A geometry that makes up a word of work, with units in every chunk, is an exact partition. -/
theorem partitionsExactly (checks : OverflowChecks) {geometry : WorkerGeometry}
    {numCores workSize : ℕ} (splits : geometry.Splits workSize) (word : workSize < 2 ^ 64)
    (atMostCores : geometry.numChunks ≤ numCores) (ordinary : 0 < geometry.ordinaryChunkSize)
    (last : 0 < geometry.lastChunkSize) :
    geometry.PartitionsExactly checks numCores workSize
      ((List.range geometry.numChunks).map geometry.preparedChunk) where
  atLeastOne := splits.positive
  atMostCores := atMostCores
  computed := chunksUsize_eq checks splits word
  nonEmpty := by
    intro chunk member
    rcases List.mem_map.mp member with ⟨chunkIdx, _, rfl⟩
    rw [preparedChunk]
    split
    · exact last
    · exact ordinary
  consecutive := by
    rw [List.isChain_map]
    apply (List.isChain_range _ _).mpr
    intro chunkIdx below
    have inner : chunkIdx ≠ geometry.numChunks - 1 := by omega
    rw [preparedChunk, preparedChunk, if_neg inner]
    exact Nat.mul_succ _ _
  covers := by rw [List.flatMap_map, splits.flatMap_positions]

end WorkerGeometry

/-! ## When the main part is a word -/

theorem roundedChunkSize_of_near {size : ℕ} (near : 2 ^ Nat.clog 2 size < size + 32) :
    roundedChunkSize size = 2 ^ Nat.clog 2 size := by
  rw [roundedChunkSize]
  by_cases power : Usize.isPowerOfTwo size = true
  · have same : size = 2 ^ size.log2 := beq_iff_eq.mp power
    have logs : Nat.clog 2 size = size.log2 := by
      conv_lhs => rw [same]
      exact Nat.clog_pow 2 size.log2 Nat.one_lt_two
    rw [logs, ← same, ite_self]
  · have rest : 2 ^ Nat.clog 2 size - size < 32 := by
      have above := Nat.le_pow_clog Nat.one_lt_two size
      omega
    rw [if_pos ⟨Bool.eq_false_iff.mpr power, rest⟩]

theorem roundedChunkSize_of_far {size : ℕ} (far : size + 32 ≤ 2 ^ Nat.clog 2 size) :
    roundedChunkSize size = size := by
  rw [roundedChunkSize, if_neg]
  rintro ⟨_, near⟩
  omega

/-- Rounding does not double a chunk. -/
theorem roundedChunkSize_lt_double {size : ℕ} (positive : 0 < size) :
    roundedChunkSize size < 2 * size := by
  by_cases near : 2 ^ Nat.clog 2 size < size + 32
  · rw [roundedChunkSize_of_near near]
    by_cases one : size = 1
    · rw [one, Nat.clog_one_right]
      decide
    · have below := Nat.pow_pred_clog_lt_self Nat.one_lt_two (show 1 < size by omega)
      have exponent := Nat.clog_pos Nat.one_lt_two (show 1 < size by omega)
      have doubled : 2 ^ Nat.clog 2 size = 2 ^ (Nat.clog 2 size).pred * 2 := by
        rw [← Nat.pow_succ, Nat.succ_pred_eq_of_pos exponent]
      omega
  · rw [roundedChunkSize_of_far (by omega)]
    omega

/-- The main part is less than two times the work. -/
theorem mainPart_lt_double {numChunks workSize : ℕ} (positive : 0 < numChunks)
    (enough : numChunks ≤ workSize) :
    (numChunks - 1) * roundedChunkSize (workSize / numChunks) < 2 * workSize := by
  have average := Nat.div_pos enough positive
  calc (numChunks - 1) * roundedChunkSize (workSize / numChunks)
      ≤ (numChunks - 1) * (2 * (workSize / numChunks)) :=
        Nat.mul_le_mul_left _ (Nat.le_of_lt (roundedChunkSize_lt_double average))
    _ < numChunks * (2 * (workSize / numChunks)) :=
        Nat.mul_lt_mul_of_pos_right (by omega) (by omega)
    _ = 2 * (numChunks * (workSize / numChunks)) := by ring
    _ ≤ 2 * workSize := Nat.mul_le_mul_left 2 (Nat.mul_div_le workSize numChunks)

/-- The condition on the inputs is a condition on the product. -/
theorem mainPartFits_iff {numCores workSize : ℕ} (cores : 0 < numCores)
    (word : workSize < 2 ^ 64) :
    MainPartFits numCores workSize ↔ workSize % min numCores workSize = 0 ∨
      (min numCores workSize - 1) * roundedChunkSize (workSize / min numCores workSize) <
        2 ^ 64 := by
  by_cases few : workSize ≤ numCores
  · rw [Nat.min_eq_right few, Nat.mod_self]
    exact ⟨fun _ => Or.inl rfl, fun _ => Or.inl few⟩
  rw [Nat.min_eq_left (by omega), MainPartFits]
  by_cases near : 2 ^ Nat.clog 2 (workSize / numCores) < workSize / numCores + 32
  · rw [roundedChunkSize_of_near near]
    constructor
    · rintro (more | divides | far | fits)
      · exact absurd more few
      · exact Or.inl (Nat.mod_eq_zero_of_dvd divides)
      · omega
      · exact Or.inr fits
    · rintro (even | fits)
      · exact Or.inr (Or.inl (Nat.dvd_of_mod_eq_zero even))
      · exact Or.inr (Or.inr (Or.inr fits))
  · have far : workSize / numCores + 32 ≤ 2 ^ Nat.clog 2 (workSize / numCores) := by omega
    have fits : (numCores - 1) * (workSize / numCores) ≤ workSize :=
      (Nat.mul_le_mul_right _ (Nat.sub_le numCores 1)).trans (Nat.mul_div_le workSize numCores)
    rw [roundedChunkSize_of_far far]
    exact ⟨fun _ => Or.inr (by omega), fun _ => Or.inr (Or.inr (Or.inl far))⟩

/-- Work up to half of the words is always split exactly. -/
theorem mainPartFits_of_le {numCores workSize : ℕ} (cores : 0 < numCores) (work : 0 < workSize)
    (half : workSize ≤ 2 ^ 63) : MainPartFits numCores workSize := by
  have double := mainPart_lt_double (show 0 < min numCores workSize by omega)
    (Nat.min_le_right numCores workSize)
  exact (mainPartFits_iff cores (by omega)).mpr (Or.inr (by omega))

/-- `MAX_WORKER_SIZE`: a `Worker` has no more threads. -/
def maxWorkerSize : ℕ := 192

/-- So few cores leave room for what rounding adds. -/
theorem mainPartFits_of_le_maxWorkerSize {numCores workSize : ℕ} (cores : 0 < numCores)
    (few : numCores ≤ maxWorkerSize) (word : workSize < 2 ^ 64) :
    MainPartFits numCores workSize := by
  by_cases near : 2 ^ Nat.clog 2 (workSize / numCores) < workSize / numCores + 32
  · refine Or.inr (Or.inr (Or.inr ?_))
    have others : numCores - 1 ≤ 191 := Nat.sub_le_sub_right few 1
    have average := Nat.mul_div_le workSize numCores
    have split : numCores * (workSize / numCores) =
        (numCores - 1) * (workSize / numCores) + workSize / numCores := by
      rw [← Nat.succ_mul, Nat.succ_eq_add_one, Nat.sub_add_cancel cores]
    by_cases large : 191 * 31 ≤ workSize / numCores
    · have rounded : 2 ^ Nat.clog 2 (workSize / numCores) ≤ workSize / numCores + 31 := by
        omega
      have product := Nat.mul_le_mul_left (numCores - 1) rounded
      rw [Nat.mul_add] at product
      have added := Nat.mul_le_mul_right 31 others
      omega
    · have rounded : 2 ^ Nat.clog 2 (workSize / numCores) ≤ 191 * 31 + 31 := by
        omega
      have product := Nat.mul_le_mul others rounded
      omega
  · exact Or.inr (Or.inr (Or.inl (by omega)))

/-- When the main part is a word, the products are the exact ones. -/
theorem getGeometryForNumCoresUsize_eq (checks : OverflowChecks) {numCores workSize : ℕ}
    (cores : 0 < numCores) (word : workSize < 2 ^ 64) (fits : MainPartFits numCores workSize) :
    getGeometryForNumCoresUsize checks numCores workSize =
      getGeometryForNumCores numCores workSize := by
  rw [getGeometryForNumCoresUsize, getGeometryForNumCores]
  refine congrArg _ (funext fun _ => congrArg _ (funext fun _ => ?_))
  by_cases single : numCores = 1
  · rw [if_pos single, if_pos single]
  rw [if_neg single, if_neg single]
  dsimp only
  by_cases even : workSize % min numCores workSize = 0
  · rw [if_pos even, if_pos even]
  rw [if_neg even, if_neg even]
  have product := ((mainPartFits_iff cores word).mp fits).resolve_left even
  by_cases several : 1 < min numCores workSize
  · have default := (defaultChunkSize_bounds several (Nat.min_le_right numCores workSize)).2
    rw [mulUsize_of_lt checks product, mulUsize_of_lt checks (default.trans word)]
    rfl
  · rw [guard, if_neg several]
    rfl

/-! ## Exact partitions -/

theorem splitsExactly_of_fits (checks : OverflowChecks) {numCores workSize : ℕ}
    (cores : 0 < numCores) (work : 0 < workSize) (word : workSize < 2 ^ 64)
    (fits : MainPartFits numCores workSize) : SplitsExactly checks numCores workSize := by
  rcases getGeometryForNumCores_splits (Nat.ne_of_gt cores) (Nat.ne_of_gt work) with
    ⟨geometry, computed, count, splits⟩
  rcases getGeometryForNumCores_nonEmpty computed with ⟨ordinary, last⟩
  refine ⟨geometry, ?_, _, partitionsExactly checks splits word ?_ ordinary last⟩
  · rw [getGeometryForNumCoresUsize_eq checks cores word fits]
    exact computed
  · rw [count]
    exact Nat.min_le_left numCores workSize

/-- Without checks the wrapped main part leaves too much for the last chunk: the chunks have
`2^64` units more than the work. -/
theorem not_splitsExactly_of_overflow (checks : OverflowChecks) {numCores workSize : ℕ}
    (several : 1 < numCores) (enough : numCores ≤ workSize) (word : workSize < 2 ^ 64)
    (uneven : workSize % numCores ≠ 0)
    (overflow : 2 ^ 64 ≤ (numCores - 1) * roundedChunkSize (workSize / numCores)) :
    ¬ SplitsExactly checks numCores workSize := by
  rintro ⟨geometry, computed, chunks, exact⟩
  have single : numCores ≠ 1 := by omega
  have product : ¬ (numCores - 1) * roundedChunkSize (workSize / numCores) < 2 ^ 64 := by omega
  rw [getGeometryForNumCoresUsize, guard_of (show numCores ≠ 0 by omega),
    guard_of (show workSize ≠ 0 by omega)] at computed
  simp only [Option.bind_eq_bind, Option.bind_some] at computed
  rw [if_neg single, Nat.min_eq_left enough, if_neg uneven, guard_of several,
    Option.bind_some] at computed
  cases checks with
  | enabled =>
      rw [mulUsize_enabled product] at computed
      cases computed
  | disabled =>
      have double := mainPart_lt_double (Nat.zero_lt_of_lt several) enough
      have wrapped : (numCores - 1) * roundedChunkSize (workSize / numCores) % 2 ^ 64 =
          (numCores - 1) * roundedChunkSize (workSize / numCores) - 2 ^ 64 := by
        rw [Nat.mod_eq_sub_mod overflow, Nat.mod_eq_of_lt (by omega)]
      have below : (numCores - 1) * roundedChunkSize (workSize / numCores) - 2 ^ 64 <
          workSize := by omega
      rw [mulUsize_disabled product, Option.bind_some, wrapped, if_pos below] at computed
      have total : geometry.numChunks = numCores ∧
          (numCores - 1) * geometry.ordinaryChunkSize + geometry.lastChunkSize =
            workSize + 2 ^ 64 :=
        lightenLastChunk_total rfl (by dsimp only; omega) (by dsimp only; omega) computed
      have splits : geometry.Splits (workSize + 2 ^ 64) := by
        refine ⟨exact.atLeastOne, ?_⟩
        rw [total.1]
        exact total.2
      have units := length_of_chunksUsize splits exact.computed
      rw [exact.covers, List.length_range] at units
      omega

/-- The split of a word of work is an exact partition exactly when the main part is a word too. -/
theorem splitsExactly_iff_mainPartFits (checks : OverflowChecks) {numCores workSize : ℕ}
    (cores : 1 ≤ numCores) (work : 1 ≤ workSize) (word : workSize < 2 ^ 64) :
    SplitsExactly checks numCores workSize ↔ MainPartFits numCores workSize := by
  constructor
  · intro split
    by_contra unfit
    have product := (mainPartFits_iff cores word).not.mp unfit
    rw [not_or, Nat.not_lt] at product
    rcases product with ⟨uneven, overflow⟩
    have several : min numCores workSize ≠ 1 := by
      intro single
      rw [single, Nat.mod_one] at uneven
      exact uneven rfl
    have enough : numCores ≤ workSize := by
      by_contra few
      rw [Nat.min_eq_right (by omega), Nat.mod_self] at uneven
      exact uneven rfl
    rw [Nat.min_eq_left enough] at uneven overflow several
    exact not_splitsExactly_of_overflow checks (by omega) enough word uneven overflow split
  · exact splitsExactly_of_fits checks cores work word

/-- Sixteen units between three cores. -/
theorem splitsExactly_iff_mainPartFits_three_sixteen :
    SplitsExactly .enabled 3 16 ↔ MainPartFits 3 16 :=
  splitsExactly_iff_mainPartFits .enabled (by decide) (by decide) (by decide)

/-- The threads of a `Worker` split every word of work exactly. -/
theorem splitsExactly_of_le_maxWorkerSize (checks : OverflowChecks) {numCores workSize : ℕ}
    (cores : 1 ≤ numCores) (few : numCores ≤ maxWorkerSize) (work : 1 ≤ workSize)
    (word : workSize < 2 ^ 64) : SplitsExactly checks numCores workSize :=
  splitsExactly_of_fits checks cores work word (mainPartFits_of_le_maxWorkerSize cores few word)

/-- An average of `2^32 - 31` is rounded, and `2^32 + 14` chunks of `2^32` units are more than a
word. -/
theorem not_splitsExactly_past_word (checks : OverflowChecks) :
    ¬ SplitsExactly checks 4294967311 18446744004990074416 := by
  have average : 18446744004990074416 / 4294967311 = 4294967265 := by norm_num
  have exponent : Nat.clog 2 4294967265 = 32 := by
    apply Nat.le_antisymm
    · exact Nat.clog_le_of_le_pow (by norm_num)
    · exact (Nat.lt_clog_iff_pow_lt Nat.one_lt_two).mpr (by norm_num)
  have rounded : roundedChunkSize 4294967265 = 2 ^ 32 := by
    rw [roundedChunkSize_of_near (by rw [exponent]; norm_num), exponent]
  apply not_splitsExactly_of_overflow checks (by norm_num) (by norm_num) (by norm_num)
  · norm_num
  · rw [average, rounded]
    norm_num

theorem not_splitsExactly_of_rounding_past_word :
    ¬SplitsExactly .enabled 4294967311 18446744004990074416 ∧
      ¬SplitsExactly .disabled 4294967311 18446744004990074416 :=
  ⟨not_splitsExactly_past_word .enabled, not_splitsExactly_past_word .disabled⟩

end Airbender.Fft
