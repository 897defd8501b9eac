import Airbender.Fft.RowMajor
import Airbender.Lib.Barriers
import Airbender.Lib.NestedList

/-!
# The threads of the transforms over whole rows

Every thread works out its own share of a stage and then waits for the others.  A thread that asks
for a chunk that was not prepared panics before the barrier.
-/

namespace Airbender.Fft

/-- `parallel_row_major_full_line_partial_ifft`, `parallel_row_major_full_line_fft_dit` and
`parallel_row_major_full_line_fft_dif`. -/
inductive FullLineTransform where
  | partialIfft
  | fftDit
  | fftDif
deriving DecidableEq, Repr

/-- The chunk that a thread asks for. -/
def threadChunk (numCores workSize threadIdx : ℕ) : Option (ℕ × ℕ) := do
  let geometry ← getGeometryForNumCores numCores workSize
  geometry.chunk threadIdx

/-- The number of problems and their size at a stage. -/
def stageSizes (traceLen : ℕ) : ℕ → ℕ × ℕ
  | 0 => (1, traceLen)
  | stageIdx + 1 =>
      let (numProblems, problemSize) := stageSizes traceLen stageIdx
      (numProblems * 2, problemSize / 2)

/-- The pairs of a problem and a position in it that one thread works on in a stage. -/
def threadPlaces (transform : FullLineTransform) (numCores numStages stageIdx numProblems
    halfProblemSize threadIdx : ℕ) : Option (List (ℕ × ℕ)) :=
  if stageIdx = 0 then do
    guard (numCores ≤ halfProblemSize)
    let chunk ← threadChunk numCores halfProblemSize threadIdx
    return List.range numProblems ×ˢ positions chunk
  else if transform = .fftDif ∧ stageIdx = numStages - 1 then do
    -- the last stage has problems of two rows
    let chunk ← threadChunk numCores numProblems threadIdx
    return positions chunk ×ˢ [0]
  else if numCores ≤ halfProblemSize then do
    let chunk ← threadChunk numCores halfProblemSize threadIdx
    return List.range numProblems ×ˢ positions chunk
  else do
    let chunk ← threadChunk numCores numProblems threadIdx
    return positions chunk ×ˢ List.range halfProblemSize

/-- The share of a thread in a stage of a transform of `2^n` rows. -/
def shareOf (transform : FullLineTransform) (numCores n stageIdx threadIdx : ℕ) :
    Option (List (ℕ × ℕ)) :=
  let (numProblems, problemSize) := stageSizes (2 ^ n) stageIdx
  threadPlaces transform numCores n stageIdx numProblems (problemSize / 2) threadIdx

/-- Every thread finds its chunk in every stage and comes to every barrier, and the shares of the
threads in a stage are a partition of its butterflies. -/
structure ThreadsFindTheirChunks (transform : FullLineTransform) (numCores n : ℕ) : Prop where
  finds : ∀ stageIdx < n, ∀ threadIdx < numCores,
    (shareOf transform numCores n stageIdx threadIdx).isSome
  reaches : Barriers.ReachesEveryBarrier n fun (thread : Fin numCores) stageIdx =>
    (shareOf transform numCores n stageIdx thread).isSome
  partition : ∀ stageIdx < n, ∃ shares,
    (List.range numCores).mapM (shareOf transform numCores n stageIdx) = some shares ∧
      AllPlaces shares.flatten (stageSizes (2 ^ n) stageIdx).1
        ((stageSizes (2 ^ n) stageIdx).2 / 2)

/-! ## One chunk -/

theorem threadChunk_eq {numCores workSize : ℕ} (cores : numCores ≠ 0)
    (enough : numCores ≤ workSize) :
    ∃ chunkOf : ℕ → ℕ × ℕ,
      (∀ threadIdx < numCores, threadChunk numCores workSize threadIdx = some (chunkOf threadIdx)) ∧
        threadChunks numCores workSize = some ((List.range numCores).map chunkOf) ∧
          ((List.range numCores).map chunkOf).flatMap positions = List.range workSize := by
  rcases getGeometryForNumCores_splits cores (show workSize ≠ 0 by omega) with
    ⟨geometry, computed, count, splits⟩
  rw [Nat.min_eq_left enough] at count
  have chunk : ∀ threadIdx < numCores,
      geometry.chunk threadIdx = some (geometry.preparedChunk threadIdx) := by
    intro threadIdx below
    exact WorkerGeometry.chunk_eq (by rw [count]; exact below)
  refine ⟨geometry.preparedChunk, ?_, ?_, ?_⟩
  · intro threadIdx below
    rw [threadChunk, computed]
    exact chunk threadIdx below
  · rw [threadChunks, computed]
    exact mapM_eq_some fun threadIdx member => chunk threadIdx (List.mem_range.mp member)
  · rw [List.flatMap_map, ← count, splits.flatMap_positions]

/-- With less work than cores the last thread finds no chunk. -/
theorem threadChunk_last {numCores workSize : ℕ} (work : workSize ≠ 0)
    (few : workSize < numCores) : threadChunk numCores workSize (numCores - 1) = none := by
  rcases getGeometryForNumCores_splits (show numCores ≠ 0 by omega) work with
    ⟨geometry, computed, count, _⟩
  rw [threadChunk, computed]
  exact WorkerGeometry.chunk_none (by omega)

/-! ## One stage -/

theorem stageSizes_two_pow {n stageIdx : ℕ} (within : stageIdx ≤ n) :
    stageSizes (2 ^ n) stageIdx = (2 ^ stageIdx, 2 ^ (n - stageIdx)) := by
  induction stageIdx with
  | zero => rfl
  | succ stageIdx inductionHypothesis =>
      have half : 2 ^ (n - stageIdx) / 2 = 2 ^ (n - (stageIdx + 1)) := by
        have exponent : n - stageIdx = n - (stageIdx + 1) + 1 := by omega
        rw [exponent, Nat.pow_succ, Nat.mul_div_cancel _ Nat.two_pos]
      rw [stageSizes, inductionHypothesis (Nat.le_of_succ_le within)]
      dsimp only
      rw [half, Nat.pow_succ]

theorem shareOf_eq (transform : FullLineTransform) (numCores threadIdx : ℕ) {n s m : ℕ}
    (size : s + (m + 1) = n) :
    shareOf transform numCores n s threadIdx =
      threadPlaces transform numCores n s (2 ^ s) (2 ^ m) threadIdx := by
  have half : 2 ^ (n - s) / 2 = 2 ^ m := by
    have exponent : n - s = m + 1 := by omega
    rw [exponent, Nat.pow_succ, Nat.mul_div_cancel _ Nat.two_pos]
  rw [shareOf, stageSizes_two_pow (by omega)]
  dsimp only
  rw [half]

/-- When a thread splits something into chunks, the list is what each thread does with its chunk. -/
theorem mapM_threadChunk {numCores workSize : ℕ} (cores : numCores ≠ 0)
    (enough : numCores ≤ workSize) (share : ℕ × ℕ → List (ℕ × ℕ))
    {shares : ℕ → Option (List (ℕ × ℕ))}
    (each : ∀ threadIdx, shares threadIdx =
      (threadChunk numCores workSize threadIdx).map share) :
    ∃ chunks, threadChunks numCores workSize = some chunks ∧
      chunks.flatMap positions = List.range workSize ∧
        (List.range numCores).mapM shares = some (chunks.map share) := by
  rcases threadChunk_eq cores enough with ⟨chunkOf, chunk, chunks, total⟩
  refine ⟨_, chunks, total, ?_⟩
  rw [List.map_map]
  apply mapM_eq_some
  intro threadIdx member
  rw [each, chunk threadIdx (List.mem_range.mp member)]
  rfl

/-- The threads split every problem. -/
theorem shares_of_split {transform : FullLineTransform} {numCores n s m : ℕ}
    (cores : numCores ≠ 0) (enough : numCores ≤ 2 ^ m)
    (each : ∀ threadIdx, shareOf transform numCores n s threadIdx =
      (threadChunk numCores (2 ^ m) threadIdx).map
        fun chunk => List.range (2 ^ s) ×ˢ positions chunk) :
    ∃ shares, (List.range numCores).mapM (shareOf transform numCores n s) = some shares ∧
      AllPlaces shares.flatten (2 ^ s) (2 ^ m) ∧
        stagePlaces numCores s (2 ^ s) (2 ^ m) = some shares.flatten := by
  rcases mapM_threadChunk cores enough _ each with ⟨chunks, chunked, total, shares⟩
  refine ⟨_, shares, ?_, ?_⟩
  · rw [← List.flatMap_def]
    exact allPlaces_of_split (2 ^ s) total
  · rw [stagePlaces_of_split enough, chunked, ← List.flatMap_def]
    rfl

/-- The threads split the list of problems. -/
theorem shares_of_problems {transform : FullLineTransform} {numCores n s m : ℕ}
    (cores : numCores ≠ 0) (enough : numCores ≤ 2 ^ s) (later : s ≠ 0)
    (each : ∀ threadIdx, shareOf transform numCores n s threadIdx =
      (threadChunk numCores (2 ^ s) threadIdx).map
        fun chunk => positions chunk ×ˢ List.range (2 ^ m)) :
    ∃ shares, (List.range numCores).mapM (shareOf transform numCores n s) = some shares ∧
      AllPlaces shares.flatten (2 ^ s) (2 ^ m) ∧
        (¬ numCores ≤ 2 ^ m → stagePlaces numCores s (2 ^ s) (2 ^ m) = some shares.flatten) := by
  rcases mapM_threadChunk cores enough _ each with ⟨chunks, chunked, total, shares⟩
  refine ⟨_, shares, ?_, ?_⟩
  · rw [← List.flatMap_def]
    exact allPlaces_of_problems (2 ^ m) total
  · intro small
    rw [stagePlaces_of_problems later small, chunked, ← List.flatMap_def]
    rfl

/-- The shares of a stage in which every thread has work; together they are the work of the stage
of the two transforms whose last stage is like the others. -/
theorem shares_of_fit (transform : FullLineTransform) {numCores n s m : ℕ} (cores : numCores ≠ 0)
    (size : s + (m + 1) = n) (fit : numCores ≤ 2 ^ m ∨ s ≠ 0 ∧ numCores ≤ 2 ^ s) :
    ∃ shares, (List.range numCores).mapM (shareOf transform numCores n s) = some shares ∧
      AllPlaces shares.flatten (2 ^ s) (2 ^ m) ∧
        (transform ≠ .fftDif → stagePlaces numCores s (2 ^ s) (2 ^ m) = some shares.flatten) := by
  by_cases zero : s = 0
  · have enough : numCores ≤ 2 ^ m := fit.resolve_right fun later => later.1 zero
    have each : ∀ threadIdx, shareOf transform numCores n s threadIdx =
        (threadChunk numCores (2 ^ m) threadIdx).map
          fun chunk => List.range (2 ^ s) ×ˢ positions chunk := by
      intro threadIdx
      rw [shareOf_eq transform numCores threadIdx size, threadPlaces, if_pos zero,
        guard_of enough]
      cases threadChunk numCores (2 ^ m) threadIdx <;> rfl
    rcases shares_of_split cores enough each with ⟨shares, all, places, same⟩
    exact ⟨shares, all, places, fun _ => same⟩
  by_cases last : transform = .fftDif ∧ s = n - 1
  · have single : m = 0 := by omega
    have enough : numCores ≤ 2 ^ s := by
      rcases fit with few | later
      · rw [single] at few
        exact few.trans Nat.one_le_two_pow
      · exact later.2
    have each : ∀ threadIdx, shareOf transform numCores n s threadIdx =
        (threadChunk numCores (2 ^ s) threadIdx).map
          fun chunk => positions chunk ×ˢ List.range (2 ^ m) := by
      intro threadIdx
      rw [shareOf_eq transform numCores threadIdx size, threadPlaces, if_neg zero, if_pos last,
        single]
      cases threadChunk numCores (2 ^ s) threadIdx <;> rfl
    rcases shares_of_problems cores enough zero each with ⟨shares, all, places, _⟩
    exact ⟨shares, all, places, fun notDif => absurd last.1 notDif⟩
  by_cases large : numCores ≤ 2 ^ m
  · have each : ∀ threadIdx, shareOf transform numCores n s threadIdx =
        (threadChunk numCores (2 ^ m) threadIdx).map
          fun chunk => List.range (2 ^ s) ×ˢ positions chunk := by
      intro threadIdx
      rw [shareOf_eq transform numCores threadIdx size, threadPlaces, if_neg zero, if_neg last,
        if_pos large]
      cases threadChunk numCores (2 ^ m) threadIdx <;> rfl
    rcases shares_of_split cores large each with ⟨shares, all, places, same⟩
    exact ⟨shares, all, places, fun _ => same⟩
  · have each : ∀ threadIdx, shareOf transform numCores n s threadIdx =
        (threadChunk numCores (2 ^ s) threadIdx).map
          fun chunk => positions chunk ×ˢ List.range (2 ^ m) := by
      intro threadIdx
      rw [shareOf_eq transform numCores threadIdx size, threadPlaces, if_neg zero, if_neg last,
        if_neg large]
      cases threadChunk numCores (2 ^ s) threadIdx <;> rfl
    rcases shares_of_problems cores (fit.resolve_left large).2 zero each with
      ⟨shares, all, places, same⟩
    exact ⟨shares, all, places, fun _ => same large⟩

/-- The last thread has no share of a stage with fewer problems and smaller problems than cores. -/
theorem shareOf_last (transform : FullLineTransform) {numCores n s m : ℕ}
    (size : s + (m + 1) = n) (small : 2 ^ m < numCores) (few : s = 0 ∨ 2 ^ s < numCores) :
    shareOf transform numCores n s (numCores - 1) = none := by
  rw [shareOf_eq transform numCores _ size, threadPlaces]
  by_cases zero : s = 0
  · rw [if_pos zero, guard, if_neg (Nat.not_le.mpr small)]
    rfl
  have none : threadChunk numCores (2 ^ s) (numCores - 1) = none :=
    threadChunk_last (Nat.two_pow_pos s).ne' (few.resolve_left zero)
  rw [if_neg zero, if_neg (Nat.not_le.mpr small), none]
  split <;> rfl

/-! ## All stages -/

/-- Beside the check of the first stage the cores have to fit into the stages in the middle. -/
theorem coresFit_iff {numCores n : ℕ} (check : numCores ≤ 2 ^ (n - 1)) :
    CoresFit numCores n ↔ numCores ≤ 2 ^ (n / 2) := by
  constructor
  · intro fit
    by_cases few : n ≤ 1
    · apply check.trans
      exact Nat.pow_le_pow_right Nat.two_pos (by omega)
    · rcases fit (n / 2) (n - 1 - n / 2) (by omega) with small | ⟨_, problems⟩
      · exact small.trans (Nat.pow_le_pow_right Nat.two_pos (by omega))
      · exact problems
  · intro middle s m size
    by_cases zero : s = 0
    · left
      have first : n - 1 = m := by omega
      rwa [first] at check
    by_cases large : n / 2 ≤ m
    · exact Or.inl (middle.trans (Nat.pow_le_pow_right Nat.two_pos large))
    · exact Or.inr ⟨zero, middle.trans (Nat.pow_le_pow_right Nat.two_pos (by omega))⟩

theorem isSome_of_mapM {α : Type} {shares : ℕ → Option α} {count : ℕ} {results : List α}
    (all : (List.range count).mapM shares = some results) {i : ℕ} (below : i < count) :
    (shares i).isSome := by
  rcases NestedList.getElem?_of_mapM all (List.getElem?_range below) with ⟨_, _, computed⟩
  rw [computed]
  rfl

theorem coresFit_of_finds (transform : FullLineTransform) {numCores n : ℕ} (cores : numCores ≠ 0)
    (finds : ∀ stageIdx < n, ∀ threadIdx < numCores,
      (shareOf transform numCores n stageIdx threadIdx).isSome) : CoresFit numCores n := by
  intro s m size
  by_contra unfit
  rw [not_or, not_and_or, Nat.not_le, Nat.not_le, not_not] at unfit
  have found := finds s (by omega) (numCores - 1) (by omega)
  rw [shareOf_last transform size unfit.1 unfit.2] at found
  cases found

theorem threadsFindTheirChunks_of_fit (transform : FullLineTransform) {numCores n : ℕ}
    (cores : numCores ≠ 0) (fit : CoresFit numCores n) :
    ThreadsFindTheirChunks transform numCores n := by
  have shares : ∀ stageIdx < n, ∃ shares,
      (List.range numCores).mapM (shareOf transform numCores n stageIdx) = some shares ∧
        AllPlaces shares.flatten (2 ^ stageIdx) (2 ^ (n - stageIdx - 1)) := by
    intro stageIdx before
    have size : stageIdx + (n - stageIdx - 1 + 1) = n := by omega
    rcases shares_of_fit transform cores size (fit stageIdx _ size) with
      ⟨shares, all, places, _⟩
    exact ⟨shares, all, places⟩
  have finds : ∀ stageIdx < n, ∀ threadIdx < numCores,
      (shareOf transform numCores n stageIdx threadIdx).isSome := by
    intro stageIdx before threadIdx below
    rcases shares stageIdx before with ⟨_, all, _⟩
    exact isSome_of_mapM all below
  refine ⟨finds, ?_, ?_⟩
  · apply Barriers.reachesEveryBarrier_iff.mpr
    intro thread stageIdx before
    exact finds stageIdx before thread thread.isLt
  · intro stageIdx before
    have half : 2 ^ (n - stageIdx) / 2 = 2 ^ (n - stageIdx - 1) := by
      have exponent : n - stageIdx = n - stageIdx - 1 + 1 := by omega
      rw [exponent, Nat.pow_succ, Nat.mul_div_cancel _ Nat.two_pos, Nat.add_sub_cancel]
    rw [stageSizes_two_pow (Nat.le_of_lt before)]
    dsimp only
    rw [half]
    exact shares stageIdx before

/-- The size check passes for more cores than the stages in the middle have work for. -/
theorem threadsFindTheirChunks_iff (transform : FullLineTransform) {numCores n : ℕ}
    (cores : 1 ≤ numCores) (check : numCores ≤ 2 ^ n / 2) :
    ThreadsFindTheirChunks transform numCores n ↔ numCores ≤ 2 ^ (n / 2) := by
  have first : numCores ≤ 2 ^ (n - 1) := by
    cases n with
    | zero =>
        rw [Nat.pow_zero] at check
        omega
    | succ n =>
        rw [Nat.pow_succ, Nat.mul_div_cancel _ Nat.two_pos] at check
        exact check
  rw [← coresFit_iff first]
  constructor
  · intro all
    exact coresFit_of_finds transform (Nat.ne_of_gt cores) all.finds
  · exact threadsFindTheirChunks_of_fit transform (Nat.ne_of_gt cores)

/-- Two cores and four rows. -/
theorem threadsFindTheirChunks_iff_two_four :
    ThreadsFindTheirChunks .partialIfft 2 2 ↔ 2 ≤ 2 ^ (2 / 2) :=
  threadsFindTheirChunks_iff .partialIfft (by decide) (by decide)

/-- Three cores on eight rows: the second stage has two problems of two butterflies. -/
theorem shareOf_three_eight (transform : FullLineTransform) :
    shareOf transform 3 3 1 2 = none ∧ ¬ThreadsFindTheirChunks transform 3 3 := by
  have unfound : shareOf transform 3 3 1 2 = none :=
    shareOf_last transform (show 1 + (1 + 1) = 3 from rfl) (by decide) (Or.inr (by decide))
  refine ⟨unfound, ?_⟩
  intro all
  have found := all.finds 1 (by decide) 2 (by decide)
  rw [unfound] at found
  cases found

/-- Three cores pass the check on eight rows. -/
theorem not_threadsFindTheirChunks_three_eight :
    3 ≤ 2 ^ 3 / 2 ∧ shareOf .partialIfft 3 3 1 2 = none ∧
      ¬ThreadsFindTheirChunks .partialIfft 3 3 ∧ ¬ThreadsFindTheirChunks .fftDit 3 3 ∧
        ¬ThreadsFindTheirChunks .fftDif 3 3 :=
  ⟨by decide, (shareOf_three_eight .partialIfft).1, (shareOf_three_eight .partialIfft).2,
    (shareOf_three_eight .fftDit).2, (shareOf_three_eight .fftDif).2⟩

end Airbender.Fft
