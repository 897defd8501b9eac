import Mathlib.Data.List.ProdSigma
import Airbender.Fft.UnrolledRows
import Airbender.Lib.RadixTwo

/-!
# Transforms over whole rows

`parallel_row_major_full_line_partial_ifft` and `parallel_row_major_full_line_fft_dit`.  Every
stage is shared between the threads, which meet at a barrier before the next one.  A butterfly
works on two whole rows, whose pairs of columns are complex numbers.
-/

namespace Airbender.Fft

open RadixTwo

variable {V : Type} [AddCommGroup V] [Module Mersenne31Complex V]

/-! ## The work of a stage -/

/-- The order in which the butterflies of a stage happen when the threads run side by side. -/
structure Schedule where
  order : ℕ → List (ℕ × ℕ) → List (ℕ × ℕ)
  perm : ∀ stageIdx places, (order stageIdx places).Perm places

/-- The pairs of a problem and a position in it, in the order of the threads.  A stage with large
problems splits each of them, a stage with small ones splits the list of problems. -/
def stagePlaces (numCores stageIdx numProblems halfProblemSize : ℕ) :
    Option (List (ℕ × ℕ)) := do
  if stageIdx = 0 then
    guard (numCores ≤ halfProblemSize)
  if numCores ≤ halfProblemSize then
    let chunks ← threadChunks numCores halfProblemSize
    return chunks.flatMap fun chunk => List.range numProblems ×ˢ positions chunk
  else
    let chunks ← threadChunks numCores numProblems
    return chunks.flatMap fun chunk => positions chunk ×ˢ List.range halfProblemSize

/-- The loop over the stages: problems double in number and halve in size. -/
def runStages {M : Type} (stage : ℕ → ℕ → ℕ → M → Option M) :
    ℕ → ℕ → ℕ → ℕ → M → Option M
  | 0, _, _, _, memory => some memory
  | numStages + 1, stageIdx, numProblems, problemSize, memory => do
      let halfProblemSize := problemSize / 2
      let memory ← stage stageIdx numProblems halfProblemSize memory
      runStages stage numStages (stageIdx + 1) (numProblems * 2) halfProblemSize memory

/-! ## The transforms -/

/-- One stage of the inverse transform: a problem has one twiddle, and the first is trivial. -/
def partialIfftStage (schedule : Schedule) (numCores : ℕ) (precomputations : List Mersenne31Complex)
    (stageIdx numProblems halfProblemSize : ℕ) (memory : ℕ → V) : Option (ℕ → V) := do
  let places ← stagePlaces numCores stageIdx numProblems halfProblemSize
  let twiddle (problemIdx : ℕ) : Mersenne31Complex :=
    if stageIdx = 0 then 1 else precomputations.getD problemIdx 0
  let wings := (schedule.order stageIdx places).map
    (wingAt halfProblemSize (fun _ _ => 1) fun problemIdx _ => twiddle problemIdx)
  return sweep wings memory

/-- `parallel_row_major_full_line_partial_ifft`, whose rows are padded to a multiple of `N`. -/
def parallelRowMajorFullLinePartialIfft (target : TargetArch) (schedule : Schedule)
    (N paddedWidth numCores traceLen : ℕ) (precomputations : List Mersenne31Complex)
    (memory : ℕ → V) : Option (ℕ → V) := do
  guard (target.cacheLineMultiple ≤ N)
  guard (Usize.isPowerOfTwo traceLen)
  if traceLen = 1 then
    return memory
  if 16 ≤ traceLen then
    guard (precomputations.length * 2 = traceLen)
  let _ ← computeUnrollParams target paddedWidth
  let _ ← getGeometryForNumCores numCores (traceLen / 2)
  runStages (partialIfftStage schedule numCores precomputations) traceLen.log2 0 1 traceLen memory

/-- One stage of the transform to a coset: the distance grows, and the first stage scales. -/
def fftDitStage (schedule : Schedule) (numCores : ℕ) (precomputations scales :
    List Mersenne31Complex) (stageIdx numProblems halfProblemSize : ℕ) (memory : ℕ → V) :
    Option (ℕ → V) := do
  let distance := numProblems
  let step := distance * 2
  let places ← stagePlaces numCores stageIdx numProblems halfProblemSize
  let low (block problemIdx : ℕ) : Mersenne31Complex :=
    if stageIdx = 0 then scales.getD (problemIdx + block * step) 0 else 1
  let high (block problemIdx : ℕ) : Mersenne31Complex :=
    if stageIdx = 0 then scales.getD (problemIdx + block * step + distance) 0
    else precomputations.getD (problemIdx * halfProblemSize) 0
  let wings := (schedule.order stageIdx places).map fun place =>
    wingAt distance low high (place.2, place.1)
  return sweep wings memory

/-- `parallel_row_major_full_line_fft_dit`, whose rows are padded to a multiple of `N`. -/
def parallelRowMajorFullLineFftDit (target : TargetArch) (schedule : Schedule)
    (N paddedWidth numCores traceLen : ℕ) (precomputations scales : List Mersenne31Complex)
    (memory : ℕ → V) : Option (ℕ → V) := do
  guard (target.cacheLineMultiple ≤ N)
  guard (scales.length = traceLen)
  guard (Usize.isPowerOfTwo traceLen)
  if traceLen = 1 then
    return memory
  if 16 ≤ traceLen then
    guard (precomputations.length * 2 = traceLen)
  let _ ← computeUnrollParams target paddedWidth
  let _ ← getGeometryForNumCores numCores (traceLen / 2)
  runStages (fftDitStage schedule numCores precomputations scales) traceLen.log2 0 1 traceLen
    memory

/-! ## Every stage finds its work -/

/-- The threads have work in every stage of a transform of `2^n` rows. -/
def CoresFit (numCores n : ℕ) : Prop :=
  ∀ s m, s + (m + 1) = n → numCores ≤ 2 ^ m ∨ s ≠ 0 ∧ numCores ≤ 2 ^ s

/-- The places of a stage, whatever their order. -/
structure AllPlaces (places : List (ℕ × ℕ)) (numProblems halfProblemSize : ℕ) : Prop where
  nodup : places.Nodup
  mem : ∀ problemIdx j, (problemIdx, j) ∈ places ↔ problemIdx < numProblems ∧ j < halfProblemSize

theorem AllPlaces.perm {places other : List (ℕ × ℕ)} {numProblems halfProblemSize : ℕ}
    (all : AllPlaces places numProblems halfProblemSize) (same : other.Perm places) :
    AllPlaces other numProblems halfProblemSize where
  nodup := same.nodup_iff.mpr all.nodup
  mem problemIdx j := same.mem_iff.trans (all.mem problemIdx j)

theorem allPlaces_of_split {chunks : List (ℕ × ℕ)} {halfProblemSize : ℕ} (numProblems : ℕ)
    (total : chunks.flatMap positions = List.range halfProblemSize) :
    AllPlaces (chunks.flatMap fun chunk => List.range numProblems ×ˢ positions chunk) numProblems
      halfProblemSize := by
  have nodup := List.nodup_range (n := halfProblemSize)
  rw [← total] at nodup
  obtain ⟨each, apart⟩ := List.nodup_flatMap.mp nodup
  constructor
  · apply List.nodup_flatMap.mpr
    refine ⟨fun chunk member => List.nodup_range.product (each chunk member), ?_⟩
    refine apart.imp ?_
    intro chunk other disjoint place inChunk inOther
    exact disjoint (List.mem_product.mp inChunk).2 (List.mem_product.mp inOther).2
  · intro problemIdx j
    rw [← List.mem_range (n := halfProblemSize), ← total, List.mem_flatMap, List.mem_flatMap,
      ← List.mem_range (n := numProblems)]
    constructor
    · rintro ⟨chunk, member, place⟩
      obtain ⟨problem, position⟩ := List.mem_product.mp place
      exact ⟨problem, chunk, member, position⟩
    · rintro ⟨problem, chunk, member, position⟩
      exact ⟨chunk, member, List.mem_product.mpr ⟨problem, position⟩⟩

theorem allPlaces_of_problems {chunks : List (ℕ × ℕ)} {numProblems : ℕ} (halfProblemSize : ℕ)
    (total : chunks.flatMap positions = List.range numProblems) :
    AllPlaces (chunks.flatMap fun chunk => positions chunk ×ˢ List.range halfProblemSize)
      numProblems halfProblemSize := by
  have nodup := List.nodup_range (n := numProblems)
  rw [← total] at nodup
  obtain ⟨each, apart⟩ := List.nodup_flatMap.mp nodup
  constructor
  · apply List.nodup_flatMap.mpr
    refine ⟨fun chunk member => (each chunk member).product List.nodup_range, ?_⟩
    refine apart.imp ?_
    intro chunk other disjoint place inChunk inOther
    exact disjoint (List.mem_product.mp inChunk).1 (List.mem_product.mp inOther).1
  · intro problemIdx j
    rw [← List.mem_range (n := numProblems), ← total, List.mem_flatMap, List.mem_flatMap,
      ← List.mem_range (n := halfProblemSize)]
    constructor
    · rintro ⟨chunk, member, place⟩
      obtain ⟨problem, position⟩ := List.mem_product.mp place
      exact ⟨⟨chunk, member, problem⟩, position⟩
    · rintro ⟨⟨chunk, member, problem⟩, position⟩
      exact ⟨chunk, member, List.mem_product.mpr ⟨problem, position⟩⟩

/-- A stage with large problems splits each of them. -/
theorem stagePlaces_of_split {numCores stageIdx numProblems halfProblemSize : ℕ}
    (enough : numCores ≤ halfProblemSize) :
    stagePlaces numCores stageIdx numProblems halfProblemSize =
      (threadChunks numCores halfProblemSize).map fun chunks =>
        chunks.flatMap fun chunk => List.range numProblems ×ˢ positions chunk := by
  rw [stagePlaces, guard_of enough, if_pos enough]
  split <;> cases threadChunks numCores halfProblemSize <;> rfl

/-- A later stage with small problems splits the list of problems. -/
theorem stagePlaces_of_problems {numCores stageIdx numProblems halfProblemSize : ℕ}
    (later : stageIdx ≠ 0) (small : ¬ numCores ≤ halfProblemSize) :
    stagePlaces numCores stageIdx numProblems halfProblemSize =
      (threadChunks numCores numProblems).map fun chunks =>
        chunks.flatMap fun chunk => positions chunk ×ˢ List.range halfProblemSize := by
  rw [stagePlaces, if_neg later, if_neg small]
  cases threadChunks numCores numProblems <;> rfl

theorem stagePlaces_eq {numCores n s m : ℕ} (cores : numCores ≠ 0) (fit : CoresFit numCores n)
    (size : s + (m + 1) = n) :
    ∃ places, stagePlaces numCores s (2 ^ s) (2 ^ m) = some places ∧
      AllPlaces places (2 ^ s) (2 ^ m) := by
  by_cases large : numCores ≤ 2 ^ m
  · obtain ⟨chunks, chunked, total⟩ := threadChunks_eq cores large
    rw [stagePlaces_of_split large, chunked]
    exact ⟨_, rfl, allPlaces_of_split (2 ^ s) total⟩
  · obtain ⟨later, problems⟩ := (fit s m size).resolve_left large
    obtain ⟨chunks, chunked, total⟩ := threadChunks_eq cores problems
    rw [stagePlaces_of_problems later large, chunked]
    exact ⟨_, rfl, allPlaces_of_problems (2 ^ m) total⟩

/-- A stage with fewer problems and smaller problems than cores does not run. -/
theorem stagePlaces_none {numCores s m : ℕ} (small : 2 ^ m < numCores)
    (few : s = 0 ∨ 2 ^ s < numCores) : stagePlaces numCores s (2 ^ s) (2 ^ m) = none := by
  by_cases zero : s = 0
  · rw [stagePlaces, if_pos zero, guard, if_neg (Nat.not_le.mpr small)]
    rfl
  · rw [stagePlaces_of_problems zero (Nat.not_le.mpr small),
      threadChunks_of_few (Nat.two_pow_pos s).ne' (few.resolve_left zero)]
    rfl

/-! ## From the loop over the stages to a run -/

section Runs

variable {M : Type} {stage : ℕ → ℕ → ℕ → M → Option M} {Step : ℕ → ℕ → M → M → Prop} {n : ℕ}

theorem exists_run_from
    (each : ∀ s m, s + (m + 1) = n → ∀ memory, ∃ result,
      stage s (2 ^ s) (2 ^ m) memory = some result ∧ Step s m memory result)
    {s m : ℕ} (size : s + m = n) (memory : M) :
    ∃ run : ℕ → M, run s = memory ∧
      runStages stage m s (2 ^ s) (2 ^ m) memory = some (run n) ∧
      ∀ s' m', s ≤ s' → s' + (m' + 1) = n → Step s' m' (run s') (run (s' + 1)) := by
  induction m generalizing s memory with
  | zero =>
      rw [Nat.add_zero] at size
      refine ⟨fun _ => memory, rfl, rfl, ?_⟩
      intro s' m' later total
      omega
  | succ m inductionHypothesis =>
      obtain ⟨result, computed, step⟩ := each s m size memory
      obtain ⟨run, start, rest, steps⟩ := inductionHypothesis (s := s + 1) (by omega) result
      have half : 2 ^ (m + 1) / 2 = 2 ^ m := by
        rw [Nat.pow_succ, Nat.mul_div_cancel _ Nat.two_pos]
      refine ⟨Function.update run s memory, Function.update_self s memory run, ?_, ?_⟩
      · rw [runStages, half, computed, Option.bind_eq_bind, Option.bind_some, ← Nat.pow_succ, rest,
          Function.update_of_ne (by omega)]
      · intro s' m' later total
        rw [Function.update_of_ne (show s' + 1 ≠ s by omega)]
        by_cases here : s' = s
        · have last : m' = m := by omega
          rw [here, last, Function.update_self, start]
          exact step
        · rw [Function.update_of_ne here]
          exact steps s' m' (by omega) total

/-- When every stage succeeds, the loop goes through the states of a run. -/
theorem exists_run
    (each : ∀ s m, s + (m + 1) = n → ∀ memory, ∃ result,
      stage s (2 ^ s) (2 ^ m) memory = some result ∧ Step s m memory result) (memory : M) :
    ∃ run : ℕ → M, run 0 = memory ∧ runStages stage n 0 1 (2 ^ n) memory = some (run n) ∧
      ∀ s m, s + (m + 1) = n → Step s m (run s) (run (s + 1)) := by
  obtain ⟨run, start, finish, steps⟩ := exists_run_from each (Nat.zero_add n) memory
  exact ⟨run, start, finish, fun s m total => steps s m (Nat.zero_le s) total⟩

/-- The loop stops in a stage that does not run. -/
theorem runStages_none {failing : ℕ → ℕ → Prop} (stops : ∀ s m, failing s m → ∀ memory,
      stage s (2 ^ s) (2 ^ m) memory = none) {s m : ℕ} {s' m' : ℕ} (later : s ≤ s')
    (size : s + m = s' + (m' + 1)) (fails : failing s' m') (memory : M) :
    runStages stage m s (2 ^ s) (2 ^ m) memory = none := by
  induction m generalizing s memory with
  | zero => omega
  | succ m inductionHypothesis =>
      have half : 2 ^ (m + 1) / 2 = 2 ^ m := by
        rw [Nat.pow_succ, Nat.mul_div_cancel _ Nat.two_pos]
      rw [runStages, half]
      by_cases here : s = s'
      · have last : m = m' := by omega
        rw [here, last, stops s' m' fails memory]
        rfl
      · cases computed : stage s (2 ^ s) (2 ^ m) memory with
        | none => rfl
        | some result =>
            have rest := inductionHypothesis (s := s + 1) (by omega) (by omega) result
            rw [Nat.pow_succ] at rest
            exact rest

end Runs

/-- When the stages run to the end, the threads had work in all of them. -/
theorem coresFit_of_runStages {M : Type} {stage : ℕ → ℕ → ℕ → M → Option M} {numCores n : ℕ}
    (stops : ∀ s m, s + (m + 1) = n ∧ 2 ^ m < numCores ∧ (s = 0 ∨ 2 ^ s < numCores) →
      ∀ memory, stage s (2 ^ s) (2 ^ m) memory = none) {memory result : M}
    (ran : runStages stage n 0 1 (2 ^ n) memory = some result) : CoresFit numCores n := by
  intro s m size
  by_contra unfit
  rw [not_or, not_and_or, Nat.not_le, Nat.not_le, not_not] at unfit
  have stopped := runStages_none stops (s := 0) (m := n) (Nat.zero_le s) (by omega)
    ⟨size, unfit⟩ memory
  rw [Nat.pow_zero, ran] at stopped
  cases stopped

/-! ## The inverse transform -/

section Transforms

variable {target : TargetArch} {N paddedWidth numCores n : ℕ}
  {precomputations : List Mersenne31Complex} (schedule : Schedule)

theorem partialIfftStage_eq (cores : numCores ≠ 0) (fit : CoresFit numCores n)
    (trivial : precomputations.getD 0 0 = 1) {s m : ℕ} (size : s + (m + 1) = n)
    (memory : ℕ → V) :
    ∃ result, partialIfftStage schedule numCores precomputations s (2 ^ s) (2 ^ m) memory =
        some result ∧
      FallingStage (fun problemIdx => precomputations.getD problemIdx 0) s m memory result := by
  obtain ⟨places, found, all⟩ := stagePlaces_eq cores fit size
  have ordered := all.perm (schedule.perm s places)
  have power : 2 ^ (m + 1) = 2 * 2 ^ m := Nat.pow_succ'
  have bounds : ∀ place ∈ schedule.order s places, place.2 < 2 ^ m := fun place member =>
    ((ordered.mem place.1 place.2).mp member).2
  have twiddle : ∀ p < 2 ^ s, (if s = 0 then (1 : Mersenne31Complex)
      else precomputations.getD p 0) = precomputations.getD p 0 := by
    intro p bound
    by_cases zero : s = 0
    · rw [zero, Nat.pow_zero, Nat.lt_one_iff] at bound
      rw [if_pos zero, bound, trivial]
    · rw [if_neg zero]
  rw [partialIfftStage, found]
  refine ⟨_, rfl, ?_, ?_⟩
  · intro p pBound j jBound
    have result := (stage_result (fun _ _ => 1)
      (fun p _ => if s = 0 then (1 : Mersenne31Complex) else precomputations.getD p 0)
      memory ordered.nodup bounds ((ordered.mem p j).mpr ⟨pBound, jBound⟩)).1
    rw [one_smul, twiddle p pBound, ← power] at result
    exact result
  · intro p pBound j jBound
    have result := (stage_result (fun _ _ => 1)
      (fun p _ => if s = 0 then (1 : Mersenne31Complex) else precomputations.getD p 0)
      memory ordered.nodup bounds ((ordered.mem p j).mpr ⟨pBound, jBound⟩)).2
    rw [one_smul, twiddle p pBound, ← power] at result
    exact result

/-- An entry of a table of powers. -/
theorem getD_map_range (f : ℕ → Mersenne31Complex) {size i : ℕ} (bound : i < size) :
    ((List.range size).map f).getD i 0 = f i := by
  rw [List.getD_eq_getElem?_getD, List.getElem?_map, List.getElem?_range bound]
  rfl

/-- The inverse transform, unscaled and in bit-reversed order. -/
theorem parallelRowMajorFullLinePartialIfft_eq (accepted : target.cacheLineMultiple ≤ N)
    (aligned : paddedWidth % target.cacheLineMultiple = 0) (cores : numCores ≠ 0)
    (fit : CoresFit numCores (n + 1)) {ω : Mersenne31Complex} (half : ω ^ 2 ^ n = -1)
    (memory : ℕ → V) :
    ∃ result, parallelRowMajorFullLinePartialIfft target schedule N paddedWidth numCores
        (2 ^ (n + 1)) ((List.range (2 ^ n)).map fun i => ω ^ reversed n i) memory = some result ∧
      ∀ p < 2 ^ (n + 1), result p =
        ∑ q ∈ Finset.range (2 ^ (n + 1)), ω ^ (reversed (n + 1) p * q) • memory q := by
  have trivial : ((List.range (2 ^ n)).map fun i => ω ^ reversed n i).getD 0 0 = 1 := by
    have zero : reversed n 0 = 0 := by
      have double := reversed_add n (show 0 < 2 ^ 0 from Nat.zero_lt_one)
      rwa [Nat.zero_add, reversed, Nat.mul_zero] at double
    rw [getD_map_range _ (Nat.two_pow_pos n), zero, pow_zero]
  obtain ⟨run, start, finish, stages⟩ := exists_run
    (fun s m size memory => partialIfftStage_eq schedule cores fit trivial size memory) memory
  have power := Usize.isPowerOfTwo_two_pow (n + 1)
  have several : 2 ^ (n + 1) ≠ 1 := (Nat.one_lt_two_pow n.succ_ne_zero).ne'
  have length : ((List.range (2 ^ n)).map fun i => ω ^ reversed n i).length * 2 =
      2 ^ (n + 1) := by
    rw [List.length_map, List.length_range, Nat.pow_succ]
  have work : 2 ^ (n + 1) / 2 ≠ 0 := by
    rw [Nat.pow_succ, Nat.mul_div_cancel _ Nat.two_pos]
    exact (Nat.two_pow_pos n).ne'
  obtain ⟨geometry, computed, _⟩ := getGeometryForNumCores_splits cores work
  obtain ⟨params, unrolled⟩ := computeUnrollParams_some aligned
  refine ⟨run (n + 1), ?_, ?_⟩
  · rw [parallelRowMajorFullLinePartialIfft, guard_of accepted, guard_of power]
    simp only [if_neg several, length, guard_of, ite_self, unrolled, computed, Nat.log2_two_pow,
      finish, Option.bind_eq_bind, Option.bind_some, Option.pure_def]
  · intro p bound
    have twiddles : ∀ m, m + 1 = n + 1 → ∀ p < 2 ^ m,
        ((List.range (2 ^ n)).map fun i => ω ^ reversed n i).getD p 0 = ω ^ reversed m p := by
      intro m size p pBound
      obtain rfl : m = n := by omega
      exact getD_map_range _ pBound
    have opposite : ∀ m, m + 1 = n + 1 → ω ^ 2 ^ m = -1 := by
      intro m size
      obtain rfl : m = n := by omega
      exact half
    rw [falling_result opposite twiddles stages bound, start]

/-- A run of the inverse transform on several rows. -/
theorem parallelRowMajorFullLinePartialIfft_runs {traceLen : ℕ} {memory result : ℕ → V}
    (ran : parallelRowMajorFullLinePartialIfft target schedule N paddedWidth numCores traceLen
      precomputations memory = some result) (several : traceLen ≠ 1) :
    target.cacheLineMultiple ≤ N ∧ paddedWidth % target.cacheLineMultiple = 0 ∧
      ∃ n, traceLen = 2 ^ n ∧ numCores ≠ 0 ∧ CoresFit numCores n := by
  rw [parallelRowMajorFullLinePartialIfft] at ran
  rcases Option.bind_eq_some_iff.mp ran with ⟨_, lines, afterLines⟩
  rcases Option.bind_eq_some_iff.mp afterLines with ⟨_, power, afterPower⟩
  have size : traceLen = 2 ^ traceLen.log2 := beq_iff_eq.mp ((Option.guard_eq_some' ()).mp power)
  have body : ((computeUnrollParams target paddedWidth).bind fun _ =>
      (getGeometryForNumCores numCores (traceLen / 2)).bind fun _ =>
        runStages (partialIfftStage schedule numCores precomputations) traceLen.log2 0 1 traceLen
          memory) = some result := by
    rw [if_neg several] at afterPower
    by_cases long : 16 ≤ traceLen
    · rw [if_pos long] at afterPower
      rcases Option.bind_eq_some_iff.mp afterPower with ⟨_, _, rest⟩
      exact rest
    · rw [if_neg long] at afterPower
      exact afterPower
  rcases Option.bind_eq_some_iff.mp body with ⟨_, unrolled, afterUnrolled⟩
  rcases Option.bind_eq_some_iff.mp afterUnrolled with ⟨_, computed, runs⟩
  refine ⟨(Option.guard_eq_some' ()).mp lines, aligned_of_computeUnrollParams unrolled,
    traceLen.log2, size, cores_of_getGeometryForNumCores computed, ?_⟩
  rw [size, Nat.log2_two_pow] at runs
  apply coresFit_of_runStages _ runs
  intro s m ⟨_, small, few⟩ memory
  rw [partialIfftStage, stagePlaces_none small few]
  rfl

/-! ## The transform to a coset -/

theorem AllPlaces.swapped_bounds {places : List (ℕ × ℕ)} {numProblems halfProblemSize : ℕ}
    (all : AllPlaces places numProblems halfProblemSize) :
    (places.map Prod.swap).Nodup ∧ ∀ place ∈ places.map Prod.swap, place.2 < numProblems := by
  refine ⟨all.nodup.map Prod.swap_injective, ?_⟩
  intro place member
  obtain ⟨source, sourceMember, rfl⟩ := List.mem_map.mp member
  exact ((all.mem source.1 source.2).mp sourceMember).1

/-- The first stage works on scaled rows, the others on what the stage before left. -/
def scaledAtStart (scales : List Mersenne31Complex) (s : ℕ) (memory : ℕ → V) : ℕ → V :=
  if s = 0 then fun i => scales.getD i 0 • memory i else memory

theorem fftDitStage_eq (scales : List Mersenne31Complex) (cores : numCores ≠ 0)
    (fit : CoresFit numCores n) (trivial : precomputations.getD 0 0 = 1) {s m : ℕ}
    (size : s + (m + 1) = n) (memory : ℕ → V) :
    ∃ result, fftDitStage schedule numCores precomputations scales s (2 ^ s) (2 ^ m) memory =
        some result ∧
      RisingStage (fun i => precomputations.getD i 0) s m (scaledAtStart scales s memory)
        result := by
  obtain ⟨places, found, all⟩ := stagePlaces_eq cores fit size
  have ordered := all.perm (schedule.perm s places)
  obtain ⟨nodup, bounds⟩ := ordered.swapped_bounds
  have power : 2 ^ (s + 1) = 2 * 2 ^ s := Nat.pow_succ'
  let low (block problemIdx : ℕ) : Mersenne31Complex :=
    if s = 0 then scales.getD (problemIdx + block * (2 ^ s * 2)) 0 else 1
  let high (block problemIdx : ℕ) : Mersenne31Complex :=
    if s = 0 then scales.getD (problemIdx + block * (2 ^ s * 2) + 2 ^ s) 0
    else precomputations.getD (problemIdx * 2 ^ m) 0
  -- what the factors make of the two rows of a butterfly
  have lower : ∀ k p, low k p • memory (k * 2 ^ (s + 1) + p) =
      scaledAtStart scales s memory (k * 2 ^ (s + 1) + p) := by
    intro k p
    have place : p + k * (2 ^ s * 2) = k * 2 ^ (s + 1) + p := by
      rw [power]
      ring
    by_cases zero : s = 0
    · simp only [low, scaledAtStart, if_pos zero, place]
    · simp only [low, scaledAtStart, if_neg zero, one_smul]
  have higher : ∀ k, ∀ p < 2 ^ s, high k p • memory (k * 2 ^ (s + 1) + p + 2 ^ s) =
      precomputations.getD (p * 2 ^ m) 0 •
        scaledAtStart scales s memory (k * 2 ^ (s + 1) + p + 2 ^ s) := by
    intro k p bound
    have place : p + k * (2 ^ s * 2) + 2 ^ s = k * 2 ^ (s + 1) + p + 2 ^ s := by
      rw [power]
      ring
    by_cases zero : s = 0
    · have first : p = 0 := by
        rw [zero, Nat.pow_zero] at bound
        omega
      simp only [high, scaledAtStart, if_pos zero, place]
      rw [first, Nat.zero_mul, trivial, one_smul]
    · simp only [high, scaledAtStart, if_neg zero]
  have member : ∀ k < 2 ^ m, ∀ p < 2 ^ s, (k, p) ∈ (schedule.order s places).map Prod.swap := by
    intro k kBound p pBound
    exact List.mem_map.mpr ⟨(p, k), (ordered.mem p k).mpr ⟨pBound, kBound⟩, rfl⟩
  have wings : (schedule.order s places).map (fun place =>
      wingAt (2 ^ s) low high (place.2, place.1)) =
      ((schedule.order s places).map Prod.swap).map (wingAt (2 ^ s) low high) := by
    rw [List.map_map]
    rfl
  refine ⟨sweep (((schedule.order s places).map Prod.swap).map (wingAt (2 ^ s) low high)) memory,
    ?_, ?_, ?_⟩
  · rw [← wings, fftDitStage, found]
    rfl
  · intro k kBound p pBound
    have result := (stage_result low high memory nodup bounds (member k kBound p pBound)).1
    rw [← power, lower, higher k p pBound] at result
    exact result
  · intro k kBound p pBound
    have result := (stage_result low high memory nodup bounds (member k kBound p pBound)).2
    rw [← power, lower, higher k p pBound] at result
    exact result

/-- The transform from scaled bit-reversed monomials. -/
theorem parallelRowMajorFullLineFftDit_eq (accepted : target.cacheLineMultiple ≤ N)
    (aligned : paddedWidth % target.cacheLineMultiple = 0) (cores : numCores ≠ 0)
    (fit : CoresFit numCores (n + 1)) {ω : Mersenne31Complex} (half : ω ^ 2 ^ n = -1)
    (scale : ℕ → Mersenne31Complex) (memory : ℕ → V) :
    ∃ result, parallelRowMajorFullLineFftDit target schedule N paddedWidth numCores (2 ^ (n + 1))
        ((List.range (2 ^ n)).map fun i => ω ^ i) ((List.range (2 ^ (n + 1))).map scale) memory =
        some result ∧
      ∀ r < 2 ^ (n + 1), result r = ∑ q ∈ Finset.range (2 ^ (n + 1)),
        ω ^ (r * reversed (n + 1) q) • scale q • memory q := by
  have trivial : ((List.range (2 ^ n)).map fun i => ω ^ i).getD 0 0 = 1 := by
    rw [getD_map_range _ (Nat.two_pow_pos n), pow_zero]
  obtain ⟨run, start, finish, stages⟩ := exists_run
    (fun s m size memory => fftDitStage_eq schedule ((List.range (2 ^ (n + 1))).map scale) cores
      fit trivial size memory) memory
  have power := Usize.isPowerOfTwo_two_pow (n + 1)
  have several : 2 ^ (n + 1) ≠ 1 := (Nat.one_lt_two_pow n.succ_ne_zero).ne'
  have length : ((List.range (2 ^ n)).map fun i => ω ^ i).length * 2 = 2 ^ (n + 1) := by
    rw [List.length_map, List.length_range, Nat.pow_succ]
  have scalesLength : ((List.range (2 ^ (n + 1))).map scale).length = 2 ^ (n + 1) := by
    rw [List.length_map, List.length_range]
  have work : 2 ^ (n + 1) / 2 ≠ 0 := by
    rw [Nat.pow_succ, Nat.mul_div_cancel _ Nat.two_pos]
    exact (Nat.two_pow_pos n).ne'
  obtain ⟨geometry, computed, _⟩ := getGeometryForNumCores_splits cores work
  obtain ⟨params, unrolled⟩ := computeUnrollParams_some aligned
  refine ⟨run (n + 1), ?_, ?_⟩
  · rw [parallelRowMajorFullLineFftDit, guard_of accepted, guard_of scalesLength, guard_of power]
    simp only [if_neg several, length, guard_of, ite_self, unrolled, computed, Nat.log2_two_pow,
      finish, Option.bind_eq_bind, Option.bind_some, Option.pure_def]
  · intro r bound
    have twiddles : ∀ m, m + 1 = n + 1 → ∀ i < 2 ^ m,
        ((List.range (2 ^ n)).map fun i => ω ^ i).getD i 0 = ω ^ i := by
      intro m size i iBound
      obtain rfl : m = n := by omega
      exact getD_map_range _ iBound
    have opposite : ∀ m, m + 1 = n + 1 → ω ^ 2 ^ m = -1 := by
      intro m size
      obtain rfl : m = n := by omega
      exact half
    -- the run of the rising stages starts from the scaled rows
    have rising : RisingRun (n + 1) (fun i => ((List.range (2 ^ n)).map fun i => ω ^ i).getD i 0)
        fun s => scaledAtStart ((List.range (2 ^ (n + 1))).map scale) s (run s) := by
      intro s m size
      have stage := stages s m size
      have later : scaledAtStart ((List.range (2 ^ (n + 1))).map scale) (s + 1) (run (s + 1)) =
          run (s + 1) := if_neg s.succ_ne_zero
      beta_reduce
      rw [later]
      exact stage
    have result := rising_result opposite twiddles rising bound
    have last : scaledAtStart ((List.range (2 ^ (n + 1))).map scale) (n + 1) (run (n + 1)) =
        run (n + 1) := if_neg n.succ_ne_zero
    rw [last] at result
    rw [result]
    apply Finset.sum_congr rfl
    intro q member
    rw [scaledAtStart, if_pos rfl, start, getD_map_range scale (Finset.mem_range.mp member)]

end Transforms

end Airbender.Fft
