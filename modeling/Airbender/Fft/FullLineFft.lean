import Airbender.Fft.StageBarriers
import Airbender.Fft.UnrolledRows
import Airbender.Fft.Precomputes

/-!
# The two transforms to a coset

`parallel_row_major_full_line_fft_dit` and `parallel_row_major_full_line_fft_dif` with their inner
loops.  The first multiplies the inputs of a butterfly, the second one multiplies the difference.
-/

namespace Airbender.Fft.Unrolled

open PairUpdates RadixTwo Mersenne31Complex

/-! ## The transforms -/

/-- What a stage does to the two rows at a position in a problem. -/
abbrev StageLogic :=
  (stageIdx numProblems halfProblemSize position problemIdx : ℕ) → Lanes → Lanes → Lanes × Lanes

/-- One stage of a transform: the threads go through their shares, in the order of the schedule. -/
def fullLineStage (transform : FullLineTransform) (schedule : Schedule) (numCores numStages : ℕ)
    (logic : StageLogic) (stageIdx numProblems halfProblemSize : ℕ) (memory : ℕ → Lanes) :
    Option (ℕ → Lanes) := do
  let distance := numProblems
  let shares ← (List.range numCores).mapM
    (threadPlaces transform numCores numStages stageIdx numProblems halfProblemSize)
  let places := (schedule.order stageIdx shares.flatten).map Prod.swap
  return updateAll (places.map
    (updateAt distance (logic stageIdx numProblems halfProblemSize))) memory

/-- What both transforms do around their stages. -/
def fullLineTransform (transform : FullLineTransform) (target : TargetArch) (schedule : Schedule)
    (N paddedWidth numCores traceLen : ℕ) (precomputations scales : List Mersenne31Complex)
    (logic : UnrollParams → ℕ → StageLogic) (memory : ℕ → Lanes) : Option (ℕ → Lanes) := do
  guard (target.cacheLineMultiple ≤ N)
  guard (scales.length = traceLen)
  guard (Usize.isPowerOfTwo traceLen)
  if traceLen = 1 then
    return memory
  if 16 ≤ traceLen then
    guard (precomputations.length * 2 = traceLen)
  let params ← computeUnrollParams target paddedWidth
  let numStages := traceLen.log2
  let _ ← getGeometryForNumCores numCores (traceLen / 2)
  runStages (fullLineStage transform schedule numCores numStages (logic params numStages))
    numStages 0 1 traceLen memory

/-- The inner loops of `parallel_row_major_full_line_fft_dit` on the rows `j` and `j + distance`. -/
def ditLogic (target : TargetArch) (precomputations scales : List Mersenne31Complex)
    (params : UnrollParams) (_numStages : ℕ) : StageLogic :=
  fun stageIdx numProblems halfProblemSize position problemIdx =>
    let distance := numProblems
    let step := distance * 2
    let j := problemIdx + position * step
    let twiddleIndex := problemIdx * halfProblemSize
    if stageIdx = 0 then
      ifftInnerLoopLogicScale target params (scales.getD j 0) (scales.getD (j + distance) 0)
    else
      ifftInnerLoopLogicTwiddle target params (precomputations.getD twiddleIndex 0)

/-- The inner loops of `parallel_row_major_full_line_fft_dif` on the rows `j` and `j + distance`. -/
def difLogic (target : TargetArch) (precomputations scales : List Mersenne31Complex)
    (params : UnrollParams) (numStages : ℕ) : StageLogic :=
  fun stageIdx numProblems _ position problemIdx =>
    let distance := numProblems
    let step := distance * 2
    let j := position * step + problemIdx
    let twiddleIndex := position
    if stageIdx = 0 then
      fftInnerLoopLogicScaleAndTwiddle target params (scales.getD j 0)
        (scales.getD (j + distance) 0) (precomputations.getD twiddleIndex 0)
    else if stageIdx ≠ numStages - 1 then
      fftInnerLoopLogicTwiddle target params (precomputations.getD twiddleIndex 0)
    else
      fftInnerLoopLogicTrivialTwiddle target params

/-- `parallel_row_major_full_line_fft_dit`. -/
def parallelRowMajorFullLineFftDit (target : TargetArch) (schedule : Schedule)
    (N paddedWidth numCores traceLen : ℕ) (precomputations scales : List Mersenne31Complex)
    (memory : ℕ → Lanes) : Option (ℕ → Lanes) :=
  fullLineTransform .fftDit target schedule N paddedWidth numCores traceLen precomputations scales
    (ditLogic target precomputations scales) memory

/-- `parallel_row_major_full_line_fft_dif`. -/
def parallelRowMajorFullLineFftDif (target : TargetArch) (schedule : Schedule)
    (N paddedWidth numCores traceLen : ℕ) (precomputations scales : List Mersenne31Complex)
    (memory : ℕ → Lanes) : Option (ℕ → Lanes) :=
  fullLineTransform .fftDif target schedule N paddedWidth numCores traceLen precomputations scales
    (difLogic target precomputations scales) memory

/-! ## The stages of a transform -/

section Stages

variable {transform : FullLineTransform} (schedule : Schedule) {numCores n : ℕ}
  {logic : StageLogic}

theorem fullLineStage_eq (cores : numCores ≠ 0) (fit : CoresFit numCores n) {s m : ℕ}
    (size : s + (m + 1) = n) (memory : ℕ → Lanes) :
    ∃ result, fullLineStage transform schedule numCores n logic s (2 ^ s) (2 ^ m) memory =
        some result ∧
      ∀ i < 2 ^ n, result i = stageStep (logic s (2 ^ s) (2 ^ m)) (2 ^ s) memory i := by
  rcases shares_of_fit transform cores size (fit s m size) with ⟨shares, found, all, _⟩
  have ordered := all.perm (schedule.perm s shares.flatten)
  rcases ordered.swapped_bounds with ⟨nodup, bounds⟩
  have sameShares : (List.range numCores).mapM
      (threadPlaces transform numCores n s (2 ^ s) (2 ^ m)) = some shares := by
    rw [← found]
    congr 1
    funext threadIdx
    exact (shareOf_eq transform numCores threadIdx size).symm
  rw [fullLineStage, sameShares]
  refine ⟨_, rfl, ?_⟩
  intro i bound
  have whole : 2 ^ s * 2 * 2 ^ m = 2 ^ n := by
    rw [← Nat.pow_succ, ← pow_add, ← size]
    congr 1
    omega
  have block : i / (2 * 2 ^ s) < 2 ^ m := by
    apply Nat.div_lt_of_lt_mul
    rw [Nat.mul_comm 2, whole]
    exact bound
  have member : (i / (2 * 2 ^ s), i % 2 ^ s) ∈ (schedule.order s shares.flatten).map Prod.swap :=
    List.mem_map.mpr ⟨(i % 2 ^ s, i / (2 * 2 ^ s)),
      (ordered.mem _ _).mpr ⟨Nat.mod_lt i (Nat.two_pow_pos s), block⟩, rfl⟩
  rw [updateAll_eq_stageStep memory (Nat.two_pow_pos s) nodup bounds, if_pos member]

/-- The updates of the stages of a transform of `2^n` rows. -/
def stageUpdates (logic : StageLogic) (n s : ℕ) : ℕ → ℕ → Lanes → Lanes → Lanes × Lanes :=
  logic s (2 ^ s) (2 ^ (n - s - 1))

/-- The stages of a transform whose threads have work in all of them. -/
theorem runStages_eq (cores : numCores ≠ 0) (fit : CoresFit numCores n) (memory : ℕ → Lanes) :
    ∃ result, runStages (fullLineStage transform schedule numCores n logic) n 0 1 (2 ^ n) memory =
        some result ∧
      ∀ i < 2 ^ n, result i = risingStages (stageUpdates logic n) memory n i := by
  rcases exists_run (fun s m size memory =>
    fullLineStage_eq schedule cores fit size memory) memory with ⟨run, start, finish, stages⟩
  refine ⟨run n, finish, ?_⟩
  intro i bound
  rw [← start]
  refine risingStages_agree ?_ (Nat.le_refl n) bound
  intro s m size
  have rest : n - s - 1 = m := by omega
  rw [stageUpdates, rest]
  exact stages s m size

/-- A stage in which a thread has no share does not run. -/
theorem fullLineStage_none {s m : ℕ} (size : s + (m + 1) = n) (small : 2 ^ m < numCores)
    (few : s = 0 ∨ 2 ^ s < numCores) (memory : ℕ → Lanes) :
    fullLineStage transform schedule numCores n logic s (2 ^ s) (2 ^ m) memory = none := by
  have last := shareOf_last transform size small few
  rw [shareOf_eq transform numCores _ size] at last
  rw [fullLineStage]
  cases found : (List.range numCores).mapM
      (threadPlaces transform numCores n s (2 ^ s) (2 ^ m)) with
  | none => rfl
  | some shares =>
      have positive := Nat.two_pow_pos m
      have some := isSome_of_mapM found (show numCores - 1 < numCores by omega)
      rw [last] at some
      cases some

end Stages

/-! ## The transforms on many rows -/

section Transforms

variable {transform : FullLineTransform} {target : TargetArch} (schedule : Schedule)
  {N paddedWidth numCores n : ℕ} {precomputations scales : List Mersenne31Complex}
  {logic : UnrollParams → ℕ → StageLogic}

/-- A transform of several rows takes the length of the twiddles that it asserts. -/
def AssertedLength (n : ℕ) (precomputations : List Mersenne31Complex) : Prop :=
  16 ≤ 2 ^ n → precomputations.length * 2 = 2 ^ n

theorem fullLineTransform_body (accepted : target.cacheLineMultiple ≤ N)
    (scaled : scales.length = 2 ^ n) (several : n ≠ 0)
    (asserted : AssertedLength n precomputations) {params : UnrollParams}
    (computed : computeUnrollParams target paddedWidth = some params) (memory : ℕ → Lanes) :
    fullLineTransform transform target schedule N paddedWidth numCores (2 ^ n) precomputations
      scales logic memory = (getGeometryForNumCores numCores (2 ^ n / 2)).bind fun _ =>
        runStages (fullLineStage transform schedule numCores n (logic params n)) n 0 1 (2 ^ n)
          memory := by
  have more : 2 ^ n ≠ 1 := (Nat.one_lt_two_pow several).ne'
  rw [fullLineTransform, guard_of accepted, guard_of scaled,
    guard_of (Usize.isPowerOfTwo_two_pow n), if_neg more, computed, Nat.log2_two_pow]
  by_cases large : 16 ≤ 2 ^ n
  · rw [if_pos large, guard_of (asserted large)]
    rfl
  · rw [if_neg large]
    rfl

variable (transform logic) in
theorem fullLineTransform_eq (accepted : target.cacheLineMultiple ≤ N)
    (scaled : scales.length = 2 ^ n) (several : n ≠ 0)
    (asserted : AssertedLength n precomputations) {params : UnrollParams}
    (computed : computeUnrollParams target paddedWidth = some params) (cores : numCores ≠ 0)
    (fit : CoresFit numCores n) (memory : ℕ → Lanes) :
    ∃ result, fullLineTransform transform target schedule N paddedWidth numCores (2 ^ n)
        precomputations scales logic memory = some result ∧
      ∀ i < 2 ^ n, result i = risingStages (stageUpdates (logic params n) n) memory n i := by
  have halves : 2 ^ n = 2 * 2 ^ (n - 1) := (mul_pow_sub_one several 2).symm
  have positive := Nat.two_pow_pos (n - 1)
  rcases getGeometryForNumCores_splits cores (show 2 ^ n / 2 ≠ 0 by omega) with
    ⟨geometry, split, _⟩
  rw [fullLineTransform_body schedule accepted scaled several asserted computed, split]
  exact runStages_eq schedule cores fit memory

/-- A single row stays as it is. -/
theorem fullLineTransform_single (accepted : target.cacheLineMultiple ≤ N)
    (scaled : scales.length = 2 ^ n) (single : n = 0) (memory : ℕ → Lanes) :
    fullLineTransform transform target schedule N paddedWidth numCores (2 ^ n) precomputations
      scales logic memory = some memory := by
  have one : 2 ^ n = 1 := by rw [single, Nat.pow_zero]
  rw [fullLineTransform, guard_of accepted, guard_of scaled,
    guard_of (Usize.isPowerOfTwo_two_pow n), if_pos one]
  rfl

/-- There is a scale for every row. -/
theorem fullLineTransform_scaled {traceLen : ℕ} {memory result : ℕ → Lanes}
    (ran : fullLineTransform transform target schedule N paddedWidth numCores traceLen
      precomputations scales logic memory = some result) : scales.length = traceLen := by
  rcases Option.bind_eq_some_iff.mp ran with ⟨_, _, afterWidth⟩
  rcases Option.bind_eq_some_iff.mp afterWidth with ⟨_, lengths, _⟩
  exact (Option.guard_eq_some' ()).mp lengths

/-- A transform that runs has work for all threads in every stage. -/
theorem fullLineTransform_runs (accepted : target.cacheLineMultiple ≤ N)
    (scaled : scales.length = 2 ^ n) (several : n ≠ 0)
    (asserted : AssertedLength n precomputations) {params : UnrollParams}
    (computed : computeUnrollParams target paddedWidth = some params) {memory result : ℕ → Lanes}
    (ran : fullLineTransform transform target schedule N paddedWidth numCores (2 ^ n)
      precomputations scales logic memory = some result) :
    numCores ≠ 0 ∧ CoresFit numCores n := by
  rw [fullLineTransform_body schedule accepted scaled several asserted computed] at ran
  rcases Option.bind_eq_some_iff.mp ran with ⟨_, split, stages⟩
  refine ⟨cores_of_getGeometryForNumCores split, ?_⟩
  apply coresFit_of_runStages _ stages
  intro s m ⟨size, small, few⟩ memory
  exact fullLineStage_none schedule size small few memory

end Transforms

/-! ## The stages on one lane -/

section LaneStages

variable (precomputations scales : List Mersenne31Complex) (n : ℕ)

/-- What a stage of `parallel_row_major_full_line_fft_dit` does to a lane. -/
def ditLane (s block offset : ℕ) : LaneButterfly :=
  let j := offset + block * (2 ^ s * 2)
  if s = 0 then
    fun u v => (u * scales.getD j 0 + v * scales.getD (j + 2 ^ s) 0,
      u * scales.getD j 0 - v * scales.getD (j + 2 ^ s) 0)
  else
    let twiddle := precomputations.getD (offset * 2 ^ (n - s - 1)) 0
    fun u v => (u + v * twiddle, u - v * twiddle)

/-- What a stage of `parallel_row_major_full_line_fft_dif` does to a lane that the unrolled loop
works on, or to one whose first butterfly leaves the twiddle out. -/
def difLane (leavesOut : Prop) [Decidable leavesOut] (s block offset : ℕ) : LaneButterfly :=
  let j := block * (2 ^ s * 2) + offset
  let twiddle := precomputations.getD block 0
  if s = 0 then
    fun u v =>
      let difference := u * scales.getD j 0 - v * scales.getD (j + 2 ^ s) 0
      (u * scales.getD j 0 + v * scales.getD (j + 2 ^ s) 0,
        if leavesOut then difference else difference * twiddle)
  else if s ≠ n - 1 then
    fun u v => (u + v, (u - v) * twiddle)
  else
    fun u v => (u + v, u - v)

variable {target : TargetArch} {paddedWidth : ℕ} {params : UnrollParams} {lane : ℕ}

/-- The lanes of the remainder loop that leaves the twiddle out. -/
def InUntwiddledRemainder (target : TargetArch) (paddedWidth lane : ℕ) : Prop :=
  target = .other ∧ paddedWidth / 64 * 32 ≤ lane

instance : Decidable (InUntwiddledRemainder target paddedWidth lane) := inferInstanceAs
  (Decidable (_ ∧ _))

theorem bodyAt_untwiddled (body rest : LaneButterfly) :
    bodyAt target paddedWidth lane body body rest =
      if InUntwiddledRemainder target paddedWidth lane then rest else body := by
  rw [bodyAt.eq_def]
  by_cases early : lane < paddedWidth / 64 * 32
  · rw [if_pos early, if_neg (fun untwiddled => absurd untwiddled.2 (Nat.not_le.mpr early))]
  · rw [if_neg early]
    cases target with
    | aarch64 => rw [if_neg (fun untwiddled => nomatch untwiddled.1)]
    | other => rw [if_pos ⟨rfl, Nat.not_lt.mp early⟩]

theorem bodyAt_same (body : LaneButterfly) :
    bodyAt target paddedWidth lane body body body = body := by
  rw [bodyAt_untwiddled, ite_self]

theorem atLane_ditLogic (computed : computeUnrollParams target paddedWidth = some params)
    (inside : lane < paddedWidth / 2) (s block offset : ℕ) (u v : Lanes) :
    atLane (stageUpdates (ditLogic target precomputations scales params n) n s block offset u v)
      lane = ditLane precomputations scales n s block offset (u lane) (v lane) := by
  by_cases first : s = 0
  · simp only [stageUpdates, ditLogic, if_pos first, ifftInnerLoopLogicScale,
      atLane_innerLoopLogic computed _ _ _ _ _ inside, bodyAt_same, ditLane]
  · simp only [stageUpdates, ditLogic, if_neg first, ifftInnerLoopLogicTwiddle,
      atLane_innerLoopLogic computed _ _ _ _ _ inside, bodyAt_same, ditLane]

theorem atLane_difLogic (computed : computeUnrollParams target paddedWidth = some params)
    (inside : lane < paddedWidth / 2) (s block offset : ℕ) (u v : Lanes) :
    atLane (stageUpdates (difLogic target precomputations scales params n) n s block offset u v)
      lane = difLane precomputations scales n (InUntwiddledRemainder target paddedWidth lane) s
        block offset (u lane) (v lane) := by
  by_cases first : s = 0
  · simp only [stageUpdates, difLogic, if_pos first, fftInnerLoopLogicScaleAndTwiddle,
      atLane_innerLoopLogic computed _ _ _ _ _ inside, bodyAt_untwiddled, difLane]
    by_cases untwiddled : InUntwiddledRemainder target paddedWidth lane
    · simp only [if_pos untwiddled]
    · simp only [if_neg untwiddled]
  by_cases last : s = n - 1
  · simp only [stageUpdates, difLogic, if_neg first, ne_eq, if_neg (not_not.mpr last),
      fftInnerLoopLogicTrivialTwiddle, atLane_innerLoopLogic computed _ _ _ _ _ inside, bodyAt_same,
      difLane]
  · simp only [stageUpdates, difLogic, if_neg first, ne_eq, if_pos last,
      fftInnerLoopLogicTwiddle, atLane_innerLoopLogic computed _ _ _ _ _ inside, bodyAt_same,
      difLane]

end LaneStages

/-! ## Both transforms on a lane -/

/-- The twiddles of both transforms: the powers of one element, in natural and in bit-reversed
order. -/
structure TransformTwiddles (n : ℕ) (ω : Mersenne31Complex) (natural reversal :
    List Mersenne31Complex) : Prop where
  natural : ∀ m, m + 1 = n → ∀ i < 2 ^ m, natural.getD i 0 = ω ^ i
  reversal : ∀ m, m + 1 = n → ∀ k < 2 ^ m, reversal.getD k 0 = ω ^ reversed m k

section LaneRuns

variable {n : ℕ} {ω : Mersenne31Complex} {natural reversal : List Mersenne31Complex}
  (scales : List Mersenne31Complex) (memory : ℕ → Mersenne31Complex)

theorem ditLane_eq (twiddles : TransformTwiddles n ω natural reversal) {s m : ℕ}
    (size : s + (m + 1) = n) (k : ℕ) {p : ℕ} (bound : p < 2 ^ s) :
    let u := scaledAtStart scales s memory (k * (2 * 2 ^ s) + p)
    let v := natural.getD (p * 2 ^ m) 0 • scaledAtStart scales s memory (k * (2 * 2 ^ s) + p + 2 ^ s)
    ditLane natural scales n s k p (memory (k * (2 * 2 ^ s) + p))
      (memory (k * (2 * 2 ^ s) + p + 2 ^ s)) = (u + v, u - v) := by
  have place : p + k * (2 ^ s * 2) = k * (2 * 2 ^ s) + p := by ring
  have commute : ∀ a b : Mersenne31Complex, a * b = b * a := mul_comm
  have rest : n - s - 1 = m := by omega
  by_cases first : s = 0
  · have zero : p = 0 := by
      rw [first, Nat.pow_zero] at bound
      omega
    have unit : natural.getD (p * 2 ^ m) 0 = 1 := by
      rw [zero, Nat.zero_mul, twiddles.natural m (by omega) 0 (Nat.two_pow_pos m), pow_zero]
    simp only [ditLane, if_pos first, scaledAtStart, place, unit, mul_one, smul_eq_mul, commute]
  · simp only [ditLane, if_neg first, scaledAtStart, rest, smul_eq_mul, commute]

theorem difLane_eq (twiddles : TransformTwiddles n ω natural reversal) {s m : ℕ}
    (size : s + (m + 1) = n) {k : ℕ} (block : k < 2 ^ m) (p : ℕ) :
    let u := scaledAtStart scales s memory (k * (2 * 2 ^ s) + p)
    let v := scaledAtStart scales s memory (k * (2 * 2 ^ s) + p + 2 ^ s)
    difLane reversal scales n False s k p (memory (k * (2 * 2 ^ s) + p))
      (memory (k * (2 * 2 ^ s) + p + 2 ^ s)) = (u + v, reversal.getD k 0 • (u - v)) := by
  have place : k * (2 ^ s * 2) + p = k * (2 * 2 ^ s) + p := by ring
  have commute : ∀ a b : Mersenne31Complex, a * b = b * a := mul_comm
  by_cases first : s = 0
  · simp only [difLane, if_pos first, if_false, scaledAtStart, place, smul_eq_mul, commute]
  by_cases last : s = n - 1
  · have zero : k = 0 := by
      rw [show m = 0 by omega, Nat.pow_zero] at block
      omega
    have unit : reversal.getD k 0 = 1 := by
      have none : reversed (n - 1) 0 = 0 := reversed_zero (n - 1)
      rw [zero, twiddles.reversal (n - 1) (by omega) 0 (Nat.two_pow_pos _), none, pow_zero]
    simp only [difLane, if_neg first, ne_eq, if_neg (not_not.mpr last), scaledAtStart, unit,
      one_smul]
  · simp only [difLane, if_neg first, ne_eq, if_pos last, scaledAtStart, smul_eq_mul, commute]

/-- The run of a transform on a lane, from the scaled rows on. -/
def laneRun (update : ℕ → ℕ → ℕ → LaneButterfly) (s : ℕ) : ℕ → Mersenne31Complex :=
  scaledAtStart scales s (risingStages update memory s)

theorem laneRun_succ (update : ℕ → ℕ → ℕ → LaneButterfly) (s : ℕ) :
    laneRun scales memory update (s + 1) =
      stageStep (update s) (2 ^ s) (risingStages update memory s) := by
  rw [laneRun, scaledAtStart, if_neg s.succ_ne_zero, risingStages]

theorem ditLane_run (twiddles : TransformTwiddles n ω natural reversal) :
    RisingRun n (fun i => natural.getD i 0)
      (laneRun scales memory (ditLane natural scales n)) := by
  intro s m size
  have power : 2 ^ (s + 1) = 2 * 2 ^ s := Nat.pow_succ'
  rw [laneRun_succ]
  constructor
  · intro k _ p bound
    rw [power, stageStep_low _ k bound, ditLane_eq scales _ twiddles size k bound]
    rfl
  · intro k _ p bound
    rw [power, stageStep_high _ k bound, ditLane_eq scales _ twiddles size k bound]
    rfl

theorem difLane_run (twiddles : TransformTwiddles n ω natural reversal) :
    DifferenceRun n (fun k => reversal.getD k 0)
      (laneRun scales memory (difLane reversal scales n False)) := by
  intro s m size
  have power : 2 ^ (s + 1) = 2 * 2 ^ s := Nat.pow_succ'
  rw [laneRun_succ]
  constructor
  · intro k block p bound
    rw [power, stageStep_low _ k bound, difLane_eq scales _ twiddles size block p]
    rfl
  · intro k block p bound
    rw [power, stageStep_high _ k bound, difLane_eq scales _ twiddles size block p]
    rfl

/-- With all twiddles both transforms agree on a lane. -/
theorem difLane_agrees (twiddles : TransformTwiddles n ω natural reversal) (several : n ≠ 0)
    {i : ℕ} (bound : i < 2 ^ n) :
    risingStages (difLane reversal scales n False) memory n i =
      risingStages (ditLane natural scales n) memory n i := by
  have agree := difference_twist twiddles.natural twiddles.reversal
    (ditLane_run scales memory twiddles) (difLane_run scales memory twiddles) (fun _ _ => rfl)
    (Nat.add_zero n) 0 Nat.one_pos i bound
  rw [Nat.zero_mul, Nat.zero_add, reversed, Nat.mul_zero, pow_zero, one_smul, laneRun, laneRun,
    scaledAtStart, scaledAtStart, if_neg several, if_neg several] at agree
  exact agree

/-- With two rows the twiddle is one. -/
theorem difLane_two_rows (twiddles : TransformTwiddles n ω natural reversal) (two : n = 1)
    (leavesOut : Prop) [Decidable leavesOut] {i : ℕ} (bound : i < 2 ^ n) :
    risingStages (difLane reversal scales n leavesOut) memory n i =
      risingStages (difLane reversal scales n False) memory n i := by
  subst two
  have unit : reversal.getD 0 0 = 1 := by
    rw [twiddles.reversal 0 rfl 0 Nat.one_pos, reversed, pow_zero]
  apply stageStep_map id Nat.one_pos
  intro low _
  have block : i / (2 * 1) = 0 := Nat.div_eq_of_lt bound
  rw [block]
  simp only [difLane, if_true, unit, mul_one, ite_self, id, risingStages]

/-- The place 1 where the row 2 is one and the others are zero. -/
theorem difLane_impulse (leavesOut : Prop) [Decidable leavesOut] (several : 2 ≤ n)
    (unscaled : ∀ j < 4, scales.getD j 0 = 1) :
    risingStages (difLane reversal scales n leavesOut) (fun i => if i = 2 then 1 else 0) n 1 =
      if leavesOut then 1 else reversal.getD 1 0 := by
  have low : ∀ s, s ≠ 0 → ∀ block offset u v,
      (difLane reversal scales n leavesOut s block offset u v).1 = u + v := by
    intro s later block offset u v
    rw [difLane, if_neg later]
    split <;> rfl
  have zero : ∀ s block offset,
      difLane reversal scales n leavesOut s block offset 0 0 = (0, 0) := by
    intro s block offset
    by_cases first : s = 0
    · simp only [difLane, if_pos first, zero_mul, add_zero, sub_zero, ite_self]
    · rw [difLane, if_neg first]
      by_cases last : s = n - 1
      · simp only [if_neg (not_not.mpr last), add_zero, sub_zero]
      · simp only [ne_eq, if_pos last, add_zero, sub_zero, zero_mul]
  have keeps : ∀ s, s ≠ 0 → ∀ block offset u,
      (difLane reversal scales n leavesOut s block offset u 0).1 = u := by
    intro s later block offset u
    rw [low s later, add_zero]
  have empty : ∀ i, 2 ^ 2 ≤ i → (if i = 2 then (1 : Mersenne31Complex) else 0) = 0 := by
    intro i behind
    exact if_neg (by omega)
  rw [risingStages_head zero keeps empty two_ne_zero several (by decide)]
  -- the first two stages
  have one : risingStages (difLane reversal scales n leavesOut)
      (fun i => if i = 2 then 1 else 0) 1 1 = 0 := congrArg Prod.snd (zero 0 0 0)
  have three : risingStages (difLane reversal scales n leavesOut)
      (fun i => if i = 2 then 1 else 0) 1 3 = if leavesOut then 1 else reversal.getD 1 0 := by
    change (if leavesOut then 1 * scales.getD 2 0 - 0 * scales.getD 3 0
      else (1 * scales.getD 2 0 - 0 * scales.getD 3 0) * reversal.getD 1 0) = _
    rw [unscaled 2 (by decide), mul_one, zero_mul, sub_zero, one_mul]
  have two : risingStages (difLane reversal scales n leavesOut) (fun i => if i = 2 then 1 else 0)
      2 1 = _ + _ := low 1 one_ne_zero 0 1
    (risingStages (difLane reversal scales n leavesOut) (fun i => if i = 2 then 1 else 0) 1 1)
    (risingStages (difLane reversal scales n leavesOut) (fun i => if i = 2 then 1 else 0) 1 3)
  rw [two, one, zero_add, three]

end LaneRuns

/-! ## When the transforms agree -/

/-- Both transforms stop, or both write the same rows. -/
def SameTrace (traceLen paddedWidth : ℕ) : Option (ℕ → Lanes) → Option (ℕ → Lanes) → Prop
  | some result, some other => ∀ i < traceLen, ∀ lane < paddedWidth / 2, result i lane = other i lane
  | none, none => True
  | _, _ => False

/-- The transforms write the same trace, for all threads, scales and inputs. -/
def DifMatchesDit (target : TargetArch) (N paddedWidth traceLen : ℕ) (natural reversal :
    List Mersenne31Complex) : Prop :=
  ∀ (schedule schedule' : Schedule) (numCores : ℕ) (scales : List Mersenne31Complex)
    (memory : ℕ → Lanes),
    SameTrace traceLen paddedWidth
      (parallelRowMajorFullLineFftDif target schedule N paddedWidth numCores traceLen reversal
        scales memory)
      (parallelRowMajorFullLineFftDit target schedule' N paddedWidth numCores traceLen natural
        scales memory)

section Agreement

variable {target : TargetArch} {N paddedWidth n : ℕ} {ω : Mersenne31Complex}
  {natural reversal : List Mersenne31Complex}

section Results

variable (schedule : Schedule) {numCores : ℕ} {scales : List Mersenne31Complex}
  (accepted : target.cacheLineMultiple ≤ N)
  (aligned : paddedWidth % target.cacheLineMultiple = 0) (scaled : scales.length = 2 ^ n)
  (several : n ≠ 0) (cores : numCores ≠ 0) (fit : CoresFit numCores n) (memory : ℕ → Lanes)

include accepted aligned scaled several cores fit

theorem dit_eq (asserted : AssertedLength n natural) :
    ∃ result, parallelRowMajorFullLineFftDit target schedule N paddedWidth numCores (2 ^ n) natural
        scales memory = some result ∧
      ∀ i < 2 ^ n, ∀ lane < paddedWidth / 2, result i lane =
        risingStages (ditLane natural scales n) (fun i => memory i lane) n i := by
  rcases computeUnrollParams_some aligned with ⟨params, computed⟩
  rcases fullLineTransform_eq .fftDit schedule (ditLogic target natural scales) accepted scaled
    several asserted computed cores fit memory with ⟨result, ran, rows⟩
  refine ⟨result, ran, ?_⟩
  intro i bound lane inside
  rw [rows i bound]
  refine (risingStages_map (fun row : Lanes => row lane) memory ?_ n i).symm
  intro s block offset u v
  exact (atLane_ditLogic natural scales n computed inside s block offset u v).symm

theorem dif_eq (asserted : AssertedLength n reversal) :
    ∃ result, parallelRowMajorFullLineFftDif target schedule N paddedWidth numCores (2 ^ n) reversal
        scales memory = some result ∧
      ∀ i < 2 ^ n, ∀ lane < paddedWidth / 2, result i lane =
        risingStages (difLane reversal scales n (InUntwiddledRemainder target paddedWidth lane))
          (fun i => memory i lane) n i := by
  rcases computeUnrollParams_some aligned with ⟨params, computed⟩
  rcases fullLineTransform_eq .fftDif schedule (difLogic target reversal scales) accepted scaled
    several asserted computed cores fit memory with ⟨result, ran, rows⟩
  refine ⟨result, ran, ?_⟩
  intro i bound lane inside
  rw [rows i bound]
  refine (risingStages_map (fun row : Lanes => row lane) memory ?_ n i).symm
  intro s block offset u v
  exact (atLane_difLogic reversal scales n computed inside s block offset u v).symm

end Results

theorem sameTrace_of_none {traceLen : ℕ} {first second : Option (ℕ → Lanes)}
    (stops : first = none) (alsoStops : second = none) :
    SameTrace traceLen paddedWidth first second := by
  rw [stops, alsoStops]
  exact trivial

theorem difLane_of_twiddled (scales : List Mersenne31Complex) {leavesOut : Prop}
    [Decidable leavesOut] (twiddled : ¬leavesOut) :
    difLane reversal scales n leavesOut = difLane reversal scales n False := by
  funext s block offset
  simp only [difLane, if_neg twiddled, if_false]

/-- With an unrolled remainder loop, or with few rows, the lanes agree. -/
theorem difLane_eq_ditLane (twiddles : TransformTwiddles n ω natural reversal) (several : n ≠ 0)
    (condition : target = .aarch64 ∨ paddedWidth % 64 = 0 ∨ n ≤ 1)
    (scales : List Mersenne31Complex) (memory : ℕ → Mersenne31Complex) {lane : ℕ}
    (inside : lane < paddedWidth / 2) {i : ℕ} (bound : i < 2 ^ n) :
    risingStages (difLane reversal scales n (InUntwiddledRemainder target paddedWidth lane)) memory
      n i = risingStages (ditLane natural scales n) memory n i := by
  have agree := difLane_agrees scales memory twiddles several bound
  rw [← agree]
  rcases condition with arm | full | few
  · rw [difLane_of_twiddled scales]
    intro untwiddled
    rw [arm] at untwiddled
    nomatch untwiddled.1
  · rw [difLane_of_twiddled scales]
    intro untwiddled
    have behind := untwiddled.2
    omega
  · exact difLane_two_rows scales memory twiddles (by omega) _ bound

theorem difMatchesDit_of_condition (twiddles : TransformTwiddles n ω natural reversal)
    (accepted : target.cacheLineMultiple ≤ N)
    (aligned : paddedWidth % target.cacheLineMultiple = 0) (assertedDit : AssertedLength n natural)
    (assertedDif : AssertedLength n reversal)
    (condition : target = .aarch64 ∨ paddedWidth % 64 = 0 ∨ n ≤ 1) :
    DifMatchesDit target N paddedWidth (2 ^ n) natural reversal := by
  intro schedule schedule' numCores scales memory
  by_cases scaled : scales.length = 2 ^ n
  swap
  · apply sameTrace_of_none
    · apply Option.eq_none_iff_forall_ne_some.mpr
      intro result ran
      exact scaled (fullLineTransform_scaled schedule ran)
    · apply Option.eq_none_iff_forall_ne_some.mpr
      intro result ran
      exact scaled (fullLineTransform_scaled schedule' ran)
  by_cases single : n = 0
  · rw [parallelRowMajorFullLineFftDif, parallelRowMajorFullLineFftDit,
      fullLineTransform_single schedule accepted scaled single,
      fullLineTransform_single schedule' accepted scaled single]
    intro i _ lane _
    rfl
  by_cases fits : numCores ≠ 0 ∧ CoresFit numCores n
  · rcases dif_eq schedule accepted aligned scaled single fits.1 fits.2 memory assertedDif with
      ⟨result, ran, rows⟩
    rcases dit_eq schedule' accepted aligned scaled single fits.1 fits.2 memory assertedDit with
      ⟨other, otherRan, otherRows⟩
    rw [ran, otherRan]
    intro i bound lane inside
    rw [rows i bound lane inside, otherRows i bound lane inside]
    exact difLane_eq_ditLane twiddles single condition scales _ inside bound
  · rcases computeUnrollParams_some aligned with ⟨params, computed⟩
    apply sameTrace_of_none
    · apply Option.eq_none_iff_forall_ne_some.mpr
      intro result ran
      exact fits (fullLineTransform_runs schedule accepted scaled single assertedDif computed ran)
    · apply Option.eq_none_iff_forall_ne_some.mpr
      intro result ran
      exact fits (fullLineTransform_runs schedule' accepted scaled single assertedDit computed ran)

/-- The remainder loop shows in its first lane as soon as a twiddle differs from one. -/
theorem condition_of_difMatchesDit (twiddles : TransformTwiddles n ω natural reversal)
    (root : ∀ m, m + 1 = n → ω ^ 2 ^ m = -1) (accepted : target.cacheLineMultiple ≤ N)
    (aligned : paddedWidth % target.cacheLineMultiple = 0) (assertedDit : AssertedLength n natural)
    (assertedDif : AssertedLength n reversal)
    (same : DifMatchesDit target N paddedWidth (2 ^ n) natural reversal) :
    target = .aarch64 ∨ paddedWidth % 64 = 0 ∨ n ≤ 1 := by
  cases target with
  | aarch64 => exact Or.inl rfl
  | other =>
      right
      by_contra neither
      push Not at neither
      rcases neither with ⟨partially, several⟩
      have columns : paddedWidth % 16 = 0 := aligned
      have inside : paddedWidth / 64 * 32 < paddedWidth / 2 := by omega
      rcases Nat.exists_eq_add_of_lt several with ⟨m, size⟩
      have rows : 1 < 2 ^ n := Nat.one_lt_two_pow (by omega)
      let schedule : Schedule := ⟨fun _ places => places, fun _ places => List.Perm.refl places⟩
      let impulse : ℕ → Lanes := fun i _ => if i = 2 then 1 else 0
      let ones : List Mersenne31Complex := List.replicate (2 ^ n) 1
      have length : ones.length = 2 ^ n := List.length_replicate
      have unscaled : ∀ j < 4, ones.getD j 0 = 1 := by
        intro j small
        have four : 4 ≤ 2 ^ n := Nat.pow_le_pow_right Nat.two_pos (show 2 ≤ n by omega)
        rw [List.getD_eq_getElem?_getD, List.getElem?_replicate_of_lt (by omega), Option.getD_some]
      have fit : CoresFit 1 n :=
        (coresFit_iff (Nat.two_pow_pos _)).mpr (Nat.two_pow_pos _)
      have agree := same schedule schedule 1 ones impulse
      rcases dif_eq schedule accepted aligned length (by omega) one_ne_zero fit impulse assertedDif
        with ⟨result, ran, differences⟩
      rcases dit_eq schedule accepted aligned length (by omega) one_ne_zero fit impulse assertedDit
        with ⟨other, otherRan, sums⟩
      rw [ran, otherRan] at agree
      have lane := agree 1 rows _ inside
      have remainder : InUntwiddledRemainder .other paddedWidth (paddedWidth / 64 * 32) :=
        ⟨rfl, Nat.le_refl _⟩
      rw [differences 1 rows _ inside, sums 1 rows _ inside,
        ← difLane_agrees ones _ twiddles (by omega) rows, difLane_impulse _ _ several unscaled,
        difLane_impulse _ _ several unscaled, if_pos remainder, if_neg not_false] at lane
      -- the twiddle is a square root of minus one
      have exponent : reversed (m + 1) 1 = 2 ^ m := by
        rw [reversed, reversed_zero]
        omega
      have twiddle := twiddles.reversal (m + 1) (by omega) 1 (Nat.one_lt_two_pow (by omega))
      have half := root (m + 1) (by omega)
      rw [exponent] at twiddle
      rw [Nat.pow_succ, pow_mul, ← twiddle, ← lane, one_pow] at half
      exact absurd half (by decide)

/-- The precomputed twiddles in both orders. -/
theorem transformTwiddles_of_precomputed {cores : ℕ} (nonzero : cores ≠ 0)
    (forward : precomputeTwiddlesForFft false cores (2 ^ n) = some reversal)
    (reordered : bitreverseEnumerationInplace reversal = some natural) :
    TransformTwiddles n (domainRoot n) natural reversal ∧ AssertedLength n natural ∧
      AssertedLength n reversal := by
  have narrow := le_of_precomputeTwiddlesForFft forward
  cases n with
  | zero =>
      have small : ¬16 ≤ 2 ^ 0 := by decide
      refine ⟨⟨?_, ?_⟩, fun large => absurd large small, fun large => absurd large small⟩
      · intro m size
        exact absurd size m.succ_ne_zero
      · intro m size
        exact absurd size m.succ_ne_zero
  | succ n =>
      have power : 2 ^ (n + 1) = 2 ^ n * 2 := Nat.pow_succ 2 n
      rw [precomputeTwiddlesForFft_eq nonzero narrow false] at forward
      cases forward
      rw [bitreverseEnumerationInplace_eq (by omega)] at reordered
      cases reordered
      refine ⟨⟨?_, ?_⟩, ?_, ?_⟩
      · intro m size i bound
        cases size
        rw [getD_map_range _ bound, reversed_reversed bound]
        rfl
      · intro m size k bound
        cases size
        rw [getD_map_range _ bound]
        rfl
      · intro _
        rw [List.length_map, List.length_range, power]
      · intro _
        rw [List.length_map, List.length_range, power]

/-- The values that the stages leave on a lane. -/
theorem risingStages_ditLane (twiddles : TransformTwiddles n ω natural reversal) (several : n ≠ 0)
    (half : ∀ m, m + 1 = n → ω ^ 2 ^ m = -1) (scales : List Mersenne31Complex)
    (memory : ℕ → Mersenne31Complex) {i : ℕ} (bound : i < 2 ^ n) :
    risingStages (ditLane natural scales n) memory n i =
      ∑ q ∈ Finset.range (2 ^ n), ω ^ (i * reversed n q) • scales.getD q 0 • memory q := by
  have result := rising_result half twiddles.natural (ditLane_run scales memory twiddles) bound
  rw [laneRun, scaledAtStart, if_neg several] at result
  exact result

/-- With the precomputed twiddles the unrolled loops do to all lanes of the rows what
`parallelRowMajorFullLineFftDit` over whole rows does to them. -/
theorem dit_eq_wholeRows {cores numCores : ℕ} (schedule schedule' : Schedule)
    {scales : List Mersenne31Complex} (nonzero : cores ≠ 0) (several : n ≠ 0)
    (accepted : target.cacheLineMultiple ≤ N)
    (aligned : paddedWidth % target.cacheLineMultiple = 0)
    (forward : precomputeTwiddlesForFft false cores (2 ^ n) = some reversal)
    (reordered : bitreverseEnumerationInplace reversal = some natural)
    (scaled : scales.length = 2 ^ n) (working : numCores ≠ 0) (fit : CoresFit numCores n)
    (memory : ℕ → Lanes) :
    ∃ result whole,
      parallelRowMajorFullLineFftDit target schedule N paddedWidth numCores (2 ^ n) natural scales
          memory = some result ∧
        Fft.parallelRowMajorFullLineFftDit target schedule' N paddedWidth numCores (2 ^ n) natural
          scales (fun row (pair : Fin (paddedWidth / 2)) => memory row pair) = some whole ∧
        ∀ i < 2 ^ n, ∀ pair : Fin (paddedWidth / 2), whole i pair = result i pair := by
  rcases transformTwiddles_of_precomputed nonzero forward reordered with
    ⟨twiddles, assertedDit, _⟩
  have narrow := le_of_precomputeTwiddlesForFft forward
  have half : ∀ m, m + 1 = n → domainRoot n ^ 2 ^ m = -1 := by
    intro m size
    cases size
    exact domainRoot_half narrow
  rcases dit_eq schedule accepted aligned scaled several working fit memory assertedDit with
    ⟨result, ran, lanes⟩
  obtain ⟨k, rfl⟩ : ∃ k, n = k + 1 := ⟨n - 1, by omega⟩
  have powers : natural = (List.range (2 ^ k)).map fun i => domainRoot (k + 1) ^ i := by
    rw [precomputeTwiddlesForFft_eq nonzero narrow false] at forward
    cases forward
    rw [bitreverseEnumerationInplace_eq (by omega)] at reordered
    cases reordered
    refine List.map_congr_left fun i member => ?_
    rw [reversed_reversed (List.mem_range.mp member)]
    rfl
  have entries : scales = (List.range (2 ^ (k + 1))).map fun i => scales.getD i 0 := by
    refine List.ext_getElem (by rw [List.length_map, List.length_range, scaled]) ?_
    intro i inside _
    rw [List.getElem_map, List.getElem_range, List.getD_eq_getElem?_getD,
      List.getElem?_eq_getElem inside, Option.getD_some]
  rcases parallelRowMajorFullLineFftDit_eq schedule' accepted aligned working fit (half k rfl)
    (fun i => scales.getD i 0) (fun row (pair : Fin (paddedWidth / 2)) => memory row pair) with
    ⟨whole, wholeRan, rows⟩
  rw [← powers, ← entries] at wholeRan
  refine ⟨result, whole, ran, wholeRan, ?_⟩
  intro i bound pair
  rw [rows i bound, lanes i bound pair pair.isLt,
    risingStages_ditLane twiddles several half scales _ bound, Finset.sum_apply]
  rfl

/-- With the precomputed twiddles the transforms write the same trace exactly where the remainder
loop of the target is the one for aarch64, is empty, or meets no twiddle but one. -/
theorem difMatchesDit_iff {cores : ℕ} (nonzero : cores ≠ 0)
    (accepted : target.cacheLineMultiple ≤ N)
    (aligned : paddedWidth % target.cacheLineMultiple = 0)
    (forward : precomputeTwiddlesForFft false cores (2 ^ n) = some reversal)
    (reordered : bitreverseEnumerationInplace reversal = some natural) :
    DifMatchesDit target N paddedWidth (2 ^ n) natural reversal ↔
      target = .aarch64 ∨ paddedWidth % 64 = 0 ∨ n ≤ 1 := by
  rcases transformTwiddles_of_precomputed nonzero forward reordered with
    ⟨twiddles, assertedDit, assertedDif⟩
  have narrow := le_of_precomputeTwiddlesForFft forward
  constructor
  · apply condition_of_difMatchesDit twiddles _ accepted aligned assertedDit assertedDif
    intro m size
    cases size
    exact domainRoot_half narrow
  · exact difMatchesDit_of_condition twiddles accepted aligned assertedDit assertedDif

end Agreement

theorem difMatchesDit_iff_four_rows :
    ∃ reversal natural, precomputeTwiddlesForFft false 1 (2 ^ 2) = some reversal ∧
      bitreverseEnumerationInplace reversal = some natural ∧
        (DifMatchesDit .other 16 16 (2 ^ 2) natural reversal ↔
          TargetArch.other = .aarch64 ∨ 16 % 64 = 0 ∨ 2 ≤ 1) := by
  have forward := precomputeTwiddlesForFft_eq one_ne_zero (show 1 + 1 ≤ 31 by decide) false
  have reordered := bitreverseEnumerationInplace_eq (show 1 ≤ 31 by decide)
    fun i => domainRoot 2 ^ reversed 1 i
  exact ⟨_, _, forward, reordered, difMatchesDit_iff one_ne_zero (Nat.le_refl 16) rfl forward
    reordered⟩

/-- Four rows of which one has ones, on the portable target. -/
theorem dif_differs_from_dit :
    let schedule : Schedule := ⟨fun _ places => places, fun _ places => List.Perm.refl places⟩
    let impulse : ℕ → Lanes := fun i _ => if i = 2 then 1 else 0
    let twiddles : List Mersenne31Complex := [1, ⟨0, -1⟩]
    precomputeTwiddlesForFft false 1 4 = some twiddles ∧
      bitreverseEnumerationInplace twiddles = some twiddles ∧
        (parallelRowMajorFullLineFftDif .other schedule 16 16 1 4 twiddles [1, 1, 1, 1] impulse).map
          (fun result => result 1 0) = some 1 ∧
        (parallelRowMajorFullLineFftDit .other schedule 16 16 1 4 twiddles [1, 1, 1, 1] impulse).map
          (fun result => result 1 0) = some ⟨0, -1⟩ ∧
        (⟨0, -1⟩ : Mersenne31Complex) ≠ 1 := by
  refine ⟨?_, ?_, ?_, ?_, ?_⟩
  · decide +kernel
  · decide +kernel
  · decide +kernel
  · decide +kernel
  · decide +kernel

end Airbender.Fft.Unrolled
