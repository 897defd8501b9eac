import Airbender.Fft.Worker
import Airbender.Field.Complex
import Mathlib.Logic.Function.Basic

/-!
# Unrolled loops over two rows

The butterflies of the transforms over whole rows go through the pairs of columns in a loop that is
unrolled, and a remainder loop that is written for every target on its own.
-/

namespace Airbender.Fft

/-- The targets that the loops tell apart. -/
inductive TargetArch where
  | aarch64
  | other
deriving DecidableEq, Repr

/-- `CACHE_LINE_MULTIPLE`: the cache line in base-field elements. -/
def TargetArch.cacheLineMultiple : TargetArch → ℕ
  | aarch64 => 32
  | other => 16

/-- `FFT_UNROLL_FACTOR`. -/
def fftUnrollFactor : ℕ := 64

structure UnrollParams where
  unrollStageOffset : ℕ
  numUnrolledCycles : ℕ
  numRemainderPasses : ℕ
  paddedRemainder : ℕ

/-- `compute_unroll_params`. -/
def computeUnrollParams (target : TargetArch) (paddedWidth : ℕ) : Option UnrollParams := do
  guard (paddedWidth % target.cacheLineMultiple = 0)
  if paddedWidth < fftUnrollFactor then
    return ⟨fftUnrollFactor, 0, paddedWidth / target.cacheLineMultiple, target.cacheLineMultiple⟩
  if paddedWidth % fftUnrollFactor = 0 then
    return ⟨fftUnrollFactor, paddedWidth / fftUnrollFactor, 0, 0⟩
  return ⟨fftUnrollFactor, paddedWidth / fftUnrollFactor,
    paddedWidth % fftUnrollFactor / target.cacheLineMultiple, target.cacheLineMultiple⟩

/-- The cycles and the passes fill the padded width. -/
structure UnrollsWidth (target : TargetArch) (paddedWidth : ℕ) (params : UnrollParams) : Prop where
  offset : params.unrollStageOffset = 64
  cycles : params.numUnrolledCycles = paddedWidth / 64
  passes : params.numRemainderPasses * target.cacheLineMultiple = paddedWidth % 64
  remainder : params.paddedRemainder = 0 → paddedWidth % 64 = 0

theorem aligned_of_computeUnrollParams {target : TargetArch} {paddedWidth : ℕ}
    {params : UnrollParams} (computed : computeUnrollParams target paddedWidth = some params) :
    paddedWidth % target.cacheLineMultiple = 0 := by
  rcases Option.bind_eq_some_iff.mp computed with ⟨_, multiple, _⟩
  exact (Option.guard_eq_some' ()).mp multiple

theorem computeUnrollParams_fills {target : TargetArch} {paddedWidth : ℕ} {params : UnrollParams}
    (computed : computeUnrollParams target paddedWidth = some params) :
    UnrollsWidth target paddedWidth params := by
  have aligned := aligned_of_computeUnrollParams computed
  rcases Option.bind_eq_some_iff.mp computed with ⟨_, _, body⟩
  have positive : target.cacheLineMultiple ≠ 0 := by
    cases target <;> decide
  have divides : target.cacheLineMultiple ∣ 64 := by
    cases target <;> decide
  have rest : target.cacheLineMultiple ∣ paddedWidth % 64 :=
    (Nat.dvd_mod_iff divides).mpr (Nat.dvd_of_mod_eq_zero aligned)
  by_cases narrow : paddedWidth < fftUnrollFactor
  · rw [if_pos narrow] at body
    cases body
    have small : paddedWidth % 64 = paddedWidth := Nat.mod_eq_of_lt narrow
    refine ⟨rfl, (Nat.div_eq_of_lt narrow).symm, ?_, fun none => absurd none positive⟩
    rw [small] at rest ⊢
    exact Nat.div_mul_cancel rest
  rw [if_neg narrow] at body
  by_cases full : paddedWidth % fftUnrollFactor = 0
  · rw [if_pos full] at body
    cases body
    exact ⟨rfl, rfl, (Nat.zero_mul _).trans full.symm, fun _ => full⟩
  · rw [if_neg full] at body
    cases body
    exact ⟨rfl, rfl, Nat.div_mul_cancel rest, fun none => absurd none positive⟩

theorem computeUnrollParams_some {target : TargetArch} {paddedWidth : ℕ}
    (aligned : paddedWidth % target.cacheLineMultiple = 0) :
    ∃ params, computeUnrollParams target paddedWidth = some params := by
  rw [computeUnrollParams, guard_of aligned]
  split
  · exact ⟨_, rfl⟩
  · split <;> exact ⟨_, rfl⟩

/-- A padded row as complex numbers: a lane is a pair of adjacent columns. -/
abbrev Lanes := ℕ → Mersenne31Complex

/-- What a loop does to one lane of two rows. -/
abbrev LaneButterfly := Mersenne31Complex → Mersenne31Complex → Mersenne31Complex × Mersenne31Complex

def updateLane (butterfly : LaneButterfly) (rows : Lanes × Lanes) (lane : ℕ) : Lanes × Lanes :=
  let result := butterfly (rows.1 lane) (rows.2 lane)
  (Function.update rows.1 lane result.1, Function.update rows.2 lane result.2)

/-- A loop over `count` lanes. -/
def laneLoop (butterfly : LaneButterfly) (first count : ℕ) (rows : Lanes × Lanes) :
    Lanes × Lanes :=
  (List.range' first count).foldl (updateLane butterfly) rows

/-- The unrolled loop and the remainder loop of the target, of which each has its own body. -/
def innerLoopLogic (target : TargetArch) (params : UnrollParams)
    (unrolled remainderOnAarch64 remainderOnOther : LaneButterfly) (u v : Lanes) : Lanes × Lanes :=
  let rows := (List.range params.numUnrolledCycles).foldl
    (fun rows cycle => laneLoop unrolled (cycle * (params.unrollStageOffset / 2)) 32 rows) (u, v)
  let next := params.numUnrolledCycles * (params.unrollStageOffset / 2)
  if params.paddedRemainder ≠ 0 then
    match target with
    | .aarch64 => laneLoop remainderOnAarch64 next 16 rows
    | .other => (List.range params.numRemainderPasses).foldl
        (fun rows pass => laneLoop remainderOnOther
          (next + pass * (TargetArch.other.cacheLineMultiple / 2)) 8 rows) rows
  else
    rows

/-! ## The loops of the transforms -/

section Logics

variable (target : TargetArch) (params : UnrollParams)

/-- `ifft_inner_loop_logic_scale`. -/
def ifftInnerLoopLogicScale (uScale vScale : Mersenne31Complex) : Lanes → Lanes → Lanes × Lanes :=
  let butterfly : LaneButterfly := fun u v => (u * uScale + v * vScale, u * uScale - v * vScale)
  innerLoopLogic target params butterfly butterfly butterfly

/-- `ifft_inner_loop_logic_twiddle`. -/
def ifftInnerLoopLogicTwiddle (twiddle : Mersenne31Complex) : Lanes → Lanes → Lanes × Lanes :=
  let butterfly : LaneButterfly := fun u v => (u + v * twiddle, u - v * twiddle)
  innerLoopLogic target params butterfly butterfly butterfly

/-- `fft_inner_loop_logic_trivial_twiddle`, which goes through single columns. -/
def fftInnerLoopLogicTrivialTwiddle : Lanes → Lanes → Lanes × Lanes :=
  let butterfly : LaneButterfly := fun u v => (u + v, u - v)
  innerLoopLogic target params butterfly butterfly butterfly

/-- `fft_inner_loop_logic_twiddle`. -/
def fftInnerLoopLogicTwiddle (twiddle : Mersenne31Complex) : Lanes → Lanes → Lanes × Lanes :=
  let butterfly : LaneButterfly := fun u v => (u + v, (u - v) * twiddle)
  innerLoopLogic target params butterfly butterfly butterfly

/-- `fft_inner_loop_logic_scale_and_twiddle`; the remainder loop of the other targets does not
multiply by the twiddle. -/
def fftInnerLoopLogicScaleAndTwiddle (uScale vScale twiddle : Mersenne31Complex) :
    Lanes → Lanes → Lanes × Lanes :=
  let butterfly : LaneButterfly := fun u v =>
    (u * uScale + v * vScale, (u * uScale - v * vScale) * twiddle)
  let untwiddled : LaneButterfly := fun u v => (u * uScale + v * vScale, u * uScale - v * vScale)
  innerLoopLogic target params butterfly butterfly untwiddled

end Logics

/-! ## What the loops do to one lane -/

/-- One lane of two rows. -/
def atLane (rows : Lanes × Lanes) (lane : ℕ) : Mersenne31Complex × Mersenne31Complex :=
  (rows.1 lane, rows.2 lane)

theorem atLane_laneLoop (butterfly : LaneButterfly) (first count : ℕ) (rows : Lanes × Lanes)
    (lane : ℕ) :
    atLane (laneLoop butterfly first count rows) lane =
      if first ≤ lane ∧ lane < first + count then butterfly (rows.1 lane) (rows.2 lane)
      else atLane rows lane := by
  induction count generalizing first rows with
  | zero =>
      rw [if_neg (by omega)]
      rfl
  | succ count inductionHypothesis =>
      have step : laneLoop butterfly first (count + 1) rows =
          laneLoop butterfly (first + 1) count (updateLane butterfly rows first) := rfl
      rw [step, inductionHypothesis]
      by_cases here : lane = first
      · subst here
        rw [if_neg (by omega), if_pos (by omega), atLane, updateLane]
        simp only [Function.update_self]
      · simp only [atLane, updateLane, Function.update_of_ne here]
        by_cases inside : first ≤ lane ∧ lane < first + (count + 1)
        · rw [if_pos inside, if_pos (by omega)]
        · rw [if_neg inside, if_neg (by omega)]

/-- Loops that follow each other are one loop. -/
theorem foldl_laneLoop (butterfly : LaneButterfly) (first width cycles : ℕ)
    (rows : Lanes × Lanes) :
    (List.range cycles).foldl
      (fun rows cycle => laneLoop butterfly (first + cycle * width) width rows) rows =
      laneLoop butterfly first (cycles * width) rows := by
  induction cycles with
  | zero => rw [Nat.zero_mul]; rfl
  | succ cycles inductionHypothesis =>
      rw [List.range_succ, List.foldl_append, inductionHypothesis, List.foldl_cons, List.foldl_nil,
        laneLoop, laneLoop, laneLoop, ← List.foldl_append, List.range'_append_1, Nat.succ_mul]

/-- The body that works on a lane. -/
def bodyAt (target : TargetArch) (paddedWidth lane : ℕ)
    (unrolled remainderOnAarch64 remainderOnOther : LaneButterfly) : LaneButterfly :=
  if lane < paddedWidth / 64 * 32 then unrolled
  else
    match target with
    | .aarch64 => remainderOnAarch64
    | .other => remainderOnOther

theorem bodyAt_unrolled (target : TargetArch) {paddedWidth lane : ℕ}
    (early : lane < paddedWidth / 64 * 32)
    (unrolled remainderOnAarch64 remainderOnOther : LaneButterfly) :
    bodyAt target paddedWidth lane unrolled remainderOnAarch64 remainderOnOther = unrolled :=
  if_pos early

/-- Together the loops work on every lane of the padded width once. -/
theorem atLane_innerLoopLogic {target : TargetArch} {paddedWidth : ℕ} {params : UnrollParams}
    (computed : computeUnrollParams target paddedWidth = some params)
    (unrolled remainderOnAarch64 remainderOnOther : LaneButterfly) (u v : Lanes) {lane : ℕ}
    (inside : lane < paddedWidth / 2) :
    atLane (innerLoopLogic target params unrolled remainderOnAarch64 remainderOnOther u v) lane =
      bodyAt target paddedWidth lane unrolled remainderOnAarch64 remainderOnOther (u lane)
        (v lane) := by
  have fills := computeUnrollParams_fills computed
  have cycles : (List.range (paddedWidth / 64)).foldl
      (fun rows cycle => laneLoop unrolled (cycle * (64 / 2)) 32 rows) (u, v) =
        laneLoop unrolled 0 (paddedWidth / 64 * 32) (u, v) := by
    rw [← foldl_laneLoop]
    simp only [Nat.zero_add]
  have first := atLane_laneLoop unrolled 0 (paddedWidth / 64 * 32) (u, v) lane
  simp only [innerLoopLogic, fills.offset, fills.cycles, cycles]
  by_cases none : params.paddedRemainder = 0
  · have full := fills.remainder none
    rw [if_neg (not_not.mpr none), first, if_pos (by omega), bodyAt_unrolled target (by omega)]
  rw [if_pos none]
  -- a loop over the lanes behind the unrolled ones
  have behind : ∀ body count, paddedWidth / 2 ≤ paddedWidth / 64 * 32 + count →
      atLane (laneLoop body (paddedWidth / 64 * 32) count
        (laneLoop unrolled 0 (paddedWidth / 64 * 32) (u, v))) lane =
        if lane < paddedWidth / 64 * 32 then unrolled (u lane) (v lane)
        else body (u lane) (v lane) := by
    intro body count enough
    rw [atLane_laneLoop]
    by_cases early : lane < paddedWidth / 64 * 32
    · rw [if_neg (by omega), if_pos early, first, if_pos (by omega)]
    · have untouched := first
      rw [if_neg (by omega), atLane, atLane, Prod.mk.injEq] at untouched
      rw [if_pos (by omega), if_neg early, untouched.1, untouched.2]
  have passes := fills.passes
  cases target with
  | aarch64 =>
      rw [TargetArch.cacheLineMultiple] at passes
      refine (behind remainderOnAarch64 16 (by omega)).trans ?_
      exact (apply_ite (fun body : LaneButterfly => body (u lane) (v lane)) _ _ _).symm
  | other =>
      rw [TargetArch.cacheLineMultiple] at passes
      have loop := foldl_laneLoop remainderOnOther (paddedWidth / 64 * 32) 8
        params.numRemainderPasses (laneLoop unrolled 0 (paddedWidth / 64 * 32) (u, v))
      refine (congrArg (fun rows => atLane rows lane) loop).trans ?_
      refine (behind remainderOnOther _ (by omega)).trans ?_
      exact (apply_ite (fun body : LaneButterfly => body (u lane) (v lane)) _ _ _).symm

end Airbender.Fft
