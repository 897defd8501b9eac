import Airbender.Fft.Precomputes
import Airbender.Lib.FourierInterpolation
import Airbender.Lib.PairUpdates
import Mathlib.Data.Nat.Cast.Field

/-!
# Transforms of one column

The transforms of a slice in place.  They go through the same butterflies in different orders: the
serial one stage by stage, the cache-friendly one with all later stages of one bunch together.
-/

namespace Airbender.Fft

open PairUpdates

/-! ## The loops -/

section Loops

variable {K V : Type} [Zero K]

/-- The first stage, which has one group; `update` may depend on the offset. -/
def firstStage (update : ℕ → V → V → V × V) (pairsPerGroup distance : ℕ) (a : List V) :
    Option (List V) :=
  (List.range pairsPerGroup).foldlM (fun a j => pairAt (update j) distance a j) a

/-- A stage of groups that follow each other; every group has one twiddle. -/
def stageLoop (update : K → V → V → V × V) (omegasBitReversed : List K)
    (start firstGroup numGroups pairsPerGroup distance : ℕ) (a : List V) : Option (List V) :=
  (List.range numGroups).foldlM
    (fun a k => do
      let idx₁ := start + k * pairsPerGroup * 2
      let s ← omegasBitReversed[firstGroup + k]?
      (List.range' idx₁ pairsPerGroup).foldlM (pairAt (update s) distance) a)
    a

/-- The loop `while num_groups < n`; it ends before `fuel` runs out. -/
def groupRounds (update : K → V → V → V × V) (omegasBitReversed : List K) (n : ℕ) :
    (fuel pairsPerGroup numGroups distance : ℕ) → List V → Option (List V)
  | 0, _, _, _, _ => none
  | fuel + 1, pairsPerGroup, numGroups, distance, a =>
      if numGroups < n then do
        let a ← stageLoop update omegasBitReversed 0 0 numGroups pairsPerGroup distance a
        groupRounds update omegasBitReversed n fuel (pairsPerGroup / 2) (numGroups * 2)
          (distance / 2) a
      else
        some a

/-- Stages at falling distances, the first of them with updates of its own. -/
def naturalToBitreversed (first : ℕ → V → V → V × V) (update : K → V → V → V × V)
    (omegasBitReversed : List K) (a : List V) : Option (List V) := do
  let n := a.length
  let pairsPerGroup := n / 2
  let distance := n / 2
  let a ← firstStage first pairsPerGroup distance a
  groupRounds update omegasBitReversed n n (pairsPerGroup / 2) 2 (distance / 2) a

end Loops

/-! ## The transforms -/

section Transforms

variable {K V : Type} [Field K] [AddCommGroup V] [Module K V]

/-- The butterfly of the stage with the trivial twiddle. -/
def plainButterfly (u v : V) : V × V := (u + v, u - v)

/-- The butterfly that multiplies the higher place before. -/
def twiddledButterfly (s : K) (u v : V) : V × V := (u + s • v, u - s • v)

/-- The butterfly that multiplies the difference. -/
def differenceButterfly (s : K) (u v : V) : V × V := (u + v, s • (u - v))

/-- `serial_ct_ntt_natural_to_bitreversed`. -/
def serialCtNttNaturalToBitreversed (a : List V) (omegasBitReversed : List K) :
    Option (List V) :=
  if a.length = 1 then
    some a
  else
    naturalToBitreversed (fun _ => plainButterfly) twiddledButterfly omegasBitReversed a

/-- The loop `while num_groups > 1`, with the size of the last group; it ends before `fuel` runs
out. -/
def bitreversedRounds (omegasBitReversed : List K) :
    (fuel pairsPerGroup numGroups distance : ℕ) → List V → Option (ℕ × ℕ × List V)
  | 0, _, _, _, _ => none
  | fuel + 1, pairsPerGroup, numGroups, distance, a =>
      if 1 < numGroups then do
        let a ← stageLoop differenceButterfly omegasBitReversed 0 0 numGroups pairsPerGroup
          distance a
        bitreversedRounds omegasBitReversed fuel (pairsPerGroup * 2) (numGroups / 2)
          (distance * 2) a
      else
        some (pairsPerGroup, distance, a)

/-- `serial_ct_ntt_bitreversed_to_natural`. -/
def serialCtNttBitreversedToNatural (a : List V) (omegasBitReversed : List K) :
    Option (List V) := do
  let n := a.length
  if n = 1 then
    return a
  let (pairsPerGroup, distance, a) ← bitreversedRounds omegasBitReversed n 1 (n / 2) 1 a
  firstStage (fun _ => plainButterfly) pairsPerGroup distance a

/-- The binary logarithm of the number of elements that fit into the cache. -/
def cacheBunchLog : ℕ := 20 - 3

/-- The loop `while round < cache_friendly_round`, where `left` rounds are left. -/
def largeRounds (omegasBitReversed : List K) :
    (left pairsPerGroup numGroups distance round : ℕ) → List V →
      Option (ℕ × ℕ × ℕ × ℕ × List V)
  | 0, pairsPerGroup, numGroups, distance, round, a =>
      some (pairsPerGroup, numGroups, distance, round, a)
  | left + 1, pairsPerGroup, numGroups, distance, round, a => do
      let a ← stageLoop twiddledButterfly omegasBitReversed 0 0 numGroups pairsPerGroup distance a
      largeRounds omegasBitReversed left (pairsPerGroup / 2) (numGroups * 2) (distance / 2)
        (round + 1) a

/-- The rounds of one bunch, where `left` rounds are left. -/
def cacheRounds (omegasBitReversed : List K) (start cacheBunch : ℕ) :
    (left pairsPerGroupInCache numGroupsInCache distanceInCache : ℕ) → List V → Option (List V)
  | 0, _, _, _, a => some a
  | left + 1, pairsPerGroupInCache, numGroupsInCache, distanceInCache, a => do
      let a ← stageLoop twiddledButterfly omegasBitReversed start (cacheBunch * numGroupsInCache)
        numGroupsInCache pairsPerGroupInCache distanceInCache a
      cacheRounds omegasBitReversed start cacheBunch left (pairsPerGroupInCache / 2)
        (numGroupsInCache * 2) (distanceInCache / 2) a

/-- `cache_friendly_ntt_natural_to_bitreversed`. -/
def cacheFriendlyNttNaturalToBitreversed (a : List V) (logN : ℕ) (omegasBitReversed : List K) :
    Option (List V) := do
  let n := a.length
  if n = 1 then
    return a
  let cacheFriendlyRound := logN - cacheBunchLog
  let a ← firstStage (fun _ => plainButterfly) (n / 2) (n / 2) a
  let (pairsPerGroup, numGroups, distance, round, a) ← largeRounds omegasBitReversed
    (cacheFriendlyRound - 1) (n / 2 / 2) 2 (n / 2 / 2) 1 a
  (List.range numGroups).foldlM
    (fun a cacheBunch => cacheRounds omegasBitReversed (cacheBunch * pairsPerGroup * 2) cacheBunch
      (logN - round) pairsPerGroup 1 distance a)
    a

end Transforms

/-! ## What the loops do to the places -/

section LoopResults

variable {K V : Type} [Zero K] {n : ℕ} {a : List V} {memory : ℕ → V}

/-- A loop over the lower half of one group. -/
theorem groupLoop_holds {update : ℕ → V → V → V × V} {distance block : ℕ}
    (holds : Holds n a memory) (positive : 0 < distance) (inside : (block + 1) * (2 * distance) ≤ n) :
    ∃ result, (List.range distance).foldlM
        (fun a j => pairAt (update j) distance a (block * (2 * distance) + j)) a = some result ∧
      Holds n result (updateAll ((List.range distance).map fun j =>
        updateAt distance (fun _ => update) (block, j)) memory) := by
  have each : ∀ j ∈ List.range distance, ∀ (a : List V) (memory : ℕ → V), Holds n a memory →
      ∃ result, pairAt (update j) distance a (block * (2 * distance) + j) = some result ∧
        Holds n result (updateAll [updateAt distance (fun _ => update) (block, j)] memory) := by
    intro j member a memory holds
    have small := List.mem_range.mp member
    rw [Nat.succ_mul] at inside
    exact pairAt_holds holds positive (by omega)
  rw [List.map_eq_flatMap]
  exact foldlM_holds each holds

/-- Groups that follow each other are updated as in a whole stage, the others stay. -/
theorem stageLoop_holds (update : K → V → V → V × V) {omegasBitReversed : List K}
    {firstGroup numGroups distance : ℕ} (holds : Holds n a memory) (positive : 0 < distance)
    (inside : (firstGroup + numGroups) * (2 * distance) ≤ n)
    (twiddles : firstGroup + numGroups ≤ omegasBitReversed.length) :
    ∃ result, stageLoop update omegasBitReversed (firstGroup * (2 * distance)) firstGroup numGroups
        distance distance a = some result ∧
      Holds n result fun i =>
        if firstGroup ≤ i / (2 * distance) ∧ i / (2 * distance) < firstGroup + numGroups then
          stageStep (fun block _ => update (omegasBitReversed.getD block 0)) distance memory i
        else
          memory i := by
  have each : ∀ k ∈ List.range numGroups, ∀ (a : List V) (memory : ℕ → V), Holds n a memory →
      ∃ result, (do
          let idx₁ := firstGroup * (2 * distance) + k * distance * 2
          let s ← omegasBitReversed[firstGroup + k]?
          (List.range' idx₁ distance).foldlM (pairAt (update s) distance) a) = some result ∧
        Holds n result (updateAll ((List.range distance).map fun j =>
          updateAt distance (fun block _ => update (omegasBitReversed.getD block 0))
            (firstGroup + k, j)) memory) := by
    intro k member a memory holds
    have below := List.mem_range.mp member
    have entry : omegasBitReversed[firstGroup + k]? =
        some (omegasBitReversed.getD (firstGroup + k) 0) := by
      have bound : firstGroup + k < omegasBitReversed.length := by omega
      rw [List.getD_eq_getElem?_getD, List.getElem?_eq_getElem bound, Option.getD_some]
    have start : firstGroup * (2 * distance) + k * distance * 2 =
        (firstGroup + k) * (2 * distance) := by ring
    have within : (firstGroup + k + 1) * (2 * distance) ≤ n :=
      (Nat.mul_le_mul_right _ (by omega)).trans inside
    rw [entry, start, Option.bind_eq_bind, Option.bind_some, List.range'_eq_map_range,
      List.foldlM_map]
    exact groupLoop_holds holds positive within
  rcases foldlM_holds each holds with ⟨result, computed, resultHolds⟩
  refine ⟨result, computed, ?_⟩
  apply resultHolds.congr
  intro i _
  have places : ((List.range numGroups).flatMap fun k => (List.range distance).map fun j =>
      updateAt distance (fun block _ => update (omegasBitReversed.getD block 0))
        (firstGroup + k, j)) = (groupPlaces firstGroup numGroups distance).map
      (updateAt distance fun block _ => update (omegasBitReversed.getD block 0)) := by
    rw [groupPlaces, List.map_flatMap]
    simp only [List.map_map]
    rfl
  have small : i % distance < distance := Nat.mod_lt i positive
  rw [places, updateAll_eq_stageStep memory positive (nodup_groupPlaces _ _ _)
    (fun place member => (mem_groupPlaces.mp member).2)]
  simp only [mem_groupPlaces, small, and_true]

theorem firstStage_holds (update : ℕ → V → V → V × V) {distance : ℕ}
    (holds : Holds (2 * distance) a memory) :
    ∃ result, firstStage update distance distance a = some result ∧
      Holds (2 * distance) result (stageStep (fun _ => update) distance memory) := by
  by_cases positive : 0 < distance
  · have within : (0 + 1) * (2 * distance) ≤ 2 * distance := by omega
    rcases groupLoop_holds holds positive within with ⟨result, computed, resultHolds⟩
    refine ⟨result, ?_, ?_⟩
    · simp only [Nat.zero_mul, Nat.zero_add] at computed
      exact computed
    · apply resultHolds.congr
      intro i bound
      have places : ((List.range distance).map fun j =>
          updateAt distance (fun _ => update) (0, j)) =
          (groupPlaces 0 1 distance).map (updateAt distance fun _ => update) := by
        rw [groupPlaces, List.range_one, List.flatMap_singleton, List.map_map]
        rfl
      have zero : i / (2 * distance) = 0 := Nat.div_eq_of_lt bound
      have small : i % distance < distance := Nat.mod_lt i positive
      rw [places, updateAll_eq_stageStep memory positive (nodup_groupPlaces _ _ _)
        (fun place member => (mem_groupPlaces.mp member).2), if_pos]
      rw [mem_groupPlaces, zero]
      exact ⟨⟨Nat.le_refl 0, Nat.one_pos⟩, small⟩
  · have zero : distance = 0 := by omega
    subst zero
    refine ⟨a, rfl, holds.length, ?_⟩
    intro i bound
    omega

/-- The updates of the stages: the first has updates of its own. -/
def stageUpdate (first : ℕ → V → V → V × V) (update : K → V → V → V × V)
    (omegasBitReversed : List K) (s block offset : ℕ) : V → V → V × V :=
  if s = 0 then first offset else update (omegasBitReversed.getD block 0)

/-- There is a twiddle for every group of the last stage. -/
def TwiddlesFit (n : ℕ) (omegasBitReversed : List K) : Prop :=
  ∀ m, m + 1 = n → 2 ^ m ≤ omegasBitReversed.length

omit [Zero K] in
theorem TwiddlesFit.le {n : ℕ} {omegasBitReversed : List K} (fit : TwiddlesFit n omegasBitReversed)
    {s m : ℕ} (size : s + (m + 1) = n) : 2 ^ s ≤ omegasBitReversed.length :=
  (Nat.pow_le_pow_right Nat.two_pos (Nat.le_add_right s m)).trans (fit (s + m) (by omega))

section Stages

variable (first : ℕ → V → V → V × V) (update : K → V → V → V × V) {omegasBitReversed : List K}
  {n : ℕ}

/-- A whole stage behind the first. -/
theorem stageLoop_stage (fit : TwiddlesFit n omegasBitReversed) {s m : ℕ}
    (size : s + (m + 1) = n) (later : s ≠ 0) {a : List V} {memory : ℕ → V}
    (holds : Holds (2 ^ n) a memory) :
    ∃ result, stageLoop update omegasBitReversed 0 0 (2 ^ s) (2 ^ m) (2 ^ m) a = some result ∧
      Holds (2 ^ n) result
        (stageStep (stageUpdate first update omegasBitReversed s) (2 ^ m) memory) := by
  have whole : 2 ^ s * (2 * 2 ^ m) = 2 ^ n := by rw [← Nat.pow_succ', ← pow_add, size]
  have inside : (0 + 2 ^ s) * (2 * 2 ^ m) ≤ 2 ^ n := by rw [Nat.zero_add, whole]
  have twiddles : 0 + 2 ^ s ≤ omegasBitReversed.length := by
    rw [Nat.zero_add]
    exact fit.le size
  rcases stageLoop_holds update holds (Nat.two_pow_pos m) inside twiddles with
    ⟨result, computed, resultHolds⟩
  rw [Nat.zero_mul] at computed
  refine ⟨result, computed, resultHolds.congr ?_⟩
  intro i bound
  rw [← whole, Nat.mul_comm] at bound
  have below : i / (2 * 2 ^ m) < 0 + 2 ^ s := by
    rw [Nat.zero_add]
    exact Nat.div_lt_of_lt_mul bound
  rw [if_pos ⟨Nat.zero_le _, below⟩]
  congr 1
  funext block offset
  rw [stageUpdate, if_neg later]

/-- The loop goes through the stages that are left. -/
theorem groupRounds_holds (fit : TwiddlesFit n omegasBitReversed) {memory : ℕ → V} {s m fuel : ℕ}
    (size : s + m = n) (later : s ≠ 0) (enough : m < fuel) {a : List V}
    (holds : Holds (2 ^ n) a
      (fallingStages (stageUpdate first update omegasBitReversed) n memory s)) :
    ∃ result, groupRounds update omegasBitReversed (2 ^ n) fuel (2 ^ m / 2) (2 ^ s) (2 ^ m / 2) a =
        some result ∧
      Holds (2 ^ n) result
        (fallingStages (stageUpdate first update omegasBitReversed) n memory n) := by
  induction fuel generalizing s m a with
  | zero => omega
  | succ fuel inductionHypothesis =>
      cases m with
      | zero =>
          have last : s = n := by omega
          rw [last] at holds
          refine ⟨a, ?_, holds⟩
          rw [groupRounds, last, if_neg (Nat.lt_irrefl _)]
      | succ m =>
          have before : 2 ^ s < 2 ^ n := Nat.pow_lt_pow_right (by decide) (by omega)
          have half : 2 ^ (m + 1) / 2 = 2 ^ m := by
            rw [Nat.pow_succ, Nat.mul_div_cancel _ Nat.two_pos]
          rcases stageLoop_stage first update fit size later holds with
            ⟨next, computed, nextHolds⟩
          rw [← fallingStages_succ _ _ size] at nextHolds
          rcases inductionHypothesis (show s + 1 + m = n by omega) s.succ_ne_zero
            (show m < fuel by omega) nextHolds with
            ⟨result, rest, resultHolds⟩
          refine ⟨result, ?_, resultHolds⟩
          rw [groupRounds, if_pos before, half, computed, ← Nat.pow_succ]
          exact rest

/-- The stages of a transform from natural to bit-reversed order. -/
theorem naturalToBitreversed_holds (fit : TwiddlesFit n omegasBitReversed) (several : n ≠ 0)
    {a : List V} {memory : ℕ → V} (holds : Holds (2 ^ n) a memory) :
    ∃ result, naturalToBitreversed first update omegasBitReversed a = some result ∧
      Holds (2 ^ n) result
        (fallingStages (stageUpdate first update omegasBitReversed) n memory n) := by
  rcases Nat.exists_eq_succ_of_ne_zero several with ⟨m, rfl⟩
  have power : 2 ^ (m + 1) = 2 * 2 ^ m := Nat.pow_succ'
  have half : 2 ^ (m + 1) / 2 = 2 ^ m := by
    rw [Nat.pow_succ, Nat.mul_div_cancel _ Nat.two_pos]
  have start := holds
  rw [power] at start
  rcases firstStage_holds first start with ⟨next, computed, nextHolds⟩
  have stage : stageStep (fun _ => first) (2 ^ m) memory =
      fallingStages (stageUpdate first update omegasBitReversed) (m + 1) memory 1 := by
    rw [fallingStages_succ _ _ (Nat.add_comm 0 (m + 1)), fallingStages]
    rfl
  rw [← power, stage] at nextHolds
  rcases groupRounds_holds first update fit (Nat.add_comm 1 m) Nat.one_ne_zero
    (show m < 2 ^ (m + 1) from (Nat.lt_succ_self m).trans (Nat.lt_two_pow_self)) nextHolds with
    ⟨result, rest, resultHolds⟩
  refine ⟨result, ?_, resultHolds⟩
  rw [naturalToBitreversed, holds.length]
  simp only [half, computed, Option.bind_eq_bind, Option.bind_some]
  rw [Nat.pow_one] at rest
  exact rest

end Stages

end LoopResults

/-! ## The transforms go through the same stages -/

section Results

variable {K V : Type} [Field K] [AddCommGroup V] [Module K V] {n : ℕ} {omegasBitReversed : List K}
  {a : List V} {memory : ℕ → V}

/-- The places of a transform from natural to bit-reversed order after each stage. -/
def nttStages (omegasBitReversed : List K) (n : ℕ) (memory : ℕ → V) : ℕ → ℕ → V :=
  fallingStages (stageUpdate (fun _ => plainButterfly) twiddledButterfly omegasBitReversed) n
    memory

theorem serialCtNttNaturalToBitreversed_holds (fit : TwiddlesFit n omegasBitReversed)
    (holds : Holds (2 ^ n) a memory) :
    ∃ result, serialCtNttNaturalToBitreversed a omegasBitReversed = some result ∧
      Holds (2 ^ n) result (nttStages omegasBitReversed n memory n) := by
  by_cases single : n = 0
  · subst single
    refine ⟨a, ?_, holds⟩
    rw [serialCtNttNaturalToBitreversed, if_pos (holds.length.trans (Nat.pow_zero 2))]
  · have several : a.length ≠ 1 := by
      rw [holds.length]
      exact (Nat.one_lt_two_pow single).ne'
    rw [serialCtNttNaturalToBitreversed, if_neg several]
    exact naturalToBitreversed_holds (fun _ => plainButterfly) twiddledButterfly fit single holds

theorem largeRounds_holds (fit : TwiddlesFit n omegasBitReversed) {s m left : ℕ}
    (size : s + m = n) (later : s ≠ 0) (few : left ≤ m)
    (holds : Holds (2 ^ n) a (nttStages omegasBitReversed n memory s)) :
    ∃ result, largeRounds omegasBitReversed left (2 ^ m / 2) (2 ^ s) (2 ^ m / 2) s a =
        some (2 ^ (m - left) / 2, 2 ^ (s + left), 2 ^ (m - left) / 2, s + left, result) ∧
      Holds (2 ^ n) result (nttStages omegasBitReversed n memory (s + left)) := by
  induction left generalizing s m a with
  | zero => exact ⟨a, rfl, holds⟩
  | succ left inductionHypothesis =>
      rcases Nat.exists_eq_succ_of_ne_zero (show m ≠ 0 by omega) with ⟨rest, rfl⟩
      have half : 2 ^ (rest + 1) / 2 = 2 ^ rest := by
        rw [Nat.pow_succ, Nat.mul_div_cancel _ Nat.two_pos]
      rcases stageLoop_stage (fun _ => plainButterfly) twiddledButterfly fit size later holds with
        ⟨next, computed, nextHolds⟩
      rw [nttStages, ← fallingStages_succ _ _ size] at nextHolds
      rcases inductionHypothesis (show s + 1 + rest = n by omega) s.succ_ne_zero
        (show left ≤ rest by omega) nextHolds with ⟨result, later, resultHolds⟩
      have place : s + 1 + left = s + (left + 1) := by omega
      rw [place] at later resultHolds
      refine ⟨result, ?_, resultHolds⟩
      rw [largeRounds, half, computed, Nat.succ_sub_succ]
      exact later

/-- The groups of a bunch are those whose places are in its block. -/
theorem group_mem_bunch (cacheBunch r m i : ℕ) :
    (cacheBunch * 2 ^ r ≤ i / (2 * 2 ^ m) ∧ i / (2 * 2 ^ m) < cacheBunch * 2 ^ r + 2 ^ r) ↔
      i / 2 ^ (r + (m + 1)) = cacheBunch := by
  have size : 2 * 2 ^ m * 2 ^ r = 2 ^ (r + (m + 1)) := by
    rw [← Nat.pow_succ', Nat.mul_comm, ← pow_add]
  rw [← size, ← Nat.div_div_eq_div_mul i (2 * 2 ^ m), Nat.div_eq_iff (Nat.two_pow_pos r)]
  have positive := Nat.two_pow_pos r
  omega

/-- The rounds of a bunch take its block through the stages that are left. -/
theorem cacheRounds_holds (fit : TwiddlesFit n omegasBitReversed) {rounds r m cacheBunch start : ℕ}
    (size : rounds + r + m = n) (later : rounds ≠ 0) (inside : cacheBunch < 2 ^ rounds)
    (begins : m ≠ 0 → start = cacheBunch * 2 ^ (r + m)) {current : ℕ → V}
    (holds : Holds (2 ^ n) a current)
    (agree : ∀ i, i / 2 ^ (r + m) = cacheBunch →
      current i = nttStages omegasBitReversed n memory (rounds + r) i) :
    ∃ result, cacheRounds omegasBitReversed start cacheBunch m (2 ^ m / 2) (2 ^ r) (2 ^ m / 2) a =
        some result ∧
      Holds (2 ^ n) result fun i => if i / 2 ^ (r + m) = cacheBunch then
        nttStages omegasBitReversed n memory n i else current i := by
  induction m generalizing r a current with
  | zero =>
      refine ⟨a, rfl, holds.congr ?_⟩
      intro i _
      by_cases mine : i / 2 ^ (r + 0) = cacheBunch
      · rw [if_pos mine, agree i mine, ← size, Nat.add_zero]
      · rw [if_neg mine]
  | succ m inductionHypothesis =>
      have half : 2 ^ (m + 1) / 2 = 2 ^ m := by
        rw [Nat.pow_succ, Nat.mul_div_cancel _ Nat.two_pos]
      have block : cacheBunch * 2 ^ r * (2 * 2 ^ m) = cacheBunch * 2 ^ (r + (m + 1)) := by
        rw [← Nat.pow_succ', Nat.mul_assoc, ← pow_add]
      have groups : cacheBunch * 2 ^ r + 2 ^ r ≤ 2 ^ (rounds + r) := by
        rw [pow_add, ← Nat.succ_mul]
        exact Nat.mul_le_mul_right _ inside
      have within : (cacheBunch * 2 ^ r + 2 ^ r) * (2 * 2 ^ m) ≤ 2 ^ n := by
        rw [← size, pow_add, Nat.pow_succ']
        exact Nat.mul_le_mul_right _ groups
      have twiddles : cacheBunch * 2 ^ r + 2 ^ r ≤ omegasBitReversed.length :=
        groups.trans (fit.le size)
      rcases stageLoop_holds twiddledButterfly holds (Nat.two_pow_pos m) within twiddles with
        ⟨next, computed, nextHolds⟩
      simp only [group_mem_bunch] at nextHolds
      rw [block, ← begins m.succ_ne_zero] at computed
      have width : r + 1 + m = r + (m + 1) := by omega
      have stage : nttStages omegasBitReversed n memory (rounds + (r + 1)) =
          stageStep (fun block _ => twiddledButterfly (omegasBitReversed.getD block 0)) (2 ^ m)
            (nttStages omegasBitReversed n memory (rounds + r)) := by
        have notFirst : rounds + r ≠ 0 := by omega
        rw [nttStages, ← Nat.add_assoc, fallingStages_succ _ _ size]
        congr 1
        funext block offset
        rw [stageUpdate, if_neg notFirst]
      have agreeNext : ∀ i, i / 2 ^ (r + 1 + m) = cacheBunch →
          (if i / 2 ^ (r + (m + 1)) = cacheBunch then
            stageStep (fun block _ => twiddledButterfly (omegasBitReversed.getD block 0)) (2 ^ m)
              current i else current i) =
            nttStages omegasBitReversed n memory (rounds + (r + 1)) i := by
        have grouped : ∀ i, i / (2 * 2 ^ m) / 2 ^ r = i / 2 ^ (r + (m + 1)) := by
          intro i
          rw [Nat.div_div_eq_div_mul, ← Nat.pow_succ', Nat.mul_comm, ← pow_add]
        intro i mine
        rw [width] at mine
        rw [if_pos mine, stage]
        apply stageStep_agree
        · intro j inBunch
          rw [grouped] at inBunch
          exact agree j inBunch
        · rw [grouped]
          exact mine
      rcases inductionHypothesis (r := r + 1) (by omega)
        (fun _ => by rw [begins m.succ_ne_zero, width]) nextHolds agreeNext with
        ⟨result, rest, resultHolds⟩
      refine ⟨result, ?_, resultHolds.congr ?_⟩
      · rw [cacheRounds, half, computed, ← Nat.pow_succ]
        exact rest
      · intro i _
        rw [width]
        by_cases mine : i / 2 ^ (r + (m + 1)) = cacheBunch
        · rw [if_pos mine, if_pos mine]
        · rw [if_neg mine, if_neg mine, if_neg mine]

/-- The bunches one after the other. -/
theorem bunches_holds (fit : TwiddlesFit n omegasBitReversed) {rounds m : ℕ}
    (size : rounds + m = n) (later : rounds ≠ 0)
    (holds : Holds (2 ^ n) a (nttStages omegasBitReversed n memory rounds)) {count : ℕ}
    (few : count ≤ 2 ^ rounds) :
    ∃ result, (List.range count).foldlM
        (fun a cacheBunch => cacheRounds omegasBitReversed (cacheBunch * (2 ^ m / 2) * 2) cacheBunch
          m (2 ^ m / 2) 1 (2 ^ m / 2) a) a = some result ∧
      Holds (2 ^ n) result fun i => if i / 2 ^ m < count then
        nttStages omegasBitReversed n memory n i
      else nttStages omegasBitReversed n memory rounds i := by
  induction count with
  | zero =>
      refine ⟨a, rfl, holds.congr ?_⟩
      intro i _
      rw [if_neg (Nat.not_lt_zero _)]
  | succ count inductionHypothesis =>
      rcases inductionHypothesis (Nat.le_of_succ_le few) with ⟨before, computed, beforeHolds⟩
      have begins : m ≠ 0 → count * (2 ^ m / 2) * 2 = count * 2 ^ (0 + m) := by
        intro positive
        rcases Nat.exists_eq_succ_of_ne_zero positive with ⟨rest, rfl⟩
        rw [Nat.pow_succ, Nat.mul_div_cancel _ Nat.two_pos, Nat.zero_add, Nat.mul_assoc,
          ← Nat.pow_succ]
      have agree : ∀ i, i / 2 ^ (0 + m) = count →
          (if i / 2 ^ m < count then nttStages omegasBitReversed n memory n i
            else nttStages omegasBitReversed n memory rounds i) =
            nttStages omegasBitReversed n memory (rounds + 0) i := by
        intro i mine
        rw [Nat.zero_add] at mine
        rw [if_neg (by omega), Nat.add_zero]
      rcases cacheRounds_holds fit (show rounds + 0 + m = n by omega) later few begins beforeHolds
        agree with ⟨result, rest, resultHolds⟩
      refine ⟨result, ?_, resultHolds.congr ?_⟩
      · rw [List.range_succ, List.foldlM_append, computed, Option.bind_eq_bind, Option.bind_some,
          List.foldlM_cons]
        rw [Nat.pow_zero] at rest
        rw [rest]
        rfl
      · intro i _
        rw [Nat.zero_add]
        by_cases mine : i / 2 ^ m = count
        · rw [if_pos mine, if_pos (by omega)]
        · by_cases earlier : i / 2 ^ m < count
          · rw [if_neg mine, if_pos earlier, if_pos (by omega)]
          · rw [if_neg mine, if_neg earlier, if_neg (by omega)]

theorem cacheFriendlyNttNaturalToBitreversed_holds (fit : TwiddlesFit n omegasBitReversed)
    (holds : Holds (2 ^ n) a memory) :
    ∃ result, cacheFriendlyNttNaturalToBitreversed a n omegasBitReversed = some result ∧
      Holds (2 ^ n) result (nttStages omegasBitReversed n memory n) := by
  cases n with
  | zero =>
      refine ⟨a, ?_, holds⟩
      rw [cacheFriendlyNttNaturalToBitreversed, if_pos (holds.length.trans (Nat.pow_zero 2))]
      rfl
  | succ m =>
      have several : a.length ≠ 1 := by
        rw [holds.length]
        exact (Nat.one_lt_two_pow m.succ_ne_zero).ne'
      have power : 2 ^ (m + 1) = 2 * 2 ^ m := Nat.pow_succ'
      have half : 2 ^ (m + 1) / 2 = 2 ^ m := by
        rw [Nat.pow_succ, Nat.mul_div_cancel _ Nat.two_pos]
      have start := holds
      rw [power] at start
      rcases firstStage_holds (fun _ => plainButterfly) start with ⟨first, firstComputed, firstHolds⟩
      have stage : stageStep (fun _ _ => plainButterfly) (2 ^ m) memory =
          nttStages omegasBitReversed (m + 1) memory 1 := by
        rw [nttStages, fallingStages_succ _ _ (Nat.add_comm 0 (m + 1)), fallingStages]
        rfl
      rw [← power, stage] at firstHolds
      generalize leftRounds : m + 1 - cacheBunchLog - 1 = left
      have few : left ≤ m := by omega
      rcases largeRounds_holds fit (Nat.add_comm 1 m) Nat.one_ne_zero few firstHolds with
        ⟨large, largeComputed, largeHolds⟩
      have total : 1 + left + (m - left) = m + 1 := by omega
      rcases bunches_holds fit total (by omega) largeHolds (Nat.le_refl _) with
        ⟨result, computed, resultHolds⟩
      refine ⟨result, ?_, resultHolds.congr ?_⟩
      · have restRounds : m + 1 - (1 + left) = m - left := by omega
        rw [cacheFriendlyNttNaturalToBitreversed, holds.length, if_neg (holds.length ▸ several)]
        rw [Nat.pow_one] at largeComputed
        simp only [half, firstComputed, leftRounds, largeComputed, restRounds,
          Option.bind_eq_bind, Option.bind_some]
        exact computed
      · intro i bound
        rw [if_pos]
        apply Nat.div_lt_of_lt_mul
        rw [← pow_add, Nat.add_comm, total]
        exact bound

/-! ## The way back -/

section Back

variable {inverses : List K}

/-- The twiddles of the two directions are inverse to each other. -/
def InverseTwiddles (n : ℕ) (omegasBitReversed inverses : List K) : Prop :=
  ∀ m, m + 1 = n → ∀ p < 2 ^ m, inverses.getD p 0 * omegasBitReversed.getD p 0 = 1

theorem differenceButterfly_twiddled {s s' : K} (inverse : s' * s = 1) (c : ℕ) (u v : V) :
    differenceButterfly s' (c • (twiddledButterfly s u v).1) (c • (twiddledButterfly s u v).2) =
      ((2 * c) • u, (2 * c) • v) := by
  rw [differenceButterfly, twiddledButterfly, Prod.mk.injEq]
  constructor
  · rw [← smul_add, add_add_sub_cancel, two_mul, add_smul, smul_add]
  · calc s' • (c • (u + s • v) - c • (u - s • v))
        = s' • (2 * c) • s • v := by
          rw [← smul_sub, add_sub_sub_cancel, two_mul, add_smul, smul_add]
      _ = (2 * c) • s' • s • v := smul_comm _ _ _
      _ = (2 * c) • v := by rw [smul_smul s' s, inverse, one_smul]

theorem plainButterfly_plain (c : ℕ) (u v : V) :
    plainButterfly (c • (plainButterfly u v).1) (c • (plainButterfly u v).2) =
      ((2 * c) • u, (2 * c) • v) := by
  rw [plainButterfly, plainButterfly, Prod.mk.injEq]
  constructor
  · rw [← smul_add, add_add_sub_cancel, two_mul, add_smul, smul_add]
  · rw [← smul_sub, add_sub_sub_cancel, two_mul, add_smul, smul_add]

/-- A stage of the way back doubles what was before the stage. -/
theorem undoStage (inverse : InverseTwiddles n omegasBitReversed inverses) {s m : ℕ}
    (size : s + (m + 1) = n) (later : s ≠ 0) (c : ℕ) {i : ℕ} (bound : i < 2 ^ n) :
    stageStep (stageUpdate (fun _ => plainButterfly) differenceButterfly inverses s) (2 ^ m)
        (fun j => c • nttStages omegasBitReversed n memory (s + 1) j) i =
      (2 * c) • nttStages omegasBitReversed n memory s i := by
  have group : i / (2 * 2 ^ m) < 2 ^ s := by
    apply Nat.div_lt_of_lt_mul
    rw [← Nat.pow_succ', ← pow_add, Nat.add_comm, size]
    exact bound
  have wide : i / (2 * 2 ^ m) < 2 ^ (s + m) :=
    group.trans_le (Nat.pow_le_pow_right Nat.two_pos (Nat.le_add_right s m))
  have unit := inverse (s + m) (by omega) _ wide
  rw [nttStages, fallingStages_succ _ _ size]
  apply stageStep_undo (Nat.two_pow_pos m)
  intro u v
  rw [stageUpdate, stageUpdate, if_neg later, if_neg later]
  exact differenceButterfly_twiddled unit c u v

theorem bitreversedRounds_holds (fit : TwiddlesFit n inverses)
    (inverse : InverseTwiddles n omegasBitReversed inverses) {s m fuel : ℕ}
    (size : s + (m + 1) = n) (enough : s < fuel)
    (holds : Holds (2 ^ n) a fun i => 2 ^ m • nttStages omegasBitReversed n memory (s + 1) i) :
    ∃ result, bitreversedRounds inverses fuel (2 ^ m) (2 ^ s) (2 ^ m) a =
        some (2 ^ (s + m), 2 ^ (s + m), result) ∧
      Holds (2 ^ n) result fun i => 2 ^ (s + m) • nttStages omegasBitReversed n memory 1 i := by
  induction fuel generalizing s m a with
  | zero => omega
  | succ fuel inductionHypothesis =>
      cases s with
      | zero =>
          refine ⟨a, ?_, ?_⟩
          · have one : ¬ 1 < 2 ^ 0 := by
              rw [Nat.pow_zero]
              exact Nat.lt_irrefl 1
            rw [bitreversedRounds, if_neg one, Nat.zero_add]
          · rw [Nat.zero_add]
            exact holds
      | succ s =>
          have several : 1 < 2 ^ (s + 1) := Nat.one_lt_two_pow s.succ_ne_zero
          have half : 2 ^ (s + 1) / 2 = 2 ^ s := by
            rw [Nat.pow_succ, Nat.mul_div_cancel _ Nat.two_pos]
          rcases stageLoop_stage (fun _ => plainButterfly) differenceButterfly fit size
            s.succ_ne_zero holds with ⟨next, computed, nextHolds⟩
          have doubled : Holds (2 ^ n) next fun i =>
              2 ^ (m + 1) • nttStages omegasBitReversed n memory (s + 1) i := by
            apply nextHolds.congr
            intro i bound
            rw [undoStage inverse size s.succ_ne_zero _ bound, ← Nat.pow_succ']
          rcases inductionHypothesis (show s + (m + 1 + 1) = n by omega) (by omega) doubled with
            ⟨result, rest, resultHolds⟩
          have width : s + (m + 1) = s + 1 + m := by omega
          rw [width] at rest resultHolds
          refine ⟨result, ?_, resultHolds⟩
          rw [bitreversedRounds, if_pos several, computed, half, ← Nat.pow_succ]
          exact rest

/-- The way back multiplies the input by the length. -/
theorem serialCtNttBitreversedToNatural_holds (fit : TwiddlesFit n inverses)
    (inverse : InverseTwiddles n omegasBitReversed inverses)
    (holds : Holds (2 ^ n) a (nttStages omegasBitReversed n memory n)) :
    ∃ result, serialCtNttBitreversedToNatural a inverses = some result ∧
      Holds (2 ^ n) result fun i => 2 ^ n • memory i := by
  cases n with
  | zero =>
      refine ⟨a, ?_, holds.congr ?_⟩
      · rw [serialCtNttBitreversedToNatural, if_pos (holds.length.trans (Nat.pow_zero 2))]
        rfl
      · intro i _
        rw [Nat.pow_zero, one_smul]
        rfl
  | succ k =>
      have several : 2 ^ (k + 1) ≠ 1 := (Nat.one_lt_two_pow k.succ_ne_zero).ne'
      have power : 2 ^ (k + 1) = 2 * 2 ^ k := Nat.pow_succ'
      have half : 2 ^ (k + 1) / 2 = 2 ^ k := by
        rw [Nat.pow_succ, Nat.mul_div_cancel _ Nat.two_pos]
      have start : Holds (2 ^ (k + 1)) a fun i =>
          2 ^ 0 • nttStages omegasBitReversed (k + 1) memory (k + 1) i := by
        apply holds.congr
        intro i _
        rw [Nat.pow_zero, one_smul]
      have enough : k < 2 ^ (k + 1) := (Nat.lt_succ_self k).trans Nat.lt_two_pow_self
      rcases bitreversedRounds_holds fit inverse rfl enough start with ⟨next, computed, nextHolds⟩
      rw [Nat.add_zero, power] at nextHolds
      rcases firstStage_holds (fun _ => plainButterfly) nextHolds with
        ⟨result, last, resultHolds⟩
      rw [← power] at resultHolds
      refine ⟨result, ?_, resultHolds.congr ?_⟩
      · rw [serialCtNttBitreversedToNatural, holds.length, if_neg several, half]
        rw [Nat.pow_zero, Nat.add_zero] at computed
        rw [computed]
        exact last
      · intro i _
        rw [nttStages, fallingStages_succ _ _ (Nat.add_comm 0 (k + 1)), fallingStages, power]
        apply stageStep_undo (Nat.two_pow_pos k)
        intro u v
        exact plainButterfly_plain (2 ^ k) u v

end Back

end Results

end Airbender.Fft
