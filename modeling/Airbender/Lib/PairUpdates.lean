import Mathlib.Algebra.Group.Nat.Defs
import Mathlib.Data.List.Nodup
import Mathlib.Logic.Function.Basic

/-!
# Updates of disjoint pairs of places

A stage splits the places into blocks of two halves and updates every place of a lower half
together with its partner in the higher half.  The pairs are disjoint, so their order does not
matter, and a stage acts on every block by itself.
-/

namespace PairUpdates

universe u

variable {V : Type u}

/-- Two places and what becomes of their contents. -/
structure PairUpdate (V : Type u) where
  low : ℕ
  high : ℕ
  update : V → V → V × V

namespace PairUpdate

def apply (pair : PairUpdate V) (memory : ℕ → V) : ℕ → V :=
  let result := pair.update (memory pair.low) (memory pair.high)
  Function.update (Function.update memory pair.low result.1) pair.high result.2

/-- Two updates on four different places. -/
def Apart (pair other : PairUpdate V) : Prop :=
  pair.low ≠ other.low ∧ pair.low ≠ other.high ∧ pair.high ≠ other.low ∧ pair.high ≠ other.high

theorem apply_of_ne {pair : PairUpdate V} {memory : ℕ → V} {i : ℕ} (low : i ≠ pair.low)
    (high : i ≠ pair.high) : pair.apply memory i = memory i := by
  rw [apply, Function.update_of_ne high, Function.update_of_ne low]

end PairUpdate

def updateAll (pairs : List (PairUpdate V)) (memory : ℕ → V) : ℕ → V :=
  pairs.foldl (fun memory pair => pair.apply memory) memory

theorem updateAll_append (pairs other : List (PairUpdate V)) (memory : ℕ → V) :
    updateAll (pairs ++ other) memory = updateAll other (updateAll pairs memory) :=
  List.foldl_append

theorem updateAll_of_untouched {pairs : List (PairUpdate V)} {memory : ℕ → V} {i : ℕ}
    (untouched : ∀ pair ∈ pairs, i ≠ pair.low ∧ i ≠ pair.high) :
    updateAll pairs memory i = memory i := by
  induction pairs generalizing memory with
  | nil => rfl
  | cons pair pairs inductionHypothesis =>
      rcases List.forall_mem_cons.mp untouched with ⟨head, rest⟩
      have step : updateAll (pair :: pairs) memory = updateAll pairs (pair.apply memory) := rfl
      rw [step, inductionHypothesis rest, PairUpdate.apply_of_ne head.1 head.2]

/-- On disjoint pairs every update sees the memory before all of them. -/
theorem updateAll_of_mem {pairs : List (PairUpdate V)} {pair : PairUpdate V} (memory : ℕ → V)
    (member : pair ∈ pairs) (apart : pairs.Pairwise PairUpdate.Apart)
    (proper : pair.low ≠ pair.high) :
    updateAll pairs memory pair.low = (pair.update (memory pair.low) (memory pair.high)).1 ∧
      updateAll pairs memory pair.high =
        (pair.update (memory pair.low) (memory pair.high)).2 := by
  induction pairs generalizing memory with
  | nil => exact absurd member List.not_mem_nil
  | cons first pairs inductionHypothesis =>
      rcases List.pairwise_cons.mp apart with ⟨headApart, restApart⟩
      have step : updateAll (first :: pairs) memory = updateAll pairs (first.apply memory) := rfl
      rw [step]
      rcases List.mem_cons.mp member with rfl | inRest
      · have lowUntouched : ∀ other ∈ pairs, pair.low ≠ other.low ∧ pair.low ≠ other.high :=
          fun other otherMember => ⟨(headApart other otherMember).1,
            (headApart other otherMember).2.1⟩
        have highUntouched : ∀ other ∈ pairs, pair.high ≠ other.low ∧ pair.high ≠ other.high :=
          fun other otherMember => ⟨(headApart other otherMember).2.2.1,
            (headApart other otherMember).2.2.2⟩
        rw [updateAll_of_untouched lowUntouched, updateAll_of_untouched highUntouched,
          PairUpdate.apply]
        constructor
        · rw [Function.update_of_ne proper, Function.update_self]
        · rw [Function.update_self]
      · rcases headApart pair inRest with ⟨lowLow, lowHigh, highLow, highHigh⟩
        have results := inductionHypothesis (first.apply memory) inRest restApart
        rw [PairUpdate.apply_of_ne lowLow.symm highLow.symm,
          PairUpdate.apply_of_ne lowHigh.symm highHigh.symm] at results
        exact results

/-! ## Blocks of two halves -/

/-- The update at an offset into a block of two halves of size `distance`. -/
def updateAt (distance : ℕ) (update : ℕ → ℕ → V → V → V × V) (place : ℕ × ℕ) : PairUpdate V where
  low := place.1 * (2 * distance) + place.2
  high := place.1 * (2 * distance) + place.2 + distance
  update := update place.1 place.2

theorem place_div_mod {distance : ℕ} (block : ℕ) {offset : ℕ} (bound : offset < 2 * distance) :
    (block * (2 * distance) + offset) / (2 * distance) = block ∧
      (block * (2 * distance) + offset) % (2 * distance) = offset := by
  have positive : 0 < 2 * distance := by omega
  rw [Nat.mul_comm block, Nat.mul_add_div positive, Nat.div_eq_of_lt bound, Nat.add_zero,
    Nat.mul_add_mod, Nat.mod_eq_of_lt bound]
  exact ⟨rfl, rfl⟩

theorem place_injective {distance : ℕ} {block block' offset offset' : ℕ}
    (bound : offset < 2 * distance) (bound' : offset' < 2 * distance)
    (same : block * (2 * distance) + offset = block' * (2 * distance) + offset') :
    block = block' ∧ offset = offset' := by
  rcases place_div_mod block bound with ⟨blocks, offsets⟩
  rcases place_div_mod block' bound' with ⟨blocks', offsets'⟩
  rw [same] at blocks offsets
  exact ⟨blocks.symm.trans blocks', offsets.symm.trans offsets'⟩

theorem updateAt_apart {distance : ℕ} {update : ℕ → ℕ → V → V → V × V} {place place' : ℕ × ℕ}
    (bound : place.2 < distance) (bound' : place'.2 < distance) (different : place ≠ place') :
    (updateAt distance update place).Apart (updateAt distance update place') := by
  rcases place with ⟨block, offset⟩
  rcases place' with ⟨block', offset'⟩
  change offset < distance at bound
  change offset' < distance at bound'
  refine ⟨?_, ?_, ?_, ?_⟩
  · intro same
    rcases place_injective (by omega) (by omega) same with ⟨rfl, rfl⟩
    exact different rfl
  · intro same
    change block * (2 * distance) + offset = block' * (2 * distance) + offset' + distance at same
    rw [Nat.add_assoc (block' * (2 * distance))] at same
    have offsets := (place_injective (by omega) (by omega) same).2
    omega
  · intro same
    change block * (2 * distance) + offset + distance = block' * (2 * distance) + offset' at same
    rw [Nat.add_assoc (block * (2 * distance))] at same
    have offsets := (place_injective (by omega) (by omega) same).2
    omega
  · intro same
    change block * (2 * distance) + offset + distance =
      block' * (2 * distance) + offset' + distance at same
    rcases place_injective (by omega) (by omega) (Nat.add_right_cancel same) with ⟨rfl, rfl⟩
    exact different rfl

/-- The updates of different places, in any order. -/
theorem updateAll_places {distance : ℕ} (update : ℕ → ℕ → V → V → V × V)
    {places : List (ℕ × ℕ)} (memory : ℕ → V) (nodup : places.Nodup)
    (bounds : ∀ place ∈ places, place.2 < distance) {block offset : ℕ}
    (member : (block, offset) ∈ places) :
    let result := update block offset (memory (block * (2 * distance) + offset))
      (memory (block * (2 * distance) + offset + distance))
    updateAll (places.map (updateAt distance update)) memory (block * (2 * distance) + offset) =
        result.1 ∧
      updateAll (places.map (updateAt distance update)) memory
        (block * (2 * distance) + offset + distance) = result.2 := by
  have apart : (places.map (updateAt distance update)).Pairwise PairUpdate.Apart := by
    apply List.pairwise_map.mpr
    refine nodup.imp_of_mem ?_
    intro place place' placeMember placeMember' different
    exact updateAt_apart (bounds place placeMember) (bounds place' placeMember') different
  have proper : (updateAt distance update (block, offset)).low ≠
      (updateAt distance update (block, offset)).high := by
    have bound : offset < distance := bounds _ member
    change block * (2 * distance) + offset ≠ block * (2 * distance) + offset + distance
    omega
  exact updateAll_of_mem memory (List.mem_map_of_mem member) apart proper

/-! ## A whole stage -/

/-- The memory after the updates of all blocks. -/
def stageStep (update : ℕ → ℕ → V → V → V × V) (distance : ℕ) (memory : ℕ → V) : ℕ → V := fun i =>
  let block := i / (2 * distance)
  let offset := i % distance
  if i % (2 * distance) < distance then
    (update block offset (memory i) (memory (i + distance))).1
  else
    (update block offset (memory (i - distance)) (memory i)).2

section Stage

variable {update : ℕ → ℕ → V → V → V × V} {distance : ℕ}

theorem place_mod_distance (block : ℕ) {offset : ℕ} (bound : offset < distance) :
    (block * (2 * distance) + offset) % distance = offset ∧
      (block * (2 * distance) + offset + distance) % distance = offset := by
  rw [Nat.add_mod_right, ← Nat.mul_assoc, Nat.mul_add_mod_self_right, Nat.mod_eq_of_lt bound]
  exact ⟨rfl, rfl⟩

theorem stageStep_low (memory : ℕ → V) (block : ℕ) {offset : ℕ} (bound : offset < distance) :
    stageStep update distance memory (block * (2 * distance) + offset) =
      (update block offset (memory (block * (2 * distance) + offset))
        (memory (block * (2 * distance) + offset + distance))).1 := by
  rcases place_div_mod block (show offset < 2 * distance by omega) with ⟨blocks, offsets⟩
  rw [stageStep, blocks, offsets, (place_mod_distance block bound).1, if_pos bound]

theorem stageStep_high (memory : ℕ → V) (block : ℕ) {offset : ℕ} (bound : offset < distance) :
    stageStep update distance memory (block * (2 * distance) + offset + distance) =
      (update block offset (memory (block * (2 * distance) + offset))
        (memory (block * (2 * distance) + offset + distance))).2 := by
  have place := place_div_mod block (show offset + distance < 2 * distance by omega)
  rw [← Nat.add_assoc] at place
  rw [stageStep, place.1, place.2, (place_mod_distance block bound).2, if_neg (by omega),
    Nat.add_sub_cancel]

/-- A place is at an offset into one of the halves of its block. -/
theorem exists_place (positive : 0 < distance) (i : ℕ) :
    i = i / (2 * distance) * (2 * distance) + i % distance ∨
      i = i / (2 * distance) * (2 * distance) + i % distance + distance := by
  have whole := Nat.div_add_mod i (2 * distance)
  rw [Nat.mul_comm] at whole
  have halves : i % (2 * distance) % distance = i % distance := Nat.mod_mul_left_mod i 2 distance
  have bound := Nat.mod_lt i (show 2 * distance > 0 by omega)
  by_cases lower : i % (2 * distance) < distance
  · rw [Nat.mod_eq_of_lt lower] at halves
    omega
  · rw [Nat.mod_eq_sub_mod (by omega), Nat.mod_eq_of_lt (by omega)] at halves
    omega

/-- Some of the updates of a stage. -/
theorem updateAll_eq_stageStep {places : List (ℕ × ℕ)} (memory : ℕ → V) (positive : 0 < distance)
    (nodup : places.Nodup) (bounds : ∀ place ∈ places, place.2 < distance) (i : ℕ) :
    updateAll (places.map (updateAt distance update)) memory i =
      if (i / (2 * distance), i % distance) ∈ places then stageStep update distance memory i
      else memory i := by
  have small : i % distance < distance := Nat.mod_lt i positive
  generalize blockOf : i / (2 * distance) = block
  generalize offsetOf : i % distance = offset at small
  have position := exists_place positive i
  rw [blockOf, offsetOf] at position
  by_cases member : (block, offset) ∈ places
  · rw [if_pos member]
    have results := updateAll_places update memory nodup bounds member
    rcases position with rfl | rfl
    · rw [stageStep_low memory block small]
      exact results.1
    · rw [stageStep_high memory block small]
      exact results.2
  · rw [if_neg member]
    apply updateAll_of_untouched
    intro pair pairMember
    rcases List.mem_map.mp pairMember with ⟨⟨block', offset'⟩, inPlaces, rfl⟩
    have bound' : offset' < distance := bounds _ inPlaces
    -- the place has another block or another offset
    have other : ∀ half half', half < 2 → half' < 2 →
        block * (2 * distance) + (offset + half * distance) ≠
          block' * (2 * distance) + (offset' + half' * distance) := by
      intro half half' halfBound halfBound' same
      have inBlock : offset + half * distance < 2 * distance := by
        have atMost := Nat.mul_le_mul_right distance (show half ≤ 1 by omega)
        omega
      have inBlock' : offset' + half' * distance < 2 * distance := by
        have atMost := Nat.mul_le_mul_right distance (show half' ≤ 1 by omega)
        omega
      rcases place_injective inBlock inBlock' same with ⟨rfl, offsets⟩
      have remainders := congrArg (· % distance) offsets
      simp only [Nat.add_mul_mod_self_right, Nat.mod_eq_of_lt small,
        Nat.mod_eq_of_lt bound'] at remainders
      rw [remainders] at member
      exact member inPlaces
    have first := other 0 0 (by decide) (by decide)
    have second := other 0 1 (by decide) (by decide)
    have third := other 1 0 (by decide) (by decide)
    have fourth := other 1 1 (by decide) (by decide)
    rw [updateAt]
    dsimp only
    rcases position with rfl | rfl <;> omega

/-- A stage works on every group of whole blocks by itself. -/
theorem stageStep_agree {count group : ℕ} {memory memory' : ℕ → V}
    (agree : ∀ i, i / (2 * distance) / count = group → memory i = memory' i) {i : ℕ}
    (inGroup : i / (2 * distance) / count = group) :
    stageStep update distance memory i = stageStep update distance memory' i := by
  rw [stageStep, stageStep, agree i inGroup]
  by_cases zero : distance = 0
  · rw [zero, Nat.mul_zero, Nat.mod_zero, if_neg (Nat.not_lt_zero i), if_neg (Nat.not_lt_zero i),
      Nat.sub_zero, agree i inGroup]
  have positive : 0 < 2 * distance := by omega
  have whole := Nat.div_add_mod i (2 * distance)
  have bound := Nat.mod_lt i positive
  by_cases lower : i % (2 * distance) < distance
  · have partner : (i + distance) / (2 * distance) = i / (2 * distance) := by
      apply Nat.div_eq_of_lt_le
      · rw [Nat.mul_comm]
        omega
      · rw [Nat.succ_mul, Nat.mul_comm]
        omega
    rw [if_pos lower, if_pos lower, agree (i + distance) (by rw [partner]; exact inGroup)]
  · have partner : (i - distance) / (2 * distance) = i / (2 * distance) := by
      apply Nat.div_eq_of_lt_le
      · rw [Nat.mul_comm]
        omega
      · rw [Nat.succ_mul, Nat.mul_comm]
        omega
    rw [if_neg lower, if_neg lower, agree (i - distance) (by rw [partner]; exact inGroup)]

/-- A stage whose updates undo those of another one, up to factors. -/
theorem stageStep_undo {undo : ℕ → ℕ → V → V → V × V} {scale scale' : V → V} {memory : ℕ → V}
    (positive : 0 < distance) {i : ℕ}
    (undoes : ∀ u v, undo (i / (2 * distance)) (i % distance)
        (scale (update (i / (2 * distance)) (i % distance) u v).1)
        (scale (update (i / (2 * distance)) (i % distance) u v).2) = (scale' u, scale' v)) :
    stageStep undo distance (fun j => scale (stageStep update distance memory j)) i =
      scale' (memory i) := by
  have small : i % distance < distance := Nat.mod_lt i positive
  have position := exists_place positive i
  generalize i / (2 * distance) = block at undoes position
  generalize i % distance = offset at undoes position small
  rcases position with rfl | rfl
  · rw [stageStep_low _ block small, stageStep_low _ block small, stageStep_high _ block small,
      undoes]
  · rw [stageStep_high _ block small, stageStep_low _ block small, stageStep_high _ block small,
      undoes]

/-- A place of a stage whose updates go along with a map of the contents. -/
theorem stageStep_map {W : Type u} (φ : V → W) {update' : ℕ → ℕ → W → W → W × W}
    {memory : ℕ → V} {memory' : ℕ → W} (positive : 0 < distance) {i : ℕ}
    (along : ∀ low, low = i / (2 * distance) * (2 * distance) + i % distance →
      let result := update (i / (2 * distance)) (i % distance) (memory low) (memory (low + distance))
      update' (i / (2 * distance)) (i % distance) (memory' low) (memory' (low + distance)) =
        (φ result.1, φ result.2)) :
    stageStep update' distance memory' i = φ (stageStep update distance memory i) := by
  have small : i % distance < distance := Nat.mod_lt i positive
  have position := exists_place positive i
  have result := along _ rfl
  generalize i / (2 * distance) = block at result position
  generalize i % distance = offset at result position small
  rcases position with rfl | rfl
  · rw [stageStep_low _ block small, stageStep_low _ block small, result]
  · rw [stageStep_high _ block small, stageStep_high _ block small, result]

end Stage

/-- The places of some groups that follow each other. -/
def groupPlaces (first count distance : ℕ) : List (ℕ × ℕ) :=
  (List.range count).flatMap fun k => (List.range distance).map fun j => (first + k, j)

theorem mem_groupPlaces {first count distance : ℕ} {place : ℕ × ℕ} :
    place ∈ groupPlaces first count distance ↔
      (first ≤ place.1 ∧ place.1 < first + count) ∧ place.2 < distance := by
  simp only [groupPlaces, List.mem_flatMap, List.mem_map, List.mem_range]
  constructor
  · rintro ⟨k, kBound, j, jBound, rfl⟩
    dsimp only
    omega
  · rintro ⟨⟨atLeast, below⟩, jBound⟩
    refine ⟨place.1 - first, by omega, place.2, jBound, ?_⟩
    rw [Nat.add_sub_cancel' atLeast]

theorem nodup_groupPlaces (first count distance : ℕ) :
    (groupPlaces first count distance).Nodup := by
  apply List.nodup_flatMap.mpr
  constructor
  · intro k _
    apply List.nodup_range.map
    intro j j' same
    exact (Prod.mk.inj same).2
  · refine List.nodup_range.imp ?_
    intro k k' different place inFirst inSecond
    rcases List.mem_map.mp inFirst with ⟨j, _, rfl⟩
    rcases List.mem_map.mp inSecond with ⟨j', _, same⟩
    have blocks := (Prod.mk.inj same).1
    omega

/-- Stages at falling distances among `2^n` places. -/
def fallingStages (update : ℕ → ℕ → ℕ → V → V → V × V) (n : ℕ) (memory : ℕ → V) :
    ℕ → ℕ → V
  | 0 => memory
  | s + 1 => stageStep (update s) (2 ^ (n - (s + 1))) (fallingStages update n memory s)

theorem fallingStages_succ (update : ℕ → ℕ → ℕ → V → V → V × V) (memory : ℕ → V) {n s m : ℕ}
    (size : s + (m + 1) = n) :
    fallingStages update n memory (s + 1) =
      stageStep (update s) (2 ^ m) (fallingStages update n memory s) := by
  have rest : n - (s + 1) = m := by omega
  rw [fallingStages, rest]

theorem fallingStages_one_low {update : ℕ → ℕ → ℕ → V → V → V × V} {n : ℕ} (memory : ℕ → V)
    (several : n ≠ 0) {j : ℕ} (bound : j < 2 ^ (n - 1)) :
    fallingStages update n memory 1 j =
      (update 0 0 j (memory j) (memory (j + 2 ^ (n - 1)))).1 := by
  have place : j = 0 * (2 * 2 ^ (n - 1)) + j := by rw [Nat.zero_mul, Nat.zero_add]
  rw [fallingStages_succ update memory (show 0 + (n - 1 + 1) = n by omega), place,
    stageStep_low _ 0 bound, ← place, fallingStages]

/-- Stages whose updates go along with a map of the contents, from the stage `begin` on. -/
theorem fallingStages_map {W : Type u} (φ : V → W) (begin : ℕ)
    {update : ℕ → ℕ → ℕ → V → V → V × V} {update' : ℕ → ℕ → ℕ → W → W → W × W} {n : ℕ}
    {memory : ℕ → V} {memory' : ℕ → W}
    (start : ∀ i < 2 ^ n,
      fallingStages update' n memory' begin i = φ (fallingStages update n memory begin i))
    (along : ∀ s m, s + (m + 1) = n → begin ≤ s → ∀ block < 2 ^ s, ∀ offset u v,
      update' s block offset (φ u) (φ v) =
        (φ (update s block offset u v).1, φ (update s block offset u v).2))
    {s : ℕ} (before : begin ≤ s) (atMost : s ≤ n) {i : ℕ} (bound : i < 2 ^ n) :
    fallingStages update' n memory' s i = φ (fallingStages update n memory s i) := by
  induction before generalizing i with
  | refl => exact start i bound
  | @step s before inductionHypothesis =>
      rcases Nat.exists_eq_add_of_le' atMost with ⟨m, whole⟩
      have size : s + (m + 1) = n := by omega
      have parts : 2 ^ s * (2 * 2 ^ m) = 2 ^ n := by rw [← Nat.pow_succ', ← Nat.pow_add, size]
      have block : i / (2 * 2 ^ m) < 2 ^ s := by
        apply Nat.div_lt_of_lt_mul
        rw [Nat.mul_comm, parts]
        exact bound
      have within := Nat.mul_le_mul_right (2 * 2 ^ m) (Nat.succ_le_of_lt block)
      rw [Nat.succ_mul, parts] at within
      have small : i % 2 ^ m < 2 ^ m := Nat.mod_lt i (Nat.two_pow_pos m)
      rw [fallingStages_succ update' _ size, fallingStages_succ update _ size]
      apply stageStep_map φ (Nat.two_pow_pos m)
      intro low position
      rw [inductionHypothesis (by omega) (show low < 2 ^ n by omega),
        inductionHypothesis (by omega) (show low + 2 ^ m < 2 ^ n by omega)]
      exact along s m size before _ block _ _ _

/-- Updates that keep what meets a zero also keep the first place behind the first stage. -/
theorem fallingStages_head [Zero V] {update : ℕ → ℕ → ℕ → V → V → V × V} {n s m : ℕ}
    {memory : ℕ → V}
    (keeps : ∀ s, s ≠ 0 → ∀ block offset u, (update s block offset u 0).1 = u)
    (zeros : ∀ j, 0 < j → j < 2 ^ (n - 1) → fallingStages update n memory 1 j = 0)
    (size : s + m = n) (later : s ≠ 0) {j : ℕ} (bound : j < 2 ^ m) :
    fallingStages update n memory s j = if j = 0 then fallingStages update n memory 1 0 else 0 := by
  induction s generalizing m j with
  | zero => exact absurd rfl later
  | succ s inductionHypothesis =>
      by_cases first : s = 0
      · subst first
        by_cases head : j = 0
        · rw [if_pos head, head]
        · have last : n - 1 = m := by omega
          rw [if_neg head, zeros j (by omega) (by rw [last]; exact bound)]
      · have double : 2 ^ (m + 1) = 2 * 2 ^ m := Nat.pow_succ'
        have lower := inductionHypothesis (show s + (m + 1) = n by omega) first
          (show j < 2 ^ (m + 1) by omega)
        have higher := inductionHypothesis (show s + (m + 1) = n by omega) first
          (show j + 2 ^ m < 2 ^ (m + 1) by omega)
        rw [if_neg (by omega)] at higher
        have place : j = 0 * (2 * 2 ^ m) + j := by rw [Nat.zero_mul, Nat.zero_add]
        rw [fallingStages_succ update memory (show s + (m + 1) = n by omega), place,
          stageStep_low _ 0 bound, ← place, higher, keeps s first, lower]

/-- Updates that copy what meets a zero spread the content of one place. -/
theorem fallingStages_copies [Zero V] {update : ℕ → ℕ → ℕ → V → V → V × V} {n s m : ℕ} {e : V}
    (copies : ∀ s block offset u, update s block offset u 0 = (u, u))
    (size : s + (m + 1) = n) (i : ℕ) :
    fallingStages update n (fun i => if i % 2 ^ n = 1 then e else 0) s i =
      if i % 2 ^ (m + 1) = 1 then e else 0 := by
  induction s generalizing m i with
  | zero =>
      rw [Nat.zero_add] at size
      rw [fallingStages, size]
  | succ s inductionHypothesis =>
      have before := inductionHypothesis (show s + (m + 1 + 1) = n by omega)
      have double : 2 ^ (m + 1 + 1) = 2 * 2 ^ (m + 1) := Nat.pow_succ'
      have several : 1 < 2 ^ (m + 1) := Nat.one_lt_two_pow m.succ_ne_zero
      have small : i % 2 ^ (m + 1) < 2 ^ (m + 1) := Nat.mod_lt i (Nat.two_pow_pos _)
      rw [fallingStages_succ update _ (show s + (m + 1 + 1) = n by omega)]
      have position := exists_place (Nat.two_pow_pos (m + 1)) i
      generalize i / (2 * 2 ^ (m + 1)) = block at position
      generalize i % 2 ^ (m + 1) = offset at position small
      have lower := before (block * (2 * 2 ^ (m + 1)) + offset)
      have higher := before (block * (2 * 2 ^ (m + 1)) + offset + 2 ^ (m + 1))
      rw [double, (place_div_mod block (by omega)).2] at lower
      rw [Nat.add_assoc, double, (place_div_mod block (by omega)).2, if_neg (by omega)] at higher
      rw [← Nat.add_assoc] at higher
      rcases position with rfl | rfl
      · rw [stageStep_low _ block small, higher, copies, lower]
      · rw [stageStep_high _ block small, higher, copies, lower]

/-- Stages at rising distances. -/
def risingStages (update : ℕ → ℕ → ℕ → V → V → V × V) (memory : ℕ → V) : ℕ → ℕ → V
  | 0 => memory
  | s + 1 => stageStep (update s) (2 ^ s) (risingStages update memory s)

/-- Rising stages whose updates go along with a map of the contents. -/
theorem risingStages_map {W : Type u} (φ : V → W) {update : ℕ → ℕ → ℕ → V → V → V × V}
    {update' : ℕ → ℕ → ℕ → W → W → W × W} (memory : ℕ → V)
    (along : ∀ s block offset u v, update' s block offset (φ u) (φ v) =
      (φ (update s block offset u v).1, φ (update s block offset u v).2)) (s i : ℕ) :
    risingStages update' (fun i => φ (memory i)) s i = φ (risingStages update memory s i) := by
  induction s generalizing i with
  | zero => rfl
  | succ s inductionHypothesis =>
      apply stageStep_map φ (Nat.two_pow_pos s)
      intro low _
      rw [inductionHypothesis, inductionHypothesis]
      exact along s _ _ _ _

/-- Rising stages see only the blocks that they work on. -/
theorem risingStages_agree {update : ℕ → ℕ → ℕ → V → V → V × V} {run : ℕ → ℕ → V} {n : ℕ}
    (step : ∀ s m, s + (m + 1) = n → ∀ i < 2 ^ n,
      run (s + 1) i = stageStep (update s) (2 ^ s) (run s) i) {s : ℕ} (atMost : s ≤ n) {i : ℕ}
    (bound : i < 2 ^ n) : run s i = risingStages update (run 0) s i := by
  induction s generalizing i with
  | zero => rfl
  | succ s inductionHypothesis =>
      have size : s + (n - s - 1 + 1) = n := by omega
      have whole : 2 * 2 ^ s * 2 ^ (n - s - 1) = 2 ^ n := by
        rw [← Nat.pow_succ', ← Nat.pow_add]
        congr 1
        omega
      have inside : ∀ j, j / (2 * 2 ^ s) / 2 ^ (n - s - 1) = 0 ↔ j < 2 ^ n := by
        intro j
        rw [Nat.div_div_eq_div_mul, whole, Nat.div_eq_zero_iff_lt (Nat.two_pow_pos n)]
      have before : ∀ j, j / (2 * 2 ^ s) / 2 ^ (n - s - 1) = 0 →
          run s j = risingStages update (run 0) s j := by
        intro j within
        exact inductionHypothesis (by omega) ((inside j).mp within)
      rw [step s _ size i bound]
      exact stageStep_agree before ((inside i).mpr bound)

section Zeros

variable [Zero V] {update : ℕ → ℕ → ℕ → V → V → V × V} {memory : ℕ → V} {b : ℕ}

/-- Rising stages leave the zeros behind the blocks that hold something. -/
theorem risingStages_zero (zero : ∀ s block offset, update s block offset 0 0 = (0, 0))
    (empty : ∀ i, 2 ^ b ≤ i → memory i = 0) (s : ℕ) {i : ℕ} (behind : 2 ^ max s b ≤ i) :
    risingStages update memory s i = 0 := by
  induction s generalizing i with
  | zero =>
      apply empty
      rwa [Nat.zero_max] at behind
  | succ s inductionHypothesis =>
      have width : 2 ^ (s + 1) ∣ 2 ^ max (s + 1) b := Nat.pow_dvd_pow 2 (Nat.le_max_left _ _)
      have power : 2 ^ (s + 1) = 2 * 2 ^ s := Nat.pow_succ'
      have fewer : 2 ^ max s b ≤ 2 ^ max (s + 1) b := Nat.pow_le_pow_right Nat.two_pos (by omega)
      -- the block of the place begins behind as well
      have begins : 2 ^ max (s + 1) b ≤ i / (2 * 2 ^ s) * (2 * 2 ^ s) := by
        rcases width with ⟨blocks, whole⟩
        rw [whole, power, Nat.mul_comm] at behind ⊢
        have positive : 0 < 2 * 2 ^ s := Nat.mul_pos Nat.two_pos (Nat.two_pow_pos s)
        exact Nat.mul_le_mul_right _ ((Nat.le_div_iff_mul_le positive).mpr behind)
      have lower := inductionHypothesis (i := i / (2 * 2 ^ s) * (2 * 2 ^ s) + i % 2 ^ s) (by omega)
      have higher := inductionHypothesis
        (i := i / (2 * 2 ^ s) * (2 * 2 ^ s) + i % 2 ^ s + 2 ^ s) (by omega)
      have small : i % 2 ^ s < 2 ^ s := Nat.mod_lt i (Nat.two_pow_pos s)
      have position := exists_place (Nat.two_pow_pos s) i
      rw [risingStages]
      generalize i / (2 * 2 ^ s) = block at position lower higher
      generalize i % 2 ^ s = offset at position lower higher small
      rcases position with rfl | rfl
      · rw [stageStep_low _ block small, lower, higher, zero]
      · rw [stageStep_high _ block small, lower, higher, zero]

/-- A place of the first block stays when the places behind that block are zero. -/
theorem risingStages_head (zero : ∀ s block offset, update s block offset 0 0 = (0, 0))
    (keeps : ∀ s, s ≠ 0 → ∀ block offset u, (update s block offset u 0).1 = u)
    (empty : ∀ i, 2 ^ b ≤ i → memory i = 0) (several : b ≠ 0) {s : ℕ} (later : b ≤ s) {p : ℕ}
    (first : p < 2 ^ b) : risingStages update memory s p = risingStages update memory b p := by
  induction later with
  | refl => rfl
  | @step s later inductionHypothesis =>
      have small : p < 2 ^ s :=
        Nat.lt_of_lt_of_le first (Nat.pow_le_pow_right Nat.two_pos later)
      have positive : 0 < b := Nat.pos_of_ne_zero several
      have before : b ≤ s := later
      have place : p = 0 * (2 * 2 ^ s) + p := by rw [Nat.zero_mul, Nat.zero_add]
      have higher := risingStages_zero zero empty s (i := p + 2 ^ s) (by
        rw [Nat.max_eq_left later]
        exact Nat.le_add_left _ _)
      rw [← inductionHypothesis, risingStages]
      rw [place, stageStep_low _ 0 small, ← place, higher, keeps s (by omega)]

end Zeros

/-! ## Updates of a list in place -/

/-- The list holds the contents of the first `n` places. -/
structure Holds (n : ℕ) (a : List V) (memory : ℕ → V) : Prop where
  length : a.length = n
  values : ∀ i < n, a[i]? = some (memory i)

namespace Holds

variable {n : ℕ} {a : List V} {memory memory' : ℕ → V}

theorem congr (holds : Holds n a memory) (agree : ∀ i < n, memory i = memory' i) :
    Holds n a memory' where
  length := holds.length
  values i bound := by rw [holds.values i bound, agree i bound]

theorem eq {a' : List V} (holds : Holds n a memory) (holds' : Holds n a' memory) : a = a' := by
  apply List.ext_getElem?
  intro i
  by_cases bound : i < n
  · rw [holds.values i bound, holds'.values i bound]
  · have length := holds.length
    have length' := holds'.length
    rw [List.getElem?_eq_none (by omega), List.getElem?_eq_none (by omega)]

theorem map_range (f : ℕ → V) : Holds n ((List.range n).map f) f where
  length := by rw [List.length_map, List.length_range]
  values i bound := by rw [List.getElem?_map, List.getElem?_range bound, Option.map_some]

/-- Two lists are equal as far as the places agree. -/
theorem eq_iff {a' : List V} (holds : Holds n a memory) (holds' : Holds n a' memory') :
    a = a' ↔ ∀ i < n, memory i = memory' i := by
  constructor
  · intro same i bound
    apply Option.some.inj
    rw [← holds.values i bound, ← holds'.values i bound, same]
  · intro agree
    exact (holds.congr agree).eq holds'

theorem map {W : Type u} (holds : Holds n a memory) (f : V → W) :
    Holds n (a.map f) fun i => f (memory i) where
  length := by rw [List.length_map, holds.length]
  values i bound := by rw [List.getElem?_map, holds.values i bound, Option.map_some]

theorem zipWith {W X : Type u} {b : List W} {other : ℕ → W} (holds : Holds n a memory)
    (otherHolds : Holds n b other) (f : V → W → X) :
    Holds n (a.zipWith f b) fun i => f (memory i) (other i) where
  length := by rw [List.length_zipWith, holds.length, otherHolds.length, Nat.min_self]
  values i bound := by
    rw [List.getElem?_zipWith, holds.values i bound, otherHolds.values i bound]

theorem of_getD (size : a.length = n) (default : V) : Holds n a fun i => a.getD i default where
  length := size
  values i bound := by
    have inside : i < a.length := by omega
    rw [List.getD_eq_getElem?_getD, List.getElem?_eq_getElem inside, Option.getD_some]

theorem set (holds : Holds n a memory) (i : ℕ) (value : V) :
    Holds n (a.set i value) (Function.update memory i value) where
  length := by rw [List.length_set, holds.length]
  values j bound := by
    have inside : j < a.length := by rw [holds.length]; exact bound
    by_cases same : i = j
    · rw [← same, Function.update_self, List.getElem?_set_self (by rw [same]; exact inside)]
    · rw [Function.update_of_ne (Ne.symm same), List.getElem?_set_ne same, holds.values j bound]

end Holds

/-- Updates two places of a list at a distance; a place outside is an error. -/
def pairAt (update : V → V → V × V) (distance : ℕ) (a : List V) (j : ℕ) : Option (List V) := do
  let u ← a[j]?
  let v ← a[j + distance]?
  let (low, high) := update u v
  return (a.set (j + distance) high).set j low

theorem pairAt_holds {update : V → V → V × V} {n distance j : ℕ} {a : List V} {memory : ℕ → V}
    (holds : Holds n a memory) (positive : 0 < distance) (inside : j + distance < n) :
    ∃ result, pairAt update distance a j = some result ∧
      Holds n result ((⟨j, j + distance, update⟩ : PairUpdate V).apply memory) := by
  rw [pairAt, holds.values j (by omega), holds.values (j + distance) inside]
  have different : j ≠ j + distance := by omega
  refine ⟨_, rfl, ?_⟩
  rw [PairUpdate.apply, Function.update_comm different]
  exact (holds.set _ _).set _ _

/-- A loop whose rounds update pairs of places. -/
theorem foldlM_holds {ι : Type u} {n : ℕ} {round : List V → ι → Option (List V)}
    {pairsOf : ι → List (PairUpdate V)} {indices : List ι}
    (each : ∀ index ∈ indices, ∀ a memory, Holds n a memory → ∃ result,
      round a index = some result ∧ Holds n result (updateAll (pairsOf index) memory))
    {a : List V} {memory : ℕ → V} (holds : Holds n a memory) :
    ∃ result, indices.foldlM round a = some result ∧
      Holds n result (updateAll (indices.flatMap pairsOf) memory) := by
  induction indices generalizing a memory with
  | nil => exact ⟨a, rfl, holds⟩
  | cons index indices inductionHypothesis =>
      rcases List.forall_mem_cons.mp each with ⟨head, rest⟩
      rcases head a memory holds with ⟨next, computed, nextHolds⟩
      rcases inductionHypothesis rest nextHolds with ⟨result, later, resultHolds⟩
      refine ⟨result, ?_, ?_⟩
      · rw [List.foldlM_cons, computed]
        exact later
      · rw [List.flatMap_cons, updateAll_append]
        exact resultHolds

end PairUpdates
