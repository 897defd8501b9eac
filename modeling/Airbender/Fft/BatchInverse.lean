import Airbender.Fft.Worker
import Airbender.Field.QuarticField
import Airbender.Lib.BatchInversion

/-!
# Batch inversion

The routines leave the inverses of all elements of their input and take one inverse.  They share
the scratch buffer's two passes and differ in the buffer they accept.
-/

namespace Airbender.Fft

open BatchInversion Circuit WorkerGeometry

section Routines

variable {K : Type} [Field K] [DecidableEq K]

/-- `Field::inverse`, which is nothing at zero. -/
def checkedInverse (a : K) : Option K := if a = 0 then none else some a⁻¹

/-- `batch_inverse_inplace`: the input and the scratch buffer after the call. -/
def batchInverseInplace (input tmpBuffer : List K) : Option (List K × List K) :=
  match input, tmpBuffer with
  | [], tmpBuffer => some ([], tmpBuffer)
  -- the buffer has no first place
  | _ :: _, [] => none
  | first :: els, _ :: outs => do
      let (accumulator, outs) := accumulate first els outs
      let grandInverse ← checkedInverse accumulator
      let tmpBuffer := 1 :: outs
      return ((unwind grandInverse tmpBuffer.reverse (first :: els).reverse).reverse, tmpBuffer)

/-- `batch_inverse_with_buffer`, which asserts that the buffer is empty. -/
def batchInverseWithBuffer (input tmpBuffer : List K) : Option (List K × List K) := do
  guard (tmpBuffer = [])
  match input with
  | [] => return ([], tmpBuffer)
  | first :: els =>
      let (accumulator, pushed) := products first els
      let grandInverse ← checkedInverse accumulator
      let tmpBuffer := 1 :: pushed
      return ((unwind grandInverse tmpBuffer.reverse (first :: els).reverse).reverse, [])

/-- `batch_inverse_for_several_slices_inplace`. -/
def batchInverseForSeveralSlicesInplace (inputSlices : List (List K)) (tmpBuffer : List K) :
    Option (List (List K) × List K) := do
  guard ((inputSlices.map List.length).sum = tmpBuffer.length)
  guard (tmpBuffer ≠ [])
  let firstSlice ← inputSlices[0]?
  let first ← firstSlice[0]?
  let (accumulator, outs) := accumulate first (inputSlices.flatten.drop 1) (tmpBuffer.drop 1)
  let grandInverse ← checkedInverse accumulator
  let tmpBuffer := 1 :: outs
  let inverted := unwind grandInverse tmpBuffer.reverse (inputSlices.reverse.flatMap List.reverse)
  -- the elements are written through the slices they come from
  return ((inputSlices.map List.length).splitLengths inverted.reverse, tmpBuffer)

/-- The tasks of `batch_inverse_inplace_parallel` from a chunk on; `left` chunks are left.  The
chunks of the input and of the buffer are taken together, as long as there are both. -/
def batchInverseChunks (geometry : WorkerGeometry) :
    (left : ℕ) → (input tmpBuf : List K) → Option (List K × List K)
  | _, [], tmpBuf => some ([], tmpBuf)
  | 0, _ :: _, _ => none
  | left + 1, el :: els, tmpBuf => do
      let size ← geometry.getChunkSize (geometry.numChunks - (left + 1))
      guard (size ≤ (el :: els).length)
      if tmpBuf = [] then
        return (el :: els, tmpBuf)
      guard (size ≤ tmpBuf.length)
      let (dstChunk, tmpChunk) ← batchInverseInplace ((el :: els).take size) (tmpBuf.take size)
      let (input, tmpBuf) ← batchInverseChunks geometry left ((el :: els).drop size)
        (tmpBuf.drop size)
      return (dstChunk ++ input, tmpChunk ++ tmpBuf)

def batchInverseInplaceParallel (numCores : ℕ) (input tmpBuf : List K) :
    Option (List K × List K) := do
  let geometry ← getGeometryForNumCores numCores input.length
  batchInverseChunks geometry geometry.numChunks input tmpBuf

end Routines

/-! ## Every element becomes its inverse -/

section Results

variable {K : Type} [Field K] [DecidableEq K]

theorem checkedInverse_eq {a : K} (nonzero : a ≠ 0) : checkedInverse a = some a⁻¹ := if_neg nonzero

/-- Inverting element by element. -/
theorem mapM_checkedInverse {input : List K} (nonzero : ∀ el ∈ input, el ≠ 0) :
    input.mapM checkedInverse = some (input.map (·⁻¹)) :=
  mapM_eq_some fun el member => checkedInverse_eq (nonzero el member)

theorem batchInverseInplace_eq {input tmpBuffer : List K} (nonzero : ∀ el ∈ input, el ≠ 0)
    (sameLength : tmpBuffer.length = input.length) :
    ∃ scratch, batchInverseInplace input tmpBuffer = some (input.map (·⁻¹), scratch) ∧
      scratch.length = input.length := by
  cases input with
  | nil => exact ⟨tmpBuffer, rfl, sameLength⟩
  | cons first els =>
      cases tmpBuffer with
      | nil => exact absurd sameLength.symm (Nat.succ_ne_zero els.length)
      | cons out outs =>
          rcases List.forall_mem_cons.mp nonzero with ⟨here, later⟩
          have filled := accumulate_eq_products (Nat.succ.inj sameLength) first
          have total := checkedInverse_eq (products_ne_zero later here)
          have result := unwind_reverse nonzero
          rw [batchInverseInplace, filled]
          dsimp only
          rw [total, Option.bind_eq_bind, Option.bind_some, result]
          refine ⟨_, rfl, ?_⟩
          rw [List.length_cons, length_products, List.length_cons]

theorem batchInverseWithBuffer_eq {input : List K} (nonzero : ∀ el ∈ input, el ≠ 0) :
    batchInverseWithBuffer input [] = some (input.map (·⁻¹), []) := by
  cases input with
  | nil => rfl
  | cons first els =>
      rcases List.forall_mem_cons.mp nonzero with ⟨here, later⟩
      have total := checkedInverse_eq (products_ne_zero later here)
      have result := unwind_reverse nonzero
      rw [batchInverseWithBuffer, guard_of rfl, Option.bind_eq_bind, Option.bind_some]
      dsimp only
      rw [total, Option.bind_eq_bind, Option.bind_some, result]
      rfl

/-- The elements in reverse order are those of the slices from the last one on. -/
theorem batchInverseForSeveralSlicesInplace_eq {first : K} {els : List K} {slices : List (List K)}
    {tmpBuffer : List K} (nonzero : ∀ slice ∈ (first :: els) :: slices, ∀ el ∈ slice, el ≠ 0)
    (sameLength : tmpBuffer.length = (((first :: els) :: slices).map List.length).sum) :
    ∃ scratch, batchInverseForSeveralSlicesInplace ((first :: els) :: slices) tmpBuffer =
      some (((first :: els) :: slices).map (List.map (·⁻¹)), scratch) := by
  have flat : ((first :: els) :: slices).flatten = first :: (els ++ slices.flatten) := rfl
  have all : ∀ el ∈ first :: (els ++ slices.flatten), el ≠ 0 := by
    rw [← flat]
    intro el member
    rcases List.mem_flatten.mp member with ⟨slice, sliceMember, inSlice⟩
    exact nonzero slice sliceMember el inSlice
  have size : tmpBuffer.length = (els ++ slices.flatten).length + 1 := by
    rw [sameLength, ← List.length_flatten, flat, List.length_cons]
  have places : (tmpBuffer.drop 1).length = (els ++ slices.flatten).length := by
    rw [List.length_drop, size, Nat.add_sub_cancel]
  have filled := accumulate_eq_products places first
  have total := checkedInverse_eq (products_ne_zero (List.forall_mem_cons.mp all).2
    (List.forall_mem_cons.mp all).1)
  have backwards : ((first :: els) :: slices).reverse.flatMap List.reverse =
      (first :: (els ++ slices.flatten)).reverse := by
    rw [← flat, List.reverse_flatten, List.flatMap_def, List.map_reverse]
  have buffer : tmpBuffer ≠ [] := by
    intro empty
    rw [empty] at size
    exact Nat.succ_ne_zero _ size.symm
  rw [batchInverseForSeveralSlicesInplace, guard_of sameLength.symm, guard_of buffer]
  simp only [List.getElem?_cons_zero, Option.bind_eq_bind, Option.bind_some, flat,
    List.drop_succ_cons, List.drop_zero, filled, total, backwards, unwind_reverse all]
  rw [← flat, splitLengths_map_flatten]
  exact ⟨_, rfl⟩

/-- What is left of the work when `left` chunks are left. -/
def workLeft (geometry : WorkerGeometry) : ℕ → ℕ
  | 0 => 0
  | left + 1 => left * geometry.ordinaryChunkSize + geometry.lastChunkSize

/-- The next chunk and the work behind it. -/
theorem workLeft_succ {geometry : WorkerGeometry} {left : ℕ} (few : left + 1 ≤ geometry.numChunks) :
    workLeft geometry (left + 1) =
      (geometry.preparedChunk (geometry.numChunks - (left + 1))).2 + workLeft geometry left := by
  cases left with
  | zero =>
      rw [preparedChunk, if_pos rfl]
      change 0 * geometry.ordinaryChunkSize + geometry.lastChunkSize = geometry.lastChunkSize + 0
      omega
  | succ left =>
      have notLast : geometry.numChunks - (left + 1 + 1) ≠ geometry.numChunks - 1 := by omega
      rw [preparedChunk, if_neg notLast, workLeft, workLeft, Nat.succ_mul]
      omega

theorem batchInverseChunks_eq {geometry : WorkerGeometry} {left : ℕ} {input tmpBuf : List K}
    (few : left ≤ geometry.numChunks) (work : input.length = workLeft geometry left)
    (nonzero : ∀ el ∈ input, el ≠ 0) (sameLength : tmpBuf.length = input.length) :
    ∃ scratch, batchInverseChunks geometry left input tmpBuf = some (input.map (·⁻¹), scratch) := by
  induction left generalizing input tmpBuf with
  | zero =>
      have empty : input = [] := List.length_eq_zero_iff.mp work
      rw [empty]
      exact ⟨tmpBuf, by rw [batchInverseChunks, List.map_nil]⟩
  | succ left inductionHypothesis =>
      cases input with
      | nil => exact ⟨tmpBuf, by rw [batchInverseChunks, List.map_nil]⟩
      | cons el els =>
          have prepared : geometry.numChunks - (left + 1) < geometry.numChunks := by omega
          have chunk := getChunkSize_eq prepared
          rw [workLeft_succ few] at work
          generalize (geometry.preparedChunk (geometry.numChunks - (left + 1))).2 = size
            at chunk work
          have inInput : size ≤ (el :: els).length := by omega
          have inBuffer : size ≤ tmpBuf.length := by omega
          have buffer : tmpBuf ≠ [] := by
            intro empty
            rw [empty] at sameLength
            exact Nat.succ_ne_zero els.length sameLength.symm
          have headNonzero : ∀ x ∈ (el :: els).take size, x ≠ 0 :=
            fun x member => nonzero x (List.mem_of_mem_take member)
          have restNonzero : ∀ x ∈ (el :: els).drop size, x ≠ 0 :=
            fun x member => nonzero x (List.mem_of_mem_drop member)
          rcases batchInverseInplace_eq headNonzero
            (show (tmpBuf.take size).length = ((el :: els).take size).length by
              rw [List.length_take, List.length_take, sameLength]) with ⟨tmpChunk, task, _⟩
          rcases inductionHypothesis (Nat.le_of_succ_le few)
            (show ((el :: els).drop size).length = workLeft geometry left by
              rw [List.length_drop]
              omega) restNonzero
            (show (tmpBuf.drop size).length = ((el :: els).drop size).length by
              rw [List.length_drop, List.length_drop, sameLength]) with ⟨tmpRest, rest⟩
          rw [batchInverseChunks, chunk]
          simp only [guard_of inInput, if_neg buffer, guard_of inBuffer, task, rest,
            Option.bind_eq_bind, Option.bind_some, ← List.map_append, List.take_append_drop]
          exact ⟨_, rfl⟩

theorem batchInverseInplaceParallel_eq {numCores : ℕ} (cores : numCores ≠ 0)
    {input tmpBuf : List K} (work : input ≠ []) (nonzero : ∀ el ∈ input, el ≠ 0)
    (sameLength : tmpBuf.length = input.length) :
    ∃ scratch, batchInverseInplaceParallel numCores input tmpBuf =
      some (input.map (·⁻¹), scratch) := by
  have size : input.length ≠ 0 := fun empty => work (List.length_eq_zero_iff.mp empty)
  rcases getGeometryForNumCores_splits cores size with ⟨geometry, computed, _, splits⟩
  have positive := splits.positive
  have total : workLeft geometry geometry.numChunks = input.length := by
    rw [← splits.total, ← Nat.sub_add_cancel positive]
    rfl
  rw [batchInverseInplaceParallel, computed, Option.bind_eq_bind, Option.bind_some]
  exact batchInverseChunks_eq (Nat.le_refl _) total.symm nonzero sameLength

/-- The routines give what inverting element by element gives, whatever the scratch buffer holds
where one may hold anything. -/
structure InvertsEachElement (K : Type) [Field K] [DecidableEq K] : Prop where
  inplace : ∀ input tmpBuffer : List K, (∀ el ∈ input, el ≠ 0) →
    tmpBuffer.length = input.length → ∃ inverses scratch,
      input.mapM checkedInverse = some inverses ∧
        batchInverseInplace input tmpBuffer = some (inverses, scratch)
  withBuffer : ∀ input : List K, (∀ el ∈ input, el ≠ 0) → ∃ inverses,
    input.mapM checkedInverse = some inverses ∧
      batchInverseWithBuffer input [] = some (inverses, [])
  severalSlices : ∀ (slice : List K) (slices : List (List K)) (tmpBuffer : List K), slice ≠ [] →
    (∀ other ∈ slice :: slices, ∀ el ∈ other, el ≠ 0) →
      tmpBuffer.length = ((slice :: slices).map List.length).sum → ∃ inverses scratch,
        ((slice :: slices).mapM fun other => other.mapM checkedInverse) = some inverses ∧
          batchInverseForSeveralSlicesInplace (slice :: slices) tmpBuffer =
            some (inverses, scratch)
  parallel : ∀ numCores, numCores ≠ 0 → ∀ input tmpBuf : List K, input ≠ [] →
    (∀ el ∈ input, el ≠ 0) → tmpBuf.length = input.length → ∃ inverses scratch,
      input.mapM checkedInverse = some inverses ∧
        batchInverseInplaceParallel numCores input tmpBuf = some (inverses, scratch)

theorem batchInversion_invertsEachElement (K : Type) [Field K] [DecidableEq K] :
    InvertsEachElement K where
  inplace input tmpBuffer nonzero sameLength := by
    rcases batchInverseInplace_eq nonzero sameLength with ⟨scratch, inverted, _⟩
    exact ⟨_, scratch, mapM_checkedInverse nonzero, inverted⟩
  withBuffer input nonzero :=
    ⟨_, mapM_checkedInverse nonzero, batchInverseWithBuffer_eq nonzero⟩
  severalSlices slice slices tmpBuffer nonEmpty nonzero sameLength := by
    have each := mapM_eq_some fun other member => mapM_checkedInverse (nonzero other member)
    cases slice with
    | nil => exact absurd rfl nonEmpty
    | cons first els =>
        rcases batchInverseForSeveralSlicesInplace_eq nonzero sameLength with ⟨scratch, inverted⟩
        exact ⟨_, scratch, each, inverted⟩
  parallel numCores cores input tmpBuf work nonzero sameLength := by
    rcases batchInverseInplaceParallel_eq cores work nonzero sameLength with ⟨scratch, inverted⟩
    exact ⟨_, scratch, mapM_checkedInverse nonzero, inverted⟩

theorem batchInversion_invertsEachElement_quartic :
    ∃ inverses scratch,
      [(2 : Mersenne31Quartic), ⟨⟨0, 1⟩, ⟨5, 7⟩⟩, ⟨0, 3⟩].mapM checkedInverse = some inverses ∧
        batchInverseInplaceParallel 2 [(2 : Mersenne31Quartic), ⟨⟨0, 1⟩, ⟨5, 7⟩⟩, ⟨0, 3⟩]
          [0, 1, 0] = some (inverses, scratch) := by
  have nonzero : ∀ el ∈ [(2 : Mersenne31Quartic), ⟨⟨0, 1⟩, ⟨5, 7⟩⟩, ⟨0, 3⟩], el ≠ 0 := by
    decide +kernel
  exact (batchInversion_invertsEachElement Mersenne31Quartic).parallel 2 (by decide) _ _
    (List.cons_ne_nil _ _) nonzero rfl

/-- A buffer with contents fails the assertion of `batch_inverse_with_buffer`. -/
theorem not_inverts_with_filled_buffer :
    ¬ ∀ input tmpBuffer : List F, (∀ el ∈ input, el ≠ 0) → tmpBuffer.length = input.length →
      ∃ inverses scratch, input.mapM checkedInverse = some inverses ∧
        batchInverseWithBuffer input tmpBuffer = some (inverses, scratch) := by
  intro all
  have nonzero : ∀ el ∈ [(1 : F)], el ≠ 0 := by
    intro el member
    rw [List.mem_singleton.mp member]
    exact one_ne_zero
  rcases all [1] [0] nonzero rfl with ⟨_, _, _, inverted⟩
  have refused : batchInverseWithBuffer [(1 : F)] [0] = none := rfl
  rw [refused] at inverted
  cases inverted

end Results

end Airbender.Fft
