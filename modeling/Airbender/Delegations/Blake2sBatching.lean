import Airbender.Delegations.Blake2s

/-!
# Batched Blake2s rounds

Seven or ten calls of the round function, each fed the state and the control
word the previous one left, against the batch the executor computes at once.
-/

namespace Airbender.Blake2s

/-- `count` calls in a row from the given state words and control word. -/
def roundCalls (input : Vector U32 16) (words : Vector U32 24) (x12 : U32) :
    Nat → Option (Vector U32 24 × U32)
  | 0 => some (words, x12)
  | count + 1 => do
      let (words, x12) ← roundCalls input words x12 count
      roundFunctionImpl words input x12

/-! ## The control word -/

theorem controlBitmask_lt (x12 : U32) :
    (controlBitmask x12).toNat < 8 := by
  have masked : (controlBitmask x12).toNat ≤ 7 := by
    simp only [controlBitmask, blake2sNumControlBits, BitVec.toNat_and]
    exact Nat.and_le_right
  omega

/-- Packing and unpacking agree on every control value and every mask. -/
private theorem packControl_fields :
    ∀ (control : Fin 8) (index : Fin 11),
      controlBitmask
          (packControl (BitVec.ofNat 32 control)
            (truncatePermutation ((1 : U32) <<< index.val))) =
        BitVec.ofNat 32 control ∧
      permutationBitmask
          (packControl (BitVec.ofNat 32 control)
            (truncatePermutation ((1 : U32) <<< index.val))) =
        truncatePermutation ((1 : U32) <<< index.val) := by
  decide

private theorem controlBitmask_eq_ofNat (x12 : U32) :
    ∃ control : Fin 8, controlBitmask x12 = BitVec.ofNat 32 control :=
  ⟨⟨(controlBitmask x12).toNat, controlBitmask_lt x12⟩, by simp⟩

theorem controlBitmask_packControl
    (x12 : U32) {index : Nat} (small : index ≤ 10) :
    controlBitmask
        (packControl (controlBitmask x12) (truncatePermutation ((1 : U32) <<< index))) =
      controlBitmask x12 := by
  obtain ⟨control, controlEq⟩ := controlBitmask_eq_ofNat x12
  rw [controlEq]
  exact (packControl_fields control ⟨index, by omega⟩).1

theorem permutationBitmask_packControl
    (x12 : U32) {index : Nat} (small : index ≤ 10) :
    permutationBitmask
        (packControl (controlBitmask x12) (truncatePermutation ((1 : U32) <<< index))) =
      truncatePermutation ((1 : U32) <<< index) := by
  obtain ⟨control, controlEq⟩ := controlBitmask_eq_ofNat x12
  rw [controlEq]
  exact (packControl_fields control ⟨index, by omega⟩).2

theorem truncatePermutation_shiftLeft_one
    {index : Nat} (small : index < 10) :
    truncatePermutation ((1 : U32) <<< index) = (1 : U32) <<< index := by
  decide +revert

theorem acceptsControl_iff (x12 : U32) :
    acceptsControl x12 = true ↔ permutationBitmask x12 = 1 := by
  constructor
  · intro accepts
    simp only [acceptsControl, Bool.and_eq_true, beq_iff_eq] at accepts
    obtain ⟨exponent, small, maskEq⟩ := (isPowerOfTwo_iff _).mp accepts.1
    have exponentZero : exponent = 0 := by
      have indexZero := accepts.2
      rwa [maskEq, trailingZeros_shiftLeft_one small] at indexZero
    rw [maskEq, exponentZero]
    rfl
  · intro maskEq
    rw [acceptsControl, maskEq]
    decide

/-! ## The modes depend on the control bits only -/

section SameControl

variable {x12 x12' : U32} (sameControl : controlBitmask x12 = controlBitmask x12')
include sameControl

theorem modeCompression_congr : modeCompression x12 = modeCompression x12' := by
  rw [modeCompression, modeCompression, sameControl]

theorem reducedRounds_congr : reducedRounds x12 = reducedRounds x12' := by
  rw [reducedRounds, reducedRounds, sameControl]

theorem compressionModeNodeIsRight_congr :
    compressionModeNodeIsRight x12 = compressionModeNodeIsRight x12' := by
  rw [compressionModeNodeIsRight, compressionModeNodeIsRight, sameControl]

theorem mixRound_congr (input : Vector U32 16) (round : Fin 10) (state : FullState) :
    mixRound x12 input round state = mixRound x12' input round state := by
  rw [mixRound, mixRound, roundBuffer, roundBuffer,
    modeCompression_congr sameControl, compressionModeNodeIsRight_congr sameControl]

theorem finishState_congr (state : FullState) :
    finishState x12 state = finishState x12' state := by
  rw [finishState, finishState, modeCompression_congr sameControl]

theorem numRounds_congr : numRounds x12 = numRounds x12' := by
  rw [numRounds, numRounds, reducedRounds_congr sameControl]

theorem batchRound_congr (input : Vector U32 16) (state : FullState) (round : Nat) :
    batchRound x12 input state round = batchRound x12' input state round := by
  simp only [batchRound, numRounds_congr sameControl, mixRound_congr sameControl,
    finishState_congr sameControl]

end SameControl

/-! ## One call -/

theorem numRounds_le_ten (x12 : U32) : numRounds x12 ≤ 10 := by
  unfold numRounds
  split <;> omega

/-- The last-round test of one call is the one of the batch. -/
theorem lastRound_eq
    (x12 : U32) {index : Nat} (inBatch : index < numRounds x12) :
    (index == 9 || (reducedRounds x12 && index == 6)) =
      (index == numRounds x12 - 1) := by
  unfold numRounds at inBatch ⊢
  cases reduced : reducedRounds x12 with
  | true =>
      simp only [reduced, if_true] at inBatch ⊢
      have notNine : index ≠ 9 := by omega
      simp [notNine]
  | false => simp

/-- What one call does once its permutation bit is known. -/
theorem roundFunctionImpl_eq
    {x12 : U32} {index : Nat} (inBatch : index < numRounds x12)
    (bit : permutationBitmask x12 = (1 : U32) <<< index)
    (words : Vector U32 24) (input : Vector U32 16) :
    roundFunctionImpl words input x12 =
      let state := FullState.ofWords words
      let state := if index = 0 then initExtendedState x12 state else state
      some ((batchRound x12 input state index).toWords,
        packControl (controlBitmask x12)
          (truncatePermutation ((1 : U32) <<< (index + 1)))) := by
  have indexBound : index < 10 :=
    Nat.lt_of_lt_of_le inBatch (numRounds_le_ten x12)
  have powerOfTwo : isPowerOfTwo ((1 : U32) <<< index) = true :=
    (isPowerOfTwo_iff _).mpr ⟨index, by omega, rfl⟩
  have roundIndex : Fin.ofNat 10 index = ⟨index, indexBound⟩ :=
    Fin.ext (Nat.mod_eq_of_lt indexBound)
  simp only [roundFunctionImpl, bit, powerOfTwo, if_true,
    trailingZeros_shiftLeft_one (show index < 32 by omega), indexBound, dite_true,
    lastRound_eq x12 inBatch, batchRound, roundIndex, ← BitVec.shiftLeft_add]

/-! ## The run of calls -/

/-- The state after the first `count` rounds of the batch. -/
def stateAfter (x12 : U32) (words : Vector U32 24) (input : Vector U32 16)
    (count : Nat) : FullState :=
  (List.range count).foldl (batchRound x12 input)
    (initExtendedState x12 (FullState.ofWords words))

theorem stateAfter_succ
    (x12 : U32) (words : Vector U32 24) (input : Vector U32 16) (count : Nat) :
    stateAfter x12 words input (count + 1) =
      batchRound x12 input (stateAfter x12 words input count) count := by
  simp only [stateAfter, List.range_succ, List.foldl_append, List.foldl_cons,
    List.foldl_nil]

/-- After at least one call the words are those of the batch so far, and the
control word keeps its flags above a single permutation bit. -/
theorem roundCalls_succ
    {x12 : U32} (accepted : acceptsControl x12 = true)
    (words : Vector U32 24) (input : Vector U32 16) :
    ∀ {count : Nat}, count < numRounds x12 →
      roundCalls input words x12 (count + 1) =
        some ((stateAfter x12 words input (count + 1)).toWords,
          packControl (controlBitmask x12)
            (truncatePermutation ((1 : U32) <<< (count + 1))))
  | 0, inBatch => by
      have firstBit : permutationBitmask x12 = (1 : U32) <<< 0 :=
        (acceptsControl_iff x12).mp accepted
      simp only [roundCalls, Option.bind_eq_bind, Option.bind_some,
        roundFunctionImpl_eq inBatch firstBit, if_true, stateAfter_succ]
      rfl
  | count + 1, inBatch => by
      have previous :=
        roundCalls_succ accepted words input (Nat.lt_of_succ_lt inBatch)
      have smallIndex : count + 1 < 10 :=
        Nat.lt_of_lt_of_le inBatch (numRounds_le_ten x12)
      have sameControl :=
        controlBitmask_packControl x12 (show count + 1 ≤ 10 by omega)
      have bit :
          permutationBitmask
              (packControl (controlBitmask x12)
                (truncatePermutation ((1 : U32) <<< (count + 1)))) =
            (1 : U32) <<< (count + 1) := by
        rw [permutationBitmask_packControl x12 (by omega),
          truncatePermutation_shiftLeft_one smallIndex]
      rw [roundCalls, previous]
      simp only [Option.bind_eq_bind, Option.bind_some]
      rw [roundFunctionImpl_eq (by rwa [numRounds_congr sameControl]) bit]
      simp only [Nat.succ_ne_zero, if_false, FullState.ofWords_toWords,
        batchRound_congr sameControl, sameControl, ← stateAfter_succ]

theorem numRounds_pos (x12 : U32) : 0 < numRounds x12 := by
  unfold numRounds
  split <;> omega

theorem finalX12_eq (x12 : U32) :
    finalX12 x12 =
      packControl (controlBitmask x12)
        (truncatePermutation ((1 : U32) <<< numRounds x12)) := by
  unfold finalX12 numRounds
  split <;> rfl

/-- The full run of calls computes the batched words and the batched `x12`. -/
theorem roundCalls_numRounds
    {x12 : U32} (accepted : acceptsControl x12 = true)
    (words : Vector U32 24) (input : Vector U32 16) :
    roundCalls input words x12 (numRounds x12) =
      some (batchWords x12 words input, finalX12 x12) := by
  obtain ⟨count, countEq⟩ : ∃ count, numRounds x12 = count + 1 :=
    Nat.exists_eq_succ_of_ne_zero (numRounds_pos x12).ne'
  have calls :=
    roundCalls_succ accepted words input (show count < numRounds x12 by omega)
  rw [finalX12_eq, batchWords, countEq]
  exact calls

/-- Before each call exactly the bit of that call is set in the permutation mask. -/
theorem roundCalls_permutationBitmask
    {x12 : U32} (accepted : acceptsControl x12 = true)
    (words : Vector U32 24) (input : Vector U32 16)
    {count : Nat} (inBatch : count < numRounds x12) :
    ∃ currentWords currentX12,
      roundCalls input words x12 count = some (currentWords, currentX12) ∧
        permutationBitmask currentX12 = (1 : U32) <<< count := by
  have smallIndex : count < 10 :=
    Nat.lt_of_lt_of_le inBatch (numRounds_le_ten x12)
  cases count with
  | zero => exact ⟨words, x12, rfl, (acceptsControl_iff x12).mp accepted⟩
  | succ count =>
      refine ⟨_, _, roundCalls_succ accepted words input (Nat.lt_of_succ_lt inBatch), ?_⟩
      rw [permutationBitmask_packControl x12 (by omega),
        truncatePermutation_shiftLeft_one smallIndex]

end Airbender.Blake2s
