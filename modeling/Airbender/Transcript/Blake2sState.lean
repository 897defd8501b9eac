import Airbender.Delegations.Blake2s

/-!
# The Blake2s state of the host

`Blake2sState` of the `blake2s_u32` crate: a chaining value, an input buffer that the caller
fills, and the count of absorbed bytes.
-/

namespace Airbender.Blake2s

def blockSizeU32Words : Nat := 16

def digestSizeU32Words : Nat := 8

structure Blake2sState where
  state : Vector U32 8
  inputBuffer : Vector U32 16
  /-- Inputs are limited to 4 GiB. -/
  t : U32
deriving DecidableEq

def roundFunctionReducedRounds (state messageBlock : Vector U32 16) : Vector U32 16 :=
  (sigmas.toList.take 7).foldl (fun state sigma => mixingFunction state messageBlock sigma) state

def roundFunctionFullRounds (state messageBlock : Vector U32 16) : Vector U32 16 :=
  sigmas.toList.foldl (fun state sigma => mixingFunction state messageBlock sigma) state

namespace Blake2sState

/-- `Blake2sState::new`. -/
def new : Blake2sState where
  state := configuredIv
  inputBuffer := Vector.replicate 16 0
  t := 0

def readStateForOutput (hasher : Blake2sState) : Vector U32 8 := hasher.state

/-- The buffer keeps its old words. -/
def reset (hasher : Blake2sState) : Blake2sState :=
  { hasher with state := configuredIv, t := 0 }

/-- The working state of a block: chaining value, constants, byte count and last-block flag. -/
def extendedState (state : Vector U32 8) (t : U32) (lastRound : Bool) : Vector U32 16 :=
  #v[state.get 0, state.get 1, state.get 2, state.get 3,
    state.get 4, state.get 5, state.get 6, state.get 7,
    iv.get 0, iv.get 1, iv.get 2, iv.get 3,
    t ^^^ iv.get 4, iv.get 5, (0xffffffff * if lastRound then 1 else 0) ^^^ iv.get 6, iv.get 7]

/-- The chaining value after a block. -/
def compress (reducedRounds : Bool) (state : Vector U32 8) (t : U32) (lastRound : Bool)
    (block : Vector U32 16) : Vector U32 8 :=
  let extended := extendedState state t lastRound
  let mixed :=
    if reducedRounds then roundFunctionReducedRounds extended block
    else roundFunctionFullRounds extended block
  Vector.ofFn fun i : Fin 8 => state.get i ^^^ mixed.get (i.castAdd 8) ^^^ mixed.get (i.addNat 8)

/-- `run_round_function`. -/
def runRoundFunction (reducedRounds : Bool) (hasher : Blake2sState) (inputSizeWords : Nat)
    (lastRound : Bool) : Blake2sState :=
  let t := hasher.t + BitVec.ofNat 32 (inputSizeWords * 4)
  { hasher with
    state := compress reducedRounds hasher.state t lastRound hasher.inputBuffer
    t := t }

/-! ## Filling the buffer -/

/-- `spec_memcopy_u32_nonoverlapping` into the buffer at a word offset. -/
def copyIn (hasher : Blake2sState) (offset : Nat) (words : List U32) : Blake2sState :=
  { hasher with
    inputBuffer := Vector.ofFn fun i : Fin 16 =>
      if offset ≤ i.val then words[i.val - offset]?.getD (hasher.inputBuffer.get i)
      else hasher.inputBuffer.get i }

/-- `spec_memzero_u32` from a word offset to the end of the buffer. -/
def zeroFrom (hasher : Blake2sState) (offset : Nat) : Blake2sState :=
  { hasher with
    inputBuffer := Vector.ofFn fun i : Fin 16 =>
      if i.val < offset then hasher.inputBuffer.get i else 0 }

/-- A block of at most sixteen words, padded with zeros. -/
def blockOfWords (words : List U32) : Vector U32 16 :=
  Vector.ofFn fun i : Fin 16 => words[i.val]?.getD 0

/-- The words of the buffer before an offset. -/
def wordsBefore (hasher : Blake2sState) (offset : Nat) : List U32 :=
  hasher.inputBuffer.toList.take offset

theorem length_wordsBefore (hasher : Blake2sState) (offset : Nat) :
    (hasher.wordsBefore offset).length = min offset 16 := by
  rw [wordsBefore, List.length_take, Vector.length_toList]

theorem getElem?_wordsBefore (hasher : Blake2sState) {offset i : Nat} (before : i < offset)
    (bound : i < 16) : (hasher.wordsBefore offset)[i]? = some hasher.inputBuffer[i] := by
  rw [wordsBefore, List.getElem?_take_of_lt before, Vector.getElem?_toList,
    Vector.getElem?_eq_getElem bound]

theorem wordsBefore_copyIn (hasher : Blake2sState) {offset : Nat} {words : List U32}
    (fits : offset + words.length ≤ 16) :
    (hasher.copyIn offset words).wordsBefore (offset + words.length) =
      hasher.wordsBefore offset ++ words := by
  apply List.ext_getElem?
  intro i
  rcases Nat.lt_or_ge i (offset + words.length) with inside | outside
  · have bound : i < 16 := by omega
    rw [getElem?_wordsBefore _ inside bound, copyIn]
    simp only [Vector.getElem_ofFn]
    rcases Nat.lt_or_ge i offset with before | after
    · rw [if_neg (Nat.not_le.mpr before), List.getElem?_append_left (by
        rw [length_wordsBefore]; omega), getElem?_wordsBefore _ before bound]
      rfl
    · have length : (hasher.wordsBefore offset).length = offset := by
        rw [length_wordsBefore]; omega
      rw [if_pos after, List.getElem?_append_right (by omega), length,
        List.getElem?_eq_getElem (by omega : i - offset < words.length)]
      rfl
  · have left : ((hasher.copyIn offset words).wordsBefore (offset + words.length)).length ≤ i := by
      rw [length_wordsBefore]; omega
    have right : (hasher.wordsBefore offset ++ words).length ≤ i := by
      rw [List.length_append, length_wordsBefore]; omega
    rw [List.getElem?_eq_none left, List.getElem?_eq_none right]

/-- The padded buffer is the block of the words before the offset. -/
theorem inputBuffer_zeroFrom (hasher : Blake2sState) (offset : Nat) :
    (hasher.zeroFrom offset).inputBuffer = blockOfWords (hasher.wordsBefore offset) := by
  apply Vector.ext
  intro i bound
  rw [zeroFrom, blockOfWords]
  simp only [Vector.getElem_ofFn]
  split
  · rename_i before
    rw [getElem?_wordsBefore _ before bound]
    rfl
  · rename_i after
    rw [List.getElem?_eq_none (by rw [length_wordsBefore]; omega)]
    rfl

theorem inputBuffer_eq_blockOfWords (hasher : Blake2sState) :
    hasher.inputBuffer = blockOfWords (hasher.wordsBefore 16) := by
  rw [← inputBuffer_zeroFrom]
  apply Vector.ext
  intro i bound
  rw [zeroFrom]
  simp only [Vector.getElem_ofFn]
  rw [if_pos bound]
  rfl

end Blake2sState

end Airbender.Blake2s
