import Airbender.Delegations.Bits

/-!
# The Blake2s round function

The mixing function, one round of the delegation (`blake2_round_function_impl`)
and the batch of seven or ten rounds the executor runs in one go.
-/

namespace Airbender.Blake2s

/-! ## Constants -/

def iv : Vector U32 8 :=
  #v[0x6A09E667, 0xBB67AE85, 0x3C6EF372, 0xA54FF53A,
    0x510E527F, 0x9B05688C, 0x1F83D9AB, 0x5BE0CD19]

/-- No tree, and 32 bytes of digest. -/
def iv0Twist : U32 := 0x6A09E667 ^^^ 0x01010000 ^^^ 32

def configuredIv : Vector U32 8 := iv.set 0 iv0Twist

def blockSizeBytes : U32 := 64

def sigmas : Vector (Vector (Fin 16) 16) 10 :=
  #v[#v[0, 1, 2, 3, 4, 5, 6, 7, 8, 9, 10, 11, 12, 13, 14, 15],
    #v[14, 10, 4, 8, 9, 15, 13, 6, 1, 12, 0, 2, 11, 7, 5, 3],
    #v[11, 8, 12, 0, 5, 2, 15, 13, 10, 14, 3, 6, 7, 1, 9, 4],
    #v[7, 9, 3, 1, 13, 12, 11, 14, 2, 6, 5, 10, 4, 0, 15, 8],
    #v[9, 0, 5, 7, 2, 4, 10, 15, 14, 1, 11, 12, 6, 8, 3, 13],
    #v[2, 12, 6, 10, 0, 11, 8, 3, 4, 13, 7, 5, 15, 14, 1, 9],
    #v[12, 5, 1, 15, 14, 13, 4, 10, 0, 7, 6, 3, 9, 2, 8, 11],
    #v[13, 11, 7, 14, 12, 1, 3, 9, 5, 0, 15, 4, 8, 6, 2, 10],
    #v[6, 15, 14, 9, 11, 3, 0, 8, 12, 2, 13, 7, 1, 4, 10, 5],
    #v[10, 2, 8, 4, 7, 6, 1, 5, 15, 11, 9, 14, 3, 12, 13, 0]]

def testIfReduceRoundsMask : U32 := (1 : U32) <<< 0

def testIfInputIsRightNodeMask : U32 := (1 : U32) <<< 1

def testIfCompressionModeMask : U32 := (1 : U32) <<< 2

/-! ## The mixing function -/

def gFunction (v : Vector U32 16) (a b c d : Fin 16) (x y : U32) : Vector U32 16 :=
  let v := v.set a (v[a] + v[b] + x)
  let v := v.set d ((v[d] ^^^ v[a]).rotateRight 16)
  let v := v.set c (v[c] + v[d])
  let v := v.set b ((v[b] ^^^ v[c]).rotateRight 12)
  let v := v.set a (v[a] + v[b] + y)
  let v := v.set d ((v[d] ^^^ v[a]).rotateRight 8)
  let v := v.set c (v[c] + v[d])
  v.set b ((v[b] ^^^ v[c]).rotateRight 7)

/-- Mix columns, then diagonals. -/
def mixingFunction
    (state messageBlock : Vector U32 16) (sigma : Vector (Fin 16) 16) :
    Vector U32 16 :=
  let m (i : Fin 16) : U32 := messageBlock[sigma[i]]
  let state := gFunction state 0 4 8 12 (m 0) (m 1)
  let state := gFunction state 1 5 9 13 (m 2) (m 3)
  let state := gFunction state 2 6 10 14 (m 4) (m 5)
  let state := gFunction state 3 7 11 15 (m 6) (m 7)
  let state := gFunction state 0 5 10 15 (m 8) (m 9)
  let state := gFunction state 1 6 11 12 (m 10) (m 11)
  let state := gFunction state 2 7 8 13 (m 12) (m 13)
  gFunction state 3 4 9 14 (m 14) (m 15)

/-! ## The control word -/

def controlBitmask (x12 : U32) : U32 :=
  (x12 >>> 16) &&& (((1 : U32) <<< blake2sNumControlBits) - 1)

def modeCompression (x12 : U32) : Bool :=
  controlBitmask x12 &&& testIfCompressionModeMask == testIfCompressionModeMask

def reducedRounds (x12 : U32) : Bool :=
  controlBitmask x12 &&& testIfReduceRoundsMask == testIfReduceRoundsMask

def compressionModeNodeIsRight (x12 : U32) : Bool :=
  controlBitmask x12 &&& testIfInputIsRightNodeMask == testIfInputIsRightNodeMask

def permutationBitmask (x12 : U32) : U32 :=
  x12 >>> (16 + blake2sNumControlBits)

/-- The control flags above a permutation mask. -/
def packControl (control permutation : U32) : U32 :=
  (control ||| (permutation <<< blake2sNumControlBits)) <<< 16

/-- The bits of a permutation mask that the control word keeps. -/
def truncatePermutation (permutation : U32) : U32 :=
  permutation &&& (((1 : U32) <<< blake2sMaxRounds) - 1)

/-! ## State initialisation, input and output -/

/-- The 24 words at `x10`: the chaining value and the extended state. -/
structure FullState where
  blakeState : Vector U32 8
  extendedState : Vector U32 16
deriving DecidableEq

namespace FullState

def ofWords (words : Vector U32 24) : FullState where
  blakeState := Vector.ofFn fun i => words[i.val]
  extendedState := Vector.ofFn fun i => words[8 + i.val]

def toWords (state : FullState) : Vector U32 24 :=
  (state.blakeState ++ state.extendedState).cast (rfl : 8 + 16 = 24)

@[simp]
theorem ofWords_toWords (state : FullState) :
    ofWords state.toWords = state := by
  obtain ⟨blakeState, extendedState⟩ := state
  simp only [ofWords, toWords, mk.injEq]
  constructor
  · apply Vector.ext
    intro i bound
    simp only [Vector.getElem_ofFn, Vector.getElem_cast]
    exact Vector.getElem_append_left bound
  · apply Vector.ext
    intro i bound
    simp only [Vector.getElem_ofFn, Vector.getElem_cast]
    rw [Vector.getElem_append_right (by omega) (by omega)]
    simp only [Nat.add_sub_cancel_left]

end FullState

def initExtendedState (x12 : U32) (state : FullState) : FullState :=
  if modeCompression x12 then
    let extended : Vector U32 16 := configuredIv ++ iv
    let extended := extended.set 12 (extended[12] ^^^ blockSizeBytes)
    let extended := extended.set 14 (extended[14] ^^^ 0xffffffff)
    { state with extendedState := extended }
  else
    -- words 12 and 14 carry the counter and the finalisation flag of the caller
    let extended : Vector U32 16 :=
      #v[state.blakeState[0], state.blakeState[1], state.blakeState[2],
        state.blakeState[3], state.blakeState[4], state.blakeState[5],
        state.blakeState[6], state.blakeState[7],
        iv[0], iv[1], iv[2], iv[3],
        state.extendedState[12], iv[5], state.extendedState[14], iv[7]]
    { state with extendedState := extended }

/-- The message block of a round: the input itself, or two tree nodes in order. -/
def roundBuffer (x12 : U32) (blakeState : Vector U32 8) (input : Vector U32 16) :
    Vector U32 16 :=
  if modeCompression x12 then
    let node : Vector U32 8 := Vector.ofFn fun i => input[i.val]
    if compressionModeNodeIsRight x12 then
      node ++ blakeState
    else
      blakeState ++ node
  else
    input

def mixRound (x12 : U32) (input : Vector U32 16) (round : Fin 10) (state : FullState) :
    FullState :=
  { state with
    extendedState :=
      mixingFunction state.extendedState (roundBuffer x12 state.blakeState input)
        sigmas[round] }

/-- The feed-forward XOR of the last round. -/
def finishState (x12 : U32) (state : FullState) : FullState :=
  let start := if modeCompression x12 then configuredIv else state.blakeState
  { state with
    blakeState := Vector.ofFn fun i : Fin 8 =>
      start[i] ^^^ (state.extendedState[i.val] ^^^ state.extendedState[i.val + 8]) }

/-! ## One round -/

/-- `blake2_round_function_impl`: the words at `x10` after one round and the next
value of `x12`. -/
def roundFunctionImpl
    (stateAccesses : Vector U32 24) (input : Vector U32 16) (x12 : U32) :
    Option (Vector U32 24 × U32) :=
  let permutation := permutationBitmask x12
  let permutationIndex := trailingZeros permutation
  if isPowerOfTwo permutation then
    -- the index selects one of ten rows of `SIGMAS`
    if inRange : permutationIndex < 10 then
      let lastRound :=
        permutationIndex == 9 || (reducedRounds x12 && permutationIndex == 6)
      let updatedX12 :=
        packControl (controlBitmask x12) (truncatePermutation (permutation <<< 1))
      let state := FullState.ofWords stateAccesses
      let state := if permutationIndex = 0 then initExtendedState x12 state else state
      let state := mixRound x12 input ⟨permutationIndex, inRange⟩ state
      let state := if lastRound then finishState x12 state else state
      some (state.toWords, updatedX12)
    else
      none
  else
    none

/-! ## The batch of all rounds -/

/-- The conditions the batched call puts on `x12`. -/
def acceptsControl (x12 : U32) : Bool :=
  isPowerOfTwo (permutationBitmask x12) && trailingZeros (permutationBitmask x12) == 0

def numRounds (x12 : U32) : Nat :=
  if reducedRounds x12 then 7 else 10

def finalX12 (x12 : U32) : U32 :=
  let finalPermutationBitmask :=
    if reducedRounds x12 then
      truncatePermutation ((1 : U32) <<< 7)
    else
      truncatePermutation ((1 : U32) <<< 10)
  packControl (controlBitmask x12) finalPermutationBitmask

/-- One pass of the loop over the rounds. -/
def batchRound (x12 : U32) (input : Vector U32 16) (state : FullState) (round : Nat) :
    FullState :=
  let lastRound := round == numRounds x12 - 1
  let state := mixRound x12 input (Fin.ofNat 10 round) state
  if lastRound then finishState x12 state else state

/-- The state words computed by one batched call. -/
def batchWords (x12 : U32) (words : Vector U32 24) (input : Vector U32 16) :
    Vector U32 24 :=
  let state := initExtendedState x12 (FullState.ofWords words)
  ((List.range (numRounds x12)).foldl (batchRound x12 input) state).toWords

end Airbender.Blake2s
