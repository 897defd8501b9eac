import Airbender.Merkle.LeafHash

/-!
# The two verifiers of leaf inclusion

The plain verifier copies every block and every pair of nodes into the buffer of its hasher.  The
one with alternative compression hands whole blocks to the round function and lets it order the
nodes.  Both take the path from the non-determinism source, and both run the chain of the leaf.
-/

namespace Airbender.Merkle

open Blake2s Blake2sState

/-! ## The common part -/

/-- Where the verifiers differ: the leaf, a step on the path, and the digest at the end. -/
structure LeafInclusionVerifier (Hasher : Type) where
  hashLeaf : Hasher → List U32 → Hasher
  compressNode : Hasher → Bool → Digest → Hasher
  readStateForOutput : Hasher → Digest

/-- Eight words of `I::read_word`. -/
def readWitness : List U32 → Option (Digest × List U32)
  | w0 :: w1 :: w2 :: w3 :: w4 :: w5 :: w6 :: w7 :: stream =>
      some (#v[w0, w1, w2, w3, w4, w5, w6, w7], stream)
  | _ => none

/-- The rounds before the last one, and the words of the last one. -/
def roundLengths (inputLenWords : Nat) : Nat × Nat :=
  let numFullRounds := inputLenWords / blockSizeU32Words
  let lastRoundLen := inputLenWords % blockSizeU32Words
  if lastRoundLen = 0 then
    (if numFullRounds > 0 then numFullRounds - 1 else numFullRounds, blockSizeU32Words)
  else
    (numFullRounds, lastRoundLen)

namespace LeafInclusionVerifier

variable {Hasher : Type} (verifier : LeafInclusionVerifier Hasher)

/-- The loop over the path, with the index that is left. -/
def followPath : Nat → Nat → Hasher → List U32 → Option (Nat × Hasher × List U32)
  | 0, index, hasher, stream => some (index, hasher, stream)
  | depth + 1, index, hasher, stream => do
      let inputIsRight := index &&& 1 == 1
      let (witness, stream) ← readWitness stream
      followPath depth (index >>> 1) (verifier.compressNode hasher inputIsRight witness) stream

/-- The comparison with the cap, word by word. -/
def equalDigests (outputHash cap : Digest) : Bool :=
  (List.finRange 8).foldl (fun equal i => equal && outputHash.get i == cap.get i) true

/-- `verify_leaf_inclusion`.  No result stands for a place outside of the cap, or a source that
has run out. -/
def verifyLeafInclusion (hasher : Hasher) (cosetIndex leafIndex : U32) (depth : Nat)
    (leafEncoding : List U32) (merkleCap : List (List Digest)) (stream : List U32) :
    Option (Bool × Hasher × List U32) := do
  let hasher := verifier.hashLeaf hasher leafEncoding
  let (index, hasher, stream) ← verifier.followPath depth leafIndex.toNat hasher stream
  let caps ← merkleCap[cosetIndex.toNat]?
  let cap ← caps[index]?
  some (equalDigests (verifier.readStateForOutput hasher) cap, hasher, stream)

end LeafInclusionVerifier

/-! ## The plain verifier -/

namespace Blake2sForEverythingVerifier

/-- A full round, from the words of the leaf at the source pointer. -/
def absorbFullRound (leafEncoding : List U32) (hasher : Blake2sState) (i : Nat) : Blake2sState :=
  let words := (leafEncoding.drop (blockSizeU32Words * i)).take blockSizeU32Words
  (hasher.copyIn 0 words).runRoundFunction useReducedBlake2Rounds blockSizeU32Words false

def hashLeaf (hasher : Blake2sState) (leafEncoding : List U32) : Blake2sState :=
  let hasher := hasher.reset
  let (numFullRounds, lastRoundLen) := roundLengths leafEncoding.length
  let hasher := (List.range numFullRounds).foldl (absorbFullRound leafEncoding) hasher
  let words := (leafEncoding.drop (blockSizeU32Words * numFullRounds)).take lastRoundLen
  ((hasher.copyIn 0 words).zeroFrom lastRoundLen).runRoundFunction useReducedBlake2Rounds
    lastRoundLen true

/-- The state goes to its half of the buffer, the witness to the other one. -/
def compressNode (hasher : Blake2sState) (inputIsRight : Bool) (witness : Digest) :
    Blake2sState :=
  let previousHashDst := digestSizeU32Words * inputIsRight.toNat
  let witnessDst := digestSizeU32Words * (!inputIsRight).toNat
  let hasher := hasher.copyIn previousHashDst hasher.readStateForOutput.toList
  let hasher := hasher.copyIn witnessDst witness.toList
  hasher.reset.runRoundFunction useReducedBlake2Rounds blockSizeU32Words true

def verifier : LeafInclusionVerifier Blake2sState where
  hashLeaf := hashLeaf
  compressNode := compressNode
  readStateForOutput := Blake2sState.readStateForOutput

end Blake2sForEverythingVerifier

/-! ## The verifier with alternative compression -/

/-- `Blake2RoundFunctionEvaluator`, without the scratch space of the delegated call. -/
structure Blake2RoundFunctionEvaluator where
  state : Digest
  inputBuffer : Vector U32 16
  t : U32
deriving DecidableEq

namespace Blake2RoundFunctionEvaluator

def reset (hasher : Blake2RoundFunctionEvaluator) : Blake2RoundFunctionEvaluator :=
  { hasher with state := configuredIv, t := 0 }

def readStateForOutput (hasher : Blake2RoundFunctionEvaluator) : Digest := hasher.state

/-- `run_round_function_with_input`. -/
def runRoundFunctionWithInput (hasher : Blake2RoundFunctionEvaluator)
    (inputBuffer : Vector U32 16) (inputSizeWords : Nat) (lastRound : Bool) :
    Blake2RoundFunctionEvaluator :=
  let t := hasher.t + BitVec.ofNat 32 (inputSizeWords * 4)
  { hasher with
    state := compress useReducedBlake2Rounds hasher.state t lastRound inputBuffer
    t := t }

/-- The first eight words of the buffer, which hold the witness. -/
def witnessBuffer (hasher : Blake2RoundFunctionEvaluator) : Digest :=
  Vector.ofFn fun i : Fin 8 => hasher.inputBuffer.get (i.castAdd 8)

/-- Writes the witness through `get_witness_buffer`. -/
def writeWitness (hasher : Blake2RoundFunctionEvaluator) (witness : Digest) :
    Blake2RoundFunctionEvaluator :=
  { hasher with
    inputBuffer := Vector.ofFn fun i : Fin 16 => witness[i.val]?.getD (hasher.inputBuffer.get i) }

/-- `compress_node`: the constants of a single closing block of 64 bytes. -/
def compressNode (hasher : Blake2RoundFunctionEvaluator) (isRight : Bool) :
    Blake2RoundFunctionEvaluator :=
  let input : Vector U32 16 :=
    if isRight then hasher.witnessBuffer ++ hasher.state
    else hasher.state ++ hasher.witnessBuffer
  { hasher with
    state := compress useReducedBlake2Rounds configuredIv blockSizeBytes true input }

end Blake2RoundFunctionEvaluator

namespace Blake2sForEverythingVerifierWithAlternativeCompression

open Blake2RoundFunctionEvaluator

/-- A full round on the words of the leaf in place. -/
def absorbFullRound (leafEncoding : List U32) (hasher : Blake2RoundFunctionEvaluator) (i : Nat) :
    Blake2RoundFunctionEvaluator :=
  let words := (leafEncoding.drop (blockSizeU32Words * i)).take blockSizeU32Words
  hasher.runRoundFunctionWithInput (blockOfWords words) blockSizeU32Words false

def hashLeaf (hasher : Blake2RoundFunctionEvaluator) (leafEncoding : List U32) :
    Blake2RoundFunctionEvaluator :=
  let hasher := hasher.reset
  let (numFullRounds, lastRoundLen) := roundLengths leafEncoding.length
  let hasher := (List.range numFullRounds).foldl (absorbFullRound leafEncoding) hasher
  let words := (leafEncoding.drop (blockSizeU32Words * numFullRounds)).take lastRoundLen
  hasher.runRoundFunctionWithInput (blockOfWords words) lastRoundLen true

def compressNode (hasher : Blake2RoundFunctionEvaluator) (inputIsRight : Bool)
    (witness : Digest) : Blake2RoundFunctionEvaluator :=
  (hasher.writeWitness witness).compressNode inputIsRight

def verifier : LeafInclusionVerifier Blake2RoundFunctionEvaluator where
  hashLeaf := hashLeaf
  compressNode := compressNode
  readStateForOutput := Blake2RoundFunctionEvaluator.readStateForOutput

end Blake2sForEverythingVerifierWithAlternativeCompression

/-! ## What a verifier computes -/

/-- A verifier whose digests are those of the chain. -/
structure LeafInclusionVerifier.RunsChain {Hasher : Type} (verifier : LeafInclusionVerifier Hasher) :
    Prop where
  leaf : ∀ hasher leafEncoding, leafEncoding ≠ [] →
    verifier.readStateForOutput (verifier.hashLeaf hasher leafEncoding) = leafHash leafEncoding
  node : ∀ hasher inputIsRight witness,
    verifier.readStateForOutput (verifier.compressNode hasher inputIsRight witness) =
      chain.step (verifier.readStateForOutput hasher) (.sibling inputIsRight witness)

theorem roundLengths_eq {words : List U32} (nonempty : words ≠ []) :
    (roundLengths words.length).1 = numInnerBlocks words ∧
      numInnerBlocks words * 16 + (roundLengths words.length).2 = words.length ∧
      (roundLengths words.length).2 ≤ 16 := by
  have positive : 0 < words.length := List.length_pos_of_ne_nil nonempty
  rw [roundLengths, numInnerBlocks, blockSizeU32Words]
  by_cases full : words.length % 16 = 0
  · have several : words.length / 16 > 0 := by omega
    rw [if_pos full, if_pos several]
    exact ⟨by omega, by omega, Nat.le_refl 16⟩
  · rw [if_neg full]
    exact ⟨by omega, by omega, by omega⟩

theorem leafBlock_last {words : List U32} {count : Nat}
    (rest : numInnerBlocks words * 16 + count = words.length) (short : count ≤ 16) :
    blockOfWords ((words.drop (16 * numInnerBlocks words)).take count) =
      leafBlock words (numInnerBlocks words) := by
  have length : (words.drop (16 * numInnerBlocks words)).length = count := by
    rw [List.length_drop]
    omega
  rw [leafBlock, List.take_of_length_le (by omega), List.take_of_length_le (by omega)]

theorem length_innerWords {words : List U32} {i : Nat} (inner : i < numInnerBlocks words) :
    ((words.drop (16 * i)).take 16).length = 16 := by
  rw [numInnerBlocks] at inner
  rw [List.length_take, List.length_drop]
  omega

/-- Words that start the buffer are all that is read of it after padding. -/
theorem inputBuffer_copyIn_zeroFrom (hasher : Blake2sState) {words : List U32}
    (short : words.length ≤ 16) :
    ((hasher.copyIn 0 words).zeroFrom words.length).inputBuffer = blockOfWords words := by
  have before := wordsBefore_copyIn hasher (show 0 + words.length ≤ 16 by omega)
  have nothing : hasher.wordsBefore 0 = [] := List.take_zero
  rw [Nat.zero_add, nothing, List.nil_append] at before
  rw [inputBuffer_zeroFrom, before]

theorem inputBuffer_copyIn_full (hasher : Blake2sState) {words : List U32}
    (full : words.length = 16) : (hasher.copyIn 0 words).inputBuffer = blockOfWords words := by
  have before := wordsBefore_copyIn hasher (show 0 + words.length ≤ 16 by omega)
  have nothing : hasher.wordsBefore 0 = [] := List.take_zero
  rw [Nat.zero_add, nothing, List.nil_append, full] at before
  rw [inputBuffer_eq_blockOfWords, before]

namespace Blake2sForEverythingVerifier

theorem state_runRoundFunction (hasher : Blake2sState) (inputSizeWords : Nat) (lastRound : Bool) :
    (hasher.runRoundFunction useReducedBlake2Rounds inputSizeWords lastRound).state =
      compress useReducedBlake2Rounds hasher.state
        (hasher.t + BitVec.ofNat 32 (inputSizeWords * 4)) lastRound hasher.inputBuffer := by
  rw [runRoundFunction]

theorem t_runRoundFunction (hasher : Blake2sState) (inputSizeWords : Nat) (lastRound : Bool) :
    (hasher.runRoundFunction useReducedBlake2Rounds inputSizeWords lastRound).t =
      hasher.t + BitVec.ofNat 32 (inputSizeWords * 4) := by
  rw [runRoundFunction]

@[simp] theorem state_copyIn (hasher : Blake2sState) (offset : Nat) (words : List U32) :
    (hasher.copyIn offset words).state = hasher.state := by
  rw [copyIn]

@[simp] theorem t_copyIn (hasher : Blake2sState) (offset : Nat) (words : List U32) :
    (hasher.copyIn offset words).t = hasher.t := by
  rw [copyIn]

@[simp] theorem state_zeroFrom (hasher : Blake2sState) (offset : Nat) :
    (hasher.zeroFrom offset).state = hasher.state := by
  rw [zeroFrom]

@[simp] theorem t_zeroFrom (hasher : Blake2sState) (offset : Nat) :
    (hasher.zeroFrom offset).t = hasher.t := by
  rw [zeroFrom]

theorem absorbFullRound_tracks {hasher : Blake2sState} {words : List U32} {m : Nat}
    (tracks : Tracks hasher.state hasher.t words m) (inner : m < numInnerBlocks words) :
    Tracks (absorbFullRound words hasher m).state (absorbFullRound words hasher m).t words
      (m + 1) := by
  have block := inputBuffer_copyIn_full hasher (length_innerWords inner)
  have next := tracks.inner inner
  rw [leafBlock, ← block] at next
  rw [absorbFullRound, state_runRoundFunction, t_runRoundFunction, state_copyIn, t_copyIn]
  exact next

theorem tracks_fullRounds (hasher : Blake2sState) {words : List U32} {m : Nat}
    (inner : m ≤ numInnerBlocks words) :
    Tracks ((List.range m).foldl (absorbFullRound words) hasher.reset).state
      ((List.range m).foldl (absorbFullRound words) hasher.reset).t words m := by
  induction m with
  | zero => exact tracks_start words
  | succ m inductionHypothesis =>
      rw [List.range_succ, List.foldl_append, List.foldl_cons, List.foldl_nil]
      exact absorbFullRound_tracks (inductionHypothesis (by omega)) (by omega)

theorem getElem_copyIn (hasher : Blake2sState) (offset : Nat) (words : List U32) {i : Nat}
    (bound : i < 16) : (hasher.copyIn offset words).inputBuffer[i] =
      if offset ≤ i then words[i - offset]?.getD hasher.inputBuffer[i]
      else hasher.inputBuffer[i] := by
  simp only [copyIn, Vector.getElem_ofFn]
  rfl

theorem getElem_halves (left right : Digest) {i : Nat} (bound : i < 16) :
    (left ++ right : Vector U32 16)[i] =
      if low : i < 8 then left[i] else right[i - 8] := by
  rw [Vector.getElem_append]

theorem inputBuffer_nodes (hasher : Blake2sState) (inputIsRight : Bool) (witness : Digest) :
    ((hasher.copyIn (8 * inputIsRight.toNat) hasher.state.toList).copyIn
      (8 * (!inputIsRight).toNat) witness.toList).inputBuffer =
        nodeBlock inputIsRight hasher.state witness := by
  apply Vector.ext
  intro i bound
  rw [getElem_copyIn _ _ _ bound, getElem_copyIn _ _ _ bound, Vector.getElem?_toList,
    Vector.getElem?_toList]
  cases inputIsRight with
  | false =>
      change (if 8 ≤ i then witness[i - 8]?.getD _
        else if 0 ≤ i then hasher.state[i - 0]?.getD _ else _) =
          (hasher.state ++ witness : Vector U32 16)[i]
      rw [getElem_halves _ _ bound, if_pos (Nat.zero_le i), Nat.sub_zero]
      by_cases low : i < 8
      · rw [if_neg (by omega), dif_pos low, Vector.getElem?_eq_getElem low, Option.getD_some]
      · rw [if_pos (by omega), dif_neg low, Vector.getElem?_eq_getElem (by omega),
          Option.getD_some]
  | true =>
      change (if 0 ≤ i then witness[i - 0]?.getD
        (if 8 ≤ i then hasher.state[i - 8]?.getD _ else _) else _) =
          (witness ++ hasher.state : Vector U32 16)[i]
      rw [getElem_halves _ _ bound, if_pos (Nat.zero_le i), Nat.sub_zero]
      by_cases low : i < 8
      · rw [dif_pos low, Vector.getElem?_eq_getElem low, Option.getD_some]
      · rw [if_pos (by omega), dif_neg low, Vector.getElem?_eq_none (by omega),
          Vector.getElem?_eq_getElem (by omega), Option.getD_none, Option.getD_some]

theorem state_hashLeaf (hasher : Blake2sState) {words : List U32} (nonempty : words ≠ []) :
    (hashLeaf hasher words).state = leafHash words := by
  obtain ⟨rounds, rest, short⟩ := roundLengths_eq nonempty
  have tracks := tracks_fullRounds hasher (Nat.le_refl (numInnerBlocks words))
  have digest := tracks.last nonempty rest
  have length : ((words.drop (16 * numInnerBlocks words)).take
      (roundLengths words.length).2).length = (roundLengths words.length).2 := by
    rw [List.length_take, List.length_drop]
    omega
  have block := inputBuffer_copyIn_zeroFrom
    ((List.range (numInnerBlocks words)).foldl (absorbFullRound words) hasher.reset)
    (Nat.le_trans (Nat.le_of_eq length) short)
  rw [length, leafBlock_last rest short] at block
  rw [← block] at digest
  simp only [hashLeaf, rounds, blockSizeU32Words]
  rw [state_runRoundFunction, state_zeroFrom, state_copyIn, t_zeroFrom, t_copyIn]
  exact digest

theorem state_compressNode (hasher : Blake2sState) (inputIsRight : Bool) (witness : Digest) :
    (compressNode hasher inputIsRight witness).state =
      chain.step hasher.state (.sibling inputIsRight witness) := by
  have block := inputBuffer_nodes hasher inputIsRight witness
  have counter : (0 : U32) + BitVec.ofNat 32 (16 * 4) = blockSizeBytes := by decide
  simp only [compressNode, digestSizeU32Words, blockSizeU32Words, readStateForOutput]
  rw [state_runRoundFunction, reset]
  simp only [block, counter]
  rfl

theorem runsChain : verifier.RunsChain where
  leaf := fun hasher _ nonempty => state_hashLeaf hasher nonempty
  node := state_compressNode

end Blake2sForEverythingVerifier

namespace Blake2sForEverythingVerifierWithAlternativeCompression

open Blake2RoundFunctionEvaluator

theorem tracks_fullRounds (hasher : Blake2RoundFunctionEvaluator) {words : List U32} {m : Nat}
    (inner : m ≤ numInnerBlocks words) :
    Tracks ((List.range m).foldl (absorbFullRound words) hasher.reset).state
      ((List.range m).foldl (absorbFullRound words) hasher.reset).t words m := by
  induction m with
  | zero => exact tracks_start words
  | succ m inductionHypothesis =>
      have tracks := inductionHypothesis (by omega)
      have next := tracks.inner (show m < numInnerBlocks words by omega)
      rw [List.range_succ, List.foldl_append, List.foldl_cons, List.foldl_nil]
      exact next

theorem witnessBuffer_writeWitness (hasher : Blake2RoundFunctionEvaluator) (witness : Digest) :
    (hasher.writeWitness witness).witnessBuffer = witness := by
  apply Vector.ext
  intro i bound
  have written : ((hasher.writeWitness witness).inputBuffer)[i] =
      witness[i]?.getD hasher.inputBuffer[i] :=
    Vector.getElem_ofFn (by omega)
  rw [witnessBuffer, Vector.getElem_ofFn]
  exact written.trans (by rw [Vector.getElem?_eq_getElem bound, Option.getD_some])

theorem state_hashLeaf (hasher : Blake2RoundFunctionEvaluator) {words : List U32}
    (nonempty : words ≠ []) : (hashLeaf hasher words).state = leafHash words := by
  obtain ⟨rounds, rest, short⟩ := roundLengths_eq nonempty
  have tracks := tracks_fullRounds hasher (Nat.le_refl (numInnerBlocks words))
  have digest := tracks.last nonempty rest
  rw [← leafBlock_last rest short] at digest
  simp only [hashLeaf, rounds, blockSizeU32Words, runRoundFunctionWithInput]
  exact digest

theorem state_compressNode (hasher : Blake2RoundFunctionEvaluator) (inputIsRight : Bool)
    (witness : Digest) : (compressNode hasher inputIsRight witness).state =
      chain.step hasher.state (.sibling inputIsRight witness) := by
  have written := witnessBuffer_writeWitness hasher witness
  simp only [compressNode, Blake2RoundFunctionEvaluator.compressNode, written]
  rfl

theorem runsChain : verifier.RunsChain where
  leaf := fun hasher _ nonempty => state_hashLeaf hasher nonempty
  node := state_compressNode

end Blake2sForEverythingVerifierWithAlternativeCompression

end Airbender.Merkle
