import Airbender.Lib.MerkleTree
import Airbender.Transcript.Blake2sState

/-!
# Leaf hashes

A leaf is hashed in blocks of sixteen words, of which the last may be partial.  The prover absorbs
the blocks of a row, and two verifiers feed the same blocks through their own buffers.
-/

namespace Airbender.Merkle

open Blake2s Blake2sState

abbrev Digest := Vector U32 8

/-- `USE_REDUCED_BLAKE2_ROUNDS`. -/
def useReducedBlake2Rounds : Bool := true

/-! ## The compression function -/

/-- What the compression function gets. -/
structure CompressionInput where
  state : Digest
  t : U32
  lastRound : Bool
  block : Vector U32 16
deriving DecidableEq

def CompressionInput.output (input : CompressionInput) : Digest :=
  compress useReducedBlake2Rounds input.state input.t input.lastRound input.block

/-- What a step of the verification adds to the hash so far: a block of the leaf, or the sibling
on the path and the side the hash is on. -/
inductive HashItem where
  | leafBlock (t : U32) (lastRound : Bool) (block : Vector U32 16)
  | sibling (inputIsRight : Bool) (witness : Digest)
deriving DecidableEq

/-- The two children of a node. -/
def nodeBlock (inputIsRight : Bool) (current witness : Digest) : Vector U32 16 :=
  if inputIsRight then witness ++ current else current ++ witness

def chain : HashChain Digest HashItem CompressionInput where
  input
    | state, .leafBlock t lastRound block => ⟨state, t, lastRound, block⟩
    | current, .sibling inputIsRight witness =>
        ⟨configuredIv, blockSizeBytes, true, nodeBlock inputIsRight current witness⟩
  output := CompressionInput.output

/-! ## The blocks of a leaf -/

/-- A block of a leaf, padded with zeros. -/
def leafBlock (words : List U32) (i : Nat) : Vector U32 16 :=
  blockOfWords ((words.drop (16 * i)).take 16)

def numLeafBlocks (words : List U32) : Nat := (words.length + 15) / 16

def leafItem (words : List U32) (i : Nat) : HashItem :=
  .leafBlock (BitVec.ofNat 32 (min (64 * (i + 1)) (4 * words.length)))
    (i + 1 == numLeafBlocks words) (leafBlock words i)

def leafItems (words : List U32) : List HashItem :=
  (List.range (numLeafBlocks words)).map (leafItem words)

def leafHash (words : List U32) : Digest := chain.run configuredIv (leafItems words)

/-- The blocks before the last one. -/
def numInnerBlocks (words : List U32) : Nat := (words.length - 1) / 16

/-- A hasher that has absorbed the first `m` blocks. -/
structure Tracks (state : Digest) (t : U32) (words : List U32) (m : Nat) : Prop where
  state : state = chain.run configuredIv ((List.range m).map (leafItem words))
  t : t = BitVec.ofNat 32 (64 * m)

theorem tracks_start (words : List U32) : Tracks configuredIv 0 words 0 := ⟨rfl, rfl⟩

theorem run_leafItem_succ (words : List U32) (m : Nat) :
    chain.run configuredIv ((List.range (m + 1)).map (leafItem words)) =
      chain.step (chain.run configuredIv ((List.range m).map (leafItem words)))
        (leafItem words m) := by
  rw [List.range_succ, List.map_append, HashChain.run_append]
  rfl

/-- Every inner block counts 64 bytes. -/
theorem Tracks.inner {state : Digest} {t : U32} {words : List U32} {m : Nat}
    (tracks : Tracks state t words m) (inner : m < numInnerBlocks words) :
    Tracks (compress useReducedBlake2Rounds state (t + 64) false (leafBlock words m)) (t + 64) words
      (m + 1) := by
  have bytes : min (64 * (m + 1)) (4 * words.length) = 64 * (m + 1) := by
    rw [numInnerBlocks] at inner
    omega
  have notLast : (m + 1 == numLeafBlocks words) = false := by
    apply beq_eq_false_iff_ne.mpr
    rw [numInnerBlocks] at inner
    rw [numLeafBlocks]
    omega
  have counter : t + 64 = BitVec.ofNat 32 (64 * (m + 1)) := by
    rw [tracks.t, Nat.mul_succ, BitVec.ofNat_add]
    rfl
  refine ⟨?_, counter⟩
  rw [run_leafItem_succ, ← tracks.state, leafItem, bytes, notLast, ← counter]
  rfl

/-- The last block counts the bytes that are left, and closes the hash. -/
theorem Tracks.last {state : Digest} {t : U32} {words : List U32}
    (tracks : Tracks state t words (numInnerBlocks words)) (nonempty : words ≠ []) {count : Nat}
    (rest : numInnerBlocks words * 16 + count = words.length) :
    compress useReducedBlake2Rounds state (t + BitVec.ofNat 32 (count * 4)) true
      (leafBlock words (numInnerBlocks words)) = leafHash words := by
  have positive : 0 < words.length := List.length_pos_of_ne_nil nonempty
  have blocks : numLeafBlocks words = numInnerBlocks words + 1 := by
    rw [numLeafBlocks, numInnerBlocks]
    omega
  have bytes : min (64 * (numInnerBlocks words + 1)) (4 * words.length) =
      64 * numInnerBlocks words + count * 4 := by
    rw [numInnerBlocks] at rest ⊢
    omega
  have last : (numInnerBlocks words + 1 == numLeafBlocks words) = true := by
    rw [blocks]
    exact beq_self_eq_true _
  rw [leafHash, leafItems, blocks, run_leafItem_succ, ← tracks.state, leafItem, bytes, last,
    tracks.t, ← BitVec.ofNat_add]
  rfl

/-! ## The prover -/

/-- `absorb`. -/
def absorb (hasher : Blake2sState) (messageBlock : Vector U32 16) : Blake2sState :=
  let t := hasher.t + 64
  { hasher with
    state := compress useReducedBlake2Rounds hasher.state t false messageBlock
    t := t }

/-- `absorb_final_block`, which leaves the chaining value alone and writes the digest elsewhere. -/
def absorbFinalBlock (hasher : Blake2sState) (messageBlock : Vector U32 16) (blockLen : Nat) :
    Blake2sState × Digest :=
  let t := hasher.t + BitVec.ofNat 32 (blockLen * 4)
  ({ hasher with t := t }, compress useReducedBlake2Rounds hasher.state t true messageBlock)

/-- One full block of a row.  The last one of a row without a partial block is final. -/
def absorbRowBlock (row : List U32) (progress : Blake2sState × Option Digest) (i : Nat) :
    Blake2sState × Option Digest :=
  let (hasher, writeInto) := progress
  let lastRound := i == row.length / 16 - 1
  let onlyFullRounds := row.length % 16 == 0
  if lastRound && onlyFullRounds then
    let (hasher, digest) := absorbFinalBlock hasher (leafBlock row i) 16
    (hasher, some digest)
  else
    (absorb hasher (leafBlock row i), writeInto)

/-- The hash of one row by a hasher that the rows of a chunk share. -/
def hashRow (hasher : Blake2sState) (row : List U32) : Blake2sState × Option Digest :=
  let onlyFullRounds := row.length % 16 == 0
  let numFullRounds := row.length / 16
  let (hasher, writeInto) :=
    (List.range numFullRounds).foldl (absorbRowBlock row) (hasher.reset, none)
  if onlyFullRounds then
    (hasher, writeInto)
  else
    let remainder := row.drop (16 * numFullRounds)
    let (hasher, digest) := absorbFinalBlock hasher (blockOfWords remainder) remainder.length
    (hasher, some digest)

/-- The blocks before the last one, absorbed from a fresh hasher. -/
theorem absorbRowBlock_inner (hasher : Blake2sState) {row : List U32} {m : Nat}
    (inner : m ≤ numInnerBlocks row) :
    ∃ after, (List.range m).foldl (absorbRowBlock row) (hasher.reset, none) = (after, none) ∧
      Tracks after.state after.t row m := by
  induction m with
  | zero => exact ⟨hasher.reset, rfl, tracks_start row⟩
  | succ m inductionHypothesis =>
      obtain ⟨before, computed, tracks⟩ := inductionHypothesis (by omega)
      have notClosing : (m == row.length / 16 - 1 && row.length % 16 == 0) = false := by
        apply Bool.eq_false_iff.mpr
        intro closes
        rw [Bool.and_eq_true, beq_iff_eq, beq_iff_eq] at closes
        rw [numInnerBlocks] at inner
        omega
      refine ⟨absorb before (leafBlock row m), ?_, tracks.inner inner⟩
      rw [List.range_succ, List.foldl_append, computed, List.foldl_cons, List.foldl_nil]
      simp only [absorbRowBlock, notClosing, Bool.false_eq_true, if_false]

theorem blockOfWords_take (words : List U32) : blockOfWords (words.take 16) = blockOfWords words := by
  apply Vector.ext
  intro i bound
  rw [blockOfWords, blockOfWords, Vector.getElem_ofFn, Vector.getElem_ofFn,
    List.getElem?_take_of_lt bound]

/-- The prover's digest of a row, whatever the hasher did before. -/
theorem hashRow_eq (hasher : Blake2sState) {row : List U32} (nonempty : row ≠ []) :
    (hashRow hasher row).2 = some (leafHash row) := by
  have positive : 0 < row.length := List.length_pos_of_ne_nil nonempty
  obtain ⟨inner, computed, tracks⟩ := absorbRowBlock_inner hasher (Nat.le_refl (numInnerBlocks row))
  by_cases full : row.length % 16 = 0
  · have rounds : row.length / 16 = numInnerBlocks row + 1 := by
      rw [numInnerBlocks]
      omega
    have closes : (numInnerBlocks row == numInnerBlocks row + 1 - 1 && row.length % 16 == 0) =
        true := by
      rw [Nat.add_sub_cancel, full, beq_self_eq_true, beq_self_eq_true]
      rfl
    have rest : numInnerBlocks row * 16 + 16 = row.length := by
      rw [numInnerBlocks]
      omega
    have digest := tracks.last nonempty rest
    simp only [hashRow, full, rounds, beq_self_eq_true, if_true, List.range_succ,
      List.foldl_append, computed, List.foldl_cons, List.foldl_nil]
    rw [full, beq_self_eq_true] at closes
    simp only [absorbRowBlock, rounds, full, beq_self_eq_true, closes, if_true,
      absorbFinalBlock, digest]
  · have rounds : row.length / 16 = numInnerBlocks row := by
      rw [numInnerBlocks]
      omega
    have partly : (row.length % 16 == 0) = false := beq_eq_false_iff_ne.mpr full
    have rest : numInnerBlocks row * 16 + (row.drop (16 * numInnerBlocks row)).length =
        row.length := by
      rw [List.length_drop, numInnerBlocks]
      omega
    have digest := tracks.last nonempty rest
    rw [leafBlock, blockOfWords_take] at digest
    simp only [hashRow, partly, Bool.false_eq_true, if_false, rounds, computed, absorbFinalBlock,
      digest]

end Airbender.Merkle
