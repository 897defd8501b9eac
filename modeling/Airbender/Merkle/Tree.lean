import Airbender.Fft.AdjustToZero
import Airbender.Fft.Precomputes
import Airbender.Merkle.LeafHash

/-!
# The tree of the prover

`Blake2sU32MerkleTreeWithCap`: leaf hashes in their order, and layers of nodes up to the cap.
-/

namespace Airbender.Merkle

open Blake2s Blake2sState
open Fft (RowMajorTrace positions workChunks)
open Mersenne31 (Element)

/-! ## Leaf hashes of a trace -/

/-- The words of a leaf: field elements in their reduced form. -/
def reducedWords (row : List Element) : List U32 :=
  row.map fun el => Mersenne31.toReducedU32 el.raw

/-- Hashes rows one after the other.  A row without elements leaves its hash unwritten. -/
def hashRows : Blake2sState → List (List U32) → Option (Blake2sState × List Digest)
  | hasher, [] => some (hasher, [])
  | hasher, row :: rows => do
      let (hasher, writeInto) := hashRow hasher row
      let digest ← writeInto
      let (hasher, digests) ← hashRows hasher rows
      some (hasher, digest :: digests)

/-- The hashes of all leaves: every thread has a hasher of its own. -/
def leafHashesOf (numCores treeSize : Nat) (leafWords : Nat → List U32) :
    Option (List Digest) := do
  let chunks ← workChunks numCores treeSize
  let perThread ← chunks.mapM fun chunk => do
    let (_, digests) ← hashRows Blake2sState.new ((positions chunk).map leafWords)
    some digests
  some perThread.flatten

def reorder (bitreverse : Bool) (leafHashes : List Digest) : Option (List Digest) :=
  if bitreverse then Fft.bitreverseEnumerationInplace leafHashes else some leafHashes

/-- A leaf of `blake2s_leaf_hashes_for_coset` is a row. -/
def rowWords (trace : RowMajorTrace) (row : Nat) : List U32 :=
  reducedWords (trace.rowPart (List.range trace.width) row)

def blake2sLeafHashesForCoset (numCores : Nat) (trace : RowMajorTrace) (bitreverse : Bool) :
    Option (List Digest) := do
  guard (Usize.isPowerOfTwo trace.length)
  let leafHashes ← leafHashesOf numCores trace.length (rowWords trace)
  reorder bitreverse leafHashes

/-- A part of a row between two separators. -/
def separatedWords (trace : RowMajorTrace) (separators : List Nat) (j row : Nat) : List U32 :=
  let start := if j = 0 then 0 else separators.getD (j - 1) 0
  let chunkWidth := separators.getD j 0 - start
  reducedWords (trace.rowPart (List.range' start chunkWidth) row)

/-- The parts of consecutive rows, hashed with one hasher. -/
def hashSeparatedRows : Blake2sState → List (List (List U32)) → Option (List (List Digest))
  | _, [] => some []
  | hasher, parts :: rows => do
      let (hasher, digests) ← hashRows hasher parts
      let rest ← hashSeparatedRows hasher rows
      some (digests :: rest)

def blake2sLeafHashesSeparatedForCoset (numCores : Nat) (trace : RowMajorTrace)
    (separators : List Nat) (bitreverse : Bool) : Option (List (List Digest)) := do
  let last ← separators.getLast?
  guard (last ≤ trace.width)
  guard (separators.Pairwise (· < ·))
  guard (Usize.isPowerOfTwo trace.length)
  let chunks ← workChunks numCores trace.length
  let perThread ← chunks.mapM fun chunk =>
    hashSeparatedRows Blake2sState.new ((positions chunk).map fun row =>
      (List.range separators.length).map fun j => separatedWords trace separators j row)
  (List.range separators.length).mapM fun j => do
    let leafHashes ← perThread.flatten.mapM fun digests => digests[j]?
    reorder bitreverse leafHashes

/-- A column of extension elements, each with its four coefficients in the order of memory. -/
structure ColumnMajorTrace where
  width : Nat
  length : Nat
  el : Nat → Vector Element 4

/-- A leaf of `blake2s_leaf_hashes_for_column_major_coset` is a group of adjacent elements. -/
def columnWords (trace : ColumnMajorTrace) (combineBy idx : Nat) : List U32 :=
  reducedWords ((List.range combineBy).flatMap fun k => (trace.el (idx * combineBy + k)).toList)

def blake2sLeafHashesForColumnMajorCoset (numCores : Nat) (trace : ColumnMajorTrace)
    (combineBy : Nat) (bitreverse : Bool) : Option (List Digest) := do
  guard (trace.width = 1)
  guard (Usize.isPowerOfTwo combineBy)
  guard (trace.length % combineBy = 0)
  let treeSize := trace.length / combineBy
  guard (Usize.isPowerOfTwo treeSize)
  let leafHashes ← leafHashesOf numCores treeSize (columnWords trace combineBy)
  reorder bitreverse leafHashes

/-! ## Nodes -/

structure Blake2sU32MerkleTreeWithCap where
  capSize : Nat
  leafHashes : List Digest
  nodeHashesEnumeratedFromLeafs : List (List Digest)
deriving DecidableEq

/-- `compress_two_to_one`. -/
def compressTwoToOne (messageBlock : Vector U32 16) : Digest :=
  compress useReducedBlake2Rounds configuredIv blockSizeBytes true messageBlock

/-- The layer above a layer, two adjacent hashes a block. -/
def nextLayer (numCores : Nat) (previous : List Digest) : Option (List Digest) := do
  let chunks ← workChunks numCores (previous.length / 2)
  let perThread ← chunks.mapM fun chunk => (positions chunk).mapM fun i => do
    let left ← previous[2 * i]?
    let right ← previous[2 * i + 1]?
    some (compressTwoToOne (left ++ right))
  some perThread.flatten

def constructLayers (numCores : Nat) : Nat → List Digest → Option (List (List Digest))
  | 0, _ => some []
  | numLayers + 1, previous => do
      let layer ← nextLayer numCores previous
      let rest ← constructLayers numCores numLayers layer
      some (layer :: rest)

/-- `continue_from_leaf_hashes`. -/
def continueFromLeafHashes (numCores : Nat) (leafHashes : List Digest) (capSize : Nat) :
    Option Blake2sU32MerkleTreeWithCap := do
  guard (Usize.isPowerOfTwo leafHashes.length)
  guard (Usize.isPowerOfTwo capSize)
  guard (capSize ≤ leafHashes.length)
  let treeDepth := leafHashes.length.log2
  let layersToSkip := capSize.log2
  let numLayersToConstruct := treeDepth - layersToSkip
  let nodeHashesEnumeratedFromLeafs ← constructLayers numCores numLayersToConstruct leafHashes
  some { capSize, leafHashes, nodeHashesEnumeratedFromLeafs }

namespace Blake2sU32MerkleTreeWithCap

def getCap (tree : Blake2sU32MerkleTreeWithCap) : List Digest :=
  match tree.nodeHashesEnumeratedFromLeafs.getLast? with
  | some cap => cap
  | none => tree.leafHashes

/-- The loop of `get_proof` from layer `i` on. -/
def proofElements (tree : Blake2sU32MerkleTreeWithCap) : Nat → Nat → Nat → Option (List Digest)
  | 0, _, _ => some []
  | count + 1, i, idx => do
      let pairIdx := idx ^^^ 1
      let proofElement ←
        if i = 0 then tree.leafHashes[pairIdx]?
        else (tree.nodeHashesEnumeratedFromLeafs[i - 1]?).bind fun layer => layer[pairIdx]?
      let rest ← proofElements tree count (i + 1) (idx >>> 1)
      some (proofElement :: rest)

/-- `get_proof`: the hash of the leaf and its path. -/
def getProof (tree : Blake2sU32MerkleTreeWithCap) (idx : Nat) :
    Option (Digest × List Digest) := do
  let depth := tree.nodeHashesEnumeratedFromLeafs.length
  let leafHash ← tree.leafHashes[idx]?
  let path ← tree.proofElements depth 0 idx
  some (leafHash, path)

end Blake2sU32MerkleTreeWithCap

/-! ## Constructors -/

def constructForCoset (numCores : Nat) (trace : RowMajorTrace) (capSize : Nat)
    (bitreverse : Bool) : Option Blake2sU32MerkleTreeWithCap := do
  let leafHashes ← blake2sLeafHashesForCoset numCores trace bitreverse
  continueFromLeafHashes numCores leafHashes capSize

def constructSeparatedForCoset (numCores : Nat) (trace : RowMajorTrace) (separators : List Nat)
    (capSize : Nat) (bitreverse : Bool) : Option (List Blake2sU32MerkleTreeWithCap) := do
  let leafHashesSet ← blake2sLeafHashesSeparatedForCoset numCores trace separators bitreverse
  leafHashesSet.mapM fun leafHashes => continueFromLeafHashes numCores leafHashes capSize

def constructForColumnMajorCoset (numCores : Nat) (trace : ColumnMajorTrace) (combineBy : Nat)
    (capSize : Nat) (bitreverse : Bool) : Option Blake2sU32MerkleTreeWithCap := do
  let leafHashes ← blake2sLeafHashesForColumnMajorCoset numCores trace combineBy bitreverse
  continueFromLeafHashes numCores leafHashes capSize

end Airbender.Merkle
