import Airbender.Merkle.Openings

/-!
# Trees over traces

The three constructors of the tree, each with the words of its leaves, and what holds of every leaf
of every tree that they build.
-/

namespace Airbender.Merkle

open Blake2s
open Fft (RowMajorTrace guard_of mapM_eq_some)

/-- What a tree is built over: the rows of a trace, one part of its rows between separators, or
groups of elements of a column. -/
inductive LeafSource where
  | rows (trace : RowMajorTrace)
  | separated (trace : RowMajorTrace) (separators : List Nat) (part : Nat)
  | columnMajor (trace : ColumnMajorTrace) (combineBy : Nat)

namespace LeafSource

def construct (numCores capSize : Nat) (bitreverse : Bool) :
    LeafSource → Option Blake2sU32MerkleTreeWithCap
  | rows trace => constructForCoset numCores trace capSize bitreverse
  | separated trace separators part => do
      let trees ← constructSeparatedForCoset numCores trace separators capSize bitreverse
      trees[part]?
  | columnMajor trace combineBy =>
      constructForColumnMajorCoset numCores trace combineBy capSize bitreverse

/-- The words of a leaf before the leaves are reordered. -/
def leafWords : LeafSource → Nat → List U32
  | rows trace => rowWords trace
  | separated trace separators part => separatedWords trace separators part
  | columnMajor trace combineBy => columnWords trace combineBy

/-- A source of `2^n` leaves, none of them empty. -/
def HasLeaves (n : Nat) : LeafSource → Prop
  | rows trace => trace.length = 2 ^ n ∧ 0 < trace.width
  | separated trace separators part =>
      trace.length = 2 ^ n ∧ SeparatorsFit trace separators ∧ part < separators.length
  | columnMajor trace combineBy =>
      trace.width = 1 ∧ (∃ k, combineBy = 2 ^ k) ∧ trace.length = 2 ^ n * combineBy

/-- The words of a leaf of the tree. -/
def leafOf (source : LeafSource) (bitreverse : Bool) (n idx : Nat) : List U32 :=
  source.leafWords (leafRow bitreverse n idx)

theorem leafWords_ne_nil {source : LeafSource} {n : Nat} (leaves : source.HasLeaves n) (idx : Nat) :
    source.leafWords idx ≠ [] := by
  cases source with
  | rows trace =>
      apply ne_nil_of_length
      rw [leafWords, rowWords_length]
      exact leaves.2
  | separated trace separators part => exact separatedWords_ne_nil leaves.2.1 leaves.2.2 idx
  | columnMajor trace combineBy =>
      obtain ⟨k, rfl⟩ := leaves.2.1
      apply ne_nil_of_length
      rw [leafWords, columnWords_length]
      have positive := Nat.two_pow_pos k
      omega

variable {numCores n c : Nat} {bitreverse : Bool} {source : LeafSource}

theorem construct_eq (cores : numCores ≠ 0) (leaves : source.HasLeaves n) (fits : c ≤ n)
    (bound : bitreverse = true → n ≤ 31) :
    source.construct numCores (2 ^ c) bitreverse =
      some (treeOf (fun idx => leafHash (source.leafOf bitreverse n idx)) n c) := by
  cases source with
  | rows trace =>
      have order := reorder_eq bound fun i => leafHash (rowWords trace i)
      have tree := continueFromLeafHashes_eq cores fits fun idx =>
        leafHash (rowWords trace (leafRow bitreverse n idx))
      rw [construct, constructForCoset, blake2sLeafHashesForCoset_eq cores leaves.1 leaves.2, order]
      simp only [tree, Option.bind_eq_bind, Option.bind_some]
      rfl
  | separated trace separators part =>
      have hashes := blake2sLeafHashesSeparatedForCoset_eq cores leaves.1 leaves.2.1 bitreverse
      have order : ((List.range separators.length).mapM fun j => reorder bitreverse
          ((List.range (2 ^ n)).map fun row => leafHash (separatedWords trace separators j row))) =
          some ((List.range separators.length).map fun j => (List.range (2 ^ n)).map fun idx =>
            leafHash (separatedWords trace separators j (leafRow bitreverse n idx))) := by
        apply mapM_eq_some
        intro j _
        exact reorder_eq bound fun row => leafHash (separatedWords trace separators j row)
      have trees : ((List.range separators.length).mapM fun j =>
          continueFromLeafHashes numCores ((List.range (2 ^ n)).map fun idx =>
            leafHash (separatedWords trace separators j (leafRow bitreverse n idx))) (2 ^ c)) =
          some ((List.range separators.length).map fun j => treeOf (fun idx =>
            leafHash (separatedWords trace separators j (leafRow bitreverse n idx))) n c) := by
        apply mapM_eq_some
        intro j _
        exact continueFromLeafHashes_eq cores fits fun idx =>
          leafHash (separatedWords trace separators j (leafRow bitreverse n idx))
      rw [construct, constructSeparatedForCoset, hashes, order]
      simp only [List.mapM_map, Option.bind_eq_bind, Option.bind_some]
      change (((List.range separators.length).mapM fun j =>
        continueFromLeafHashes numCores ((List.range (2 ^ n)).map fun idx =>
          leafHash (separatedWords trace separators j (leafRow bitreverse n idx))) (2 ^ c)).bind
            fun trees => trees[part]?) = _
      rw [trees, Option.bind_some, List.getElem?_map, List.getElem?_range leaves.2.2,
        Option.map_some]
      rfl
  | columnMajor trace combineBy =>
      obtain ⟨narrow, ⟨k, rfl⟩, rows⟩ := leaves
      have order := reorder_eq bound fun i => leafHash (columnWords trace (2 ^ k) i)
      have tree := continueFromLeafHashes_eq cores fits fun idx =>
        leafHash (columnWords trace (2 ^ k) (leafRow bitreverse n idx))
      rw [construct, constructForColumnMajorCoset,
        blake2sLeafHashesForColumnMajorCoset_eq cores narrow rows, order]
      simp only [tree, Option.bind_eq_bind, Option.bind_some]
      rfl

/-- More than `2^31` leaves are never reordered. -/
theorem construct_none (cores : numCores ≠ 0) (leaves : source.HasLeaves n) (many : 31 < n)
    (capSize : Nat) : source.construct numCores capSize true = none := by
  cases source with
  | rows trace =>
      rw [construct, constructForCoset, blake2sLeafHashesForCoset_eq cores leaves.1 leaves.2,
        reorder_none many fun i => leafHash (rowWords trace i)]
      rfl
  | separated trace separators part =>
      have hashes := blake2sLeafHashesSeparatedForCoset_eq cores leaves.1 leaves.2.1 true
      have several : separators.length = separators.length - 1 + 1 := by
        have inside := leaves.2.2
        omega
      rw [several, List.range_succ_eq_map, List.mapM_cons,
        reorder_none many fun row => leafHash (separatedWords trace separators 0 row)] at hashes
      rw [construct, constructSeparatedForCoset, hashes]
      rfl
  | columnMajor trace combineBy =>
      obtain ⟨narrow, ⟨k, rfl⟩, rows⟩ := leaves
      rw [construct, constructForColumnMajorCoset,
        blake2sLeafHashesForColumnMajorCoset_eq cores narrow rows,
        reorder_none many fun i => leafHash (columnWords trace (2 ^ k) i)]
      rfl

theorem eq_treeOf_of_construct {tree : Blake2sU32MerkleTreeWithCap} (cores : numCores ≠ 0)
    (leaves : source.HasLeaves n) (fits : c ≤ n)
    (built : source.construct numCores (2 ^ c) bitreverse = some tree) :
    tree = treeOf (fun idx => leafHash (source.leafOf bitreverse n idx)) n c := by
  have bound : bitreverse = true → n ≤ 31 := by
    rintro rfl
    by_contra many
    rw [construct_none cores leaves (Nat.not_le.mp many)] at built
    cases built
  rw [construct_eq cores leaves fits bound] at built
  exact (Option.some.inj built).symm

end LeafSource

/-! ## Openings of a tree -/

/-- A verifier accepts a leaf and its path at their place, and what else it accepts there collides
with them. -/
structure Opens {Hasher : Type} (verifier : LeafInclusionVerifier Hasher)
    (tree : Blake2sU32MerkleTreeWithCap) (leafIndex : U32) (leaf : List U32) (digest : Digest)
    (path : List Digest) : Prop where
  sameHash : ∀ hasher, verifier.readStateForOutput (verifier.hashLeaf hasher leaf) = digest
  complete : ∀ hasher (cosetIndex : U32) merkleCap rest,
    merkleCap[cosetIndex.toNat]? = some tree.getCap →
    ∃ after, verifier.verifyLeafInclusion hasher cosetIndex leafIndex path.length leaf merkleCap
      (pathWords path ++ rest) = some (true, after, rest)
  binding : ∀ hasher (cosetIndex : U32) merkleCap leaf' stream after rest,
    merkleCap[cosetIndex.toNat]? = some tree.getCap →
    leaf'.length = leaf.length →
    verifier.verifyLeafInclusion hasher cosetIndex leafIndex path.length leaf' merkleCap stream =
      some (true, after, rest) →
    ∃ path', path'.length = path.length ∧ stream = pathWords path' ++ rest ∧
      ((leaf' = leaf ∧ path' = path) ∨
        ∃ pair, chain.findCollision (openingInputs leafIndex leaf' path')
            (openingInputs leafIndex leaf path) = some pair ∧
          chain.Collision (openingInputs leafIndex leaf' path')
            (openingInputs leafIndex leaf path) pair)

theorem opens_of_treeOf {Hasher : Type} {verifier : LeafInclusionVerifier Hasher}
    (runs : verifier.RunsChain) (leaves : Nat → List U32) {n c : Nat} {leafIndex : U32}
    (nonempty : leaves leafIndex.toNat ≠ []) (fits : c ≤ n) (inside : leafIndex.toNat < 2 ^ n) :
    Opens verifier (treeOf (fun idx => leafHash (leaves idx)) n c) leafIndex
      (leaves leafIndex.toNat) (leafHash (leaves leafIndex.toNat))
      (MerkleTree.path node (fun idx => leafHash (leaves idx)) (n - c) leafIndex.toNat) := by
  have depth : (MerkleTree.path node (fun idx => leafHash (leaves idx)) (n - c)
      leafIndex.toNat).length = n - c := by
    rw [MerkleTree.path, List.length_map, List.length_range]
  have place : leafIndex.toNat / 2 ^ (n - c) < 2 ^ c := by
    apply Nat.div_lt_of_lt_mul
    rw [← Nat.pow_add, Nat.sub_add_cancel fits]
    exact inside
  have entry : (treeOf (fun idx => leafHash (leaves idx)) n c).getCap[
      leafIndex.toNat / 2 ^ (n - c)]? =
      some (MerkleTree.layer node (fun idx => leafHash (leaves idx)) (n - c)
        (leafIndex.toNat / 2 ^ (n - c))) := by
    rw [treeOf_getCap _ fits, List.getElem?_map, List.getElem?_range place, Option.map_some]
  have root : chain.run configuredIv (leafItems (leaves leafIndex.toNat) ++
      pathItems leafIndex.toNat (MerkleTree.path node (fun idx => leafHash (leaves idx)) (n - c)
        leafIndex.toNat)) =
      MerkleTree.layer node (fun idx => leafHash (leaves idx)) (n - c)
        (leafIndex.toNat / 2 ^ (n - c)) := by
    rw [HashChain.run_append, run_pathItems, ← leafHash]
    exact MerkleTree.climb_path node (fun idx => leafHash (leaves idx)) (n - c) leafIndex.toNat
  constructor
  case sameHash =>
    intro hasher
    exact runs.leaf hasher _ nonempty
  case complete =>
    intro hasher cosetIndex merkleCap rest coset
    rw [← depth] at entry
    obtain ⟨after, verified⟩ := verifyLeafInclusion_of_readPath runs nonempty
      (readPath_append _ rest) coset entry hasher
    rw [depth] at verified
    refine ⟨after, ?_⟩
    rw [depth, verified, (equalDigests_iff _ _).mpr root]
  case binding =>
    intro hasher cosetIndex merkleCap leaf' stream after rest coset width accepted
    have filled : leaf' ≠ [] := by
      apply ne_nil_of_length
      rw [width]
      exact List.length_pos_of_ne_nil nonempty
    obtain ⟨path', read⟩ := readPath_of_verifyLeafInclusion accepted
    obtain ⟨length, words⟩ := readPath_eq_some read
    rw [depth] at read accepted
    obtain ⟨after', verified⟩ := verifyLeafInclusion_of_readPath runs filled read coset entry hasher
    rw [verified] at accepted
    have same := (equalDigests_iff _ _).mp (Prod.mk.inj (Option.some.inj accepted)).1
    rw [← root] at same
    exact ⟨path', length, words, openings_agree_or_collide width length same⟩

/-- Every leaf of a tree opens with its path, for both verifiers, and binds its place.  The
constructors build a tree unless they are asked to reorder more than `2^31` leaves. -/
theorem openings_complete_and_binding {numCores n capSize : Nat} {source : LeafSource}
    {bitreverse : Bool} (cores : numCores ≠ 0) (leaves : source.HasLeaves n)
    (divides : capSize ∣ 2 ^ n) :
    ((bitreverse = true → n ≤ 31) →
      ∃ tree, source.construct numCores capSize bitreverse = some tree) ∧
    ∀ tree, source.construct numCores capSize bitreverse = some tree →
      ∀ leafIndex : U32, leafIndex.toNat < 2 ^ n →
        ∃ digest path, tree.getProof leafIndex.toNat = some (digest, path) ∧
          Opens Blake2sForEverythingVerifier.verifier tree leafIndex
            (source.leafOf bitreverse n leafIndex.toNat) digest path ∧
          Opens Blake2sForEverythingVerifierWithAlternativeCompression.verifier tree leafIndex
            (source.leafOf bitreverse n leafIndex.toNat) digest path := by
  obtain ⟨c, fits, rfl⟩ := (Nat.dvd_prime_pow Nat.prime_two).mp divides
  constructor
  · intro bound
    exact ⟨_, LeafSource.construct_eq cores leaves fits bound⟩
  · intro tree built leafIndex inside
    have nonempty : source.leafOf bitreverse n leafIndex.toNat ≠ [] :=
      LeafSource.leafWords_ne_nil leaves _
    rw [LeafSource.eq_treeOf_of_construct cores leaves fits built]
    exact ⟨_, _, treeOf_getProof _ inside,
      opens_of_treeOf Blake2sForEverythingVerifier.runsChain (source.leafOf bitreverse n) nonempty
        fits inside,
      opens_of_treeOf Blake2sForEverythingVerifierWithAlternativeCompression.runsChain
        (source.leafOf bitreverse n) nonempty fits inside⟩

theorem two_dvd_sixteen : 2 ∣ 16 := by
  decide

/-- Two rows of one column. -/
def twoRows : RowMajorTrace where
  width := 1
  length := 2
  paddedWidth := 16
  widthPadded := by decide
  paired := two_dvd_sixteen
  el _ _ := .one

theorem openings_complete_and_binding_twoRows :
    ((true = true → 1 ≤ 31) →
      ∃ tree, (LeafSource.rows twoRows).construct 1 1 true = some tree) ∧
    ∀ tree, (LeafSource.rows twoRows).construct 1 1 true = some tree →
      ∀ leafIndex : U32, leafIndex.toNat < 2 ^ 1 →
        ∃ digest path, tree.getProof leafIndex.toNat = some (digest, path) ∧
          Opens Blake2sForEverythingVerifier.verifier tree leafIndex
            ((LeafSource.rows twoRows).leafOf true 1 leafIndex.toNat) digest path ∧
          Opens Blake2sForEverythingVerifierWithAlternativeCompression.verifier tree leafIndex
            ((LeafSource.rows twoRows).leafOf true 1 leafIndex.toNat) digest path :=
  openings_complete_and_binding (by decide) ⟨rfl, by decide⟩ (Nat.one_dvd _)

end Airbender.Merkle
