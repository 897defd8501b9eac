import Airbender.Merkle.Tree

/-!
# What the constructors build

Every constructor hashes the leaves it names, in their order or bit-reversed, and builds the layers
of the tree above them; the proof of a leaf is the list of its siblings.
-/

namespace Airbender.Merkle

open Blake2s
open Fft (RowMajorTrace guard_of mapM_eq_some positions workChunks workChunks_eq)

/-- The parent of two nodes. -/
def node (left right : Digest) : Digest :=
  compressTwoToOne (left ++ right)

/-! ## Leaf hashes -/

theorem hashRows_eq (hasher : Blake2sState) {rows : List (List U32)}
    (nonempty : ∀ row ∈ rows, row ≠ []) :
    ∃ after, hashRows hasher rows = some (after, rows.map leafHash) := by
  induction rows generalizing hasher with
  | nil => exact ⟨hasher, rfl⟩
  | cons row rows inductionHypothesis =>
      obtain ⟨first, others⟩ := List.forall_mem_cons.mp nonempty
      have digest := hashRow_eq hasher first
      obtain ⟨after, rest⟩ := inductionHypothesis (hashRow hasher row).1 others
      refine ⟨after, ?_⟩
      rw [hashRows, List.map_cons]
      simp only [digest, rest, Option.bind_eq_bind, Option.bind_some]

theorem leafHashesOf_eq {numCores treeSize : Nat} {leafWords : Nat → List U32}
    (cores : numCores ≠ 0) (work : treeSize ≠ 0) (nonempty : ∀ i, leafWords i ≠ []) :
    leafHashesOf numCores treeSize leafWords =
      some ((List.range treeSize).map fun i => leafHash (leafWords i)) := by
  obtain ⟨chunks, chunked, total⟩ := workChunks_eq cores work
  simp only [leafHashesOf, chunked, Option.bind_eq_bind, Option.bind_some]
  rw [mapM_eq_some (g := fun chunk => (positions chunk).map fun i => leafHash (leafWords i))]
  · rw [Option.bind_some, ← total, List.map_flatMap, List.flatMap_def]
  · intro chunk _
    have rows : ∀ row ∈ (positions chunk).map leafWords, row ≠ [] := by
      intro row member
      obtain ⟨i, _, rfl⟩ := List.mem_map.mp member
      exact nonempty i
    obtain ⟨after, computed⟩ := hashRows_eq Blake2sState.new rows
    rw [computed, List.map_map]
    rfl

theorem hashSeparatedRows_eq (hasher : Blake2sState) {rows : List (List (List U32))}
    (nonempty : ∀ parts ∈ rows, ∀ part ∈ parts, part ≠ []) :
    hashSeparatedRows hasher rows = some (rows.map fun parts => parts.map leafHash) := by
  induction rows generalizing hasher with
  | nil => rfl
  | cons parts rows inductionHypothesis =>
      obtain ⟨first, others⟩ := List.forall_mem_cons.mp nonempty
      obtain ⟨after, digests⟩ := hashRows_eq hasher first
      rw [hashSeparatedRows, digests]
      simp only [inductionHypothesis after others, Option.bind_eq_bind, Option.bind_some,
        List.map_cons]

/-- The row that belongs to a leaf of the tree. -/
def leafRow (bitreverse : Bool) (n idx : Nat) : Nat :=
  if bitreverse then RadixTwo.reversed n idx else idx

theorem reorder_eq {bitreverse : Bool} {n : Nat} (bound : bitreverse = true → n ≤ 31)
    (f : Nat → Digest) :
    reorder bitreverse ((List.range (2 ^ n)).map f) =
      some ((List.range (2 ^ n)).map fun idx => f (leafRow bitreverse n idx)) := by
  cases bitreverse with
  | false => rfl
  | true => exact Fft.bitreverseEnumerationInplace_eq (bound rfl) f

theorem reorder_none {n : Nat} (many : 31 < n) (f : Nat → Digest) :
    reorder true ((List.range (2 ^ n)).map f) = none := by
  have length : ((List.range (2 ^ n)).map f).length = 2 ^ n := by
    rw [List.length_map, List.length_range]
  have large : ¬2 ^ n ≤ 2 ^ 31 := Nat.not_le.mpr (Nat.pow_lt_pow_right Nat.one_lt_two many)
  have power := Usize.isPowerOfTwo_two_pow n
  rw [reorder, if_pos rfl, Fft.bitreverseEnumerationInplace, length,
    if_neg (Nat.two_pow_pos n).ne', guard_of power]
  simp only [guard, if_neg large, Option.bind_eq_bind, Option.bind_some]
  rfl

theorem length_reducedWords (row : List Mersenne31.Element) :
    (reducedWords row).length = row.length := List.length_map _

theorem ne_nil_of_length {words : List U32} (positive : 0 < words.length) : words ≠ [] :=
  List.ne_nil_of_length_pos positive

theorem rowWords_length (trace : RowMajorTrace) (row : Nat) :
    (rowWords trace row).length = trace.width := by
  rw [rowWords, length_reducedWords, RowMajorTrace.rowPart, List.length_map, List.length_range]

theorem columnWords_length (trace : ColumnMajorTrace) (combineBy idx : Nat) :
    (columnWords trace combineBy idx).length = combineBy * 4 := by
  rw [columnWords, length_reducedWords, List.length_flatMap]
  simp only [Vector.length_toList, List.map_const', List.length_range, List.sum_replicate,
    smul_eq_mul]

theorem blake2sLeafHashesForCoset_eq {numCores n : Nat} {trace : RowMajorTrace}
    (cores : numCores ≠ 0) (rows : trace.length = 2 ^ n) (wide : 0 < trace.width)
    (bitreverse : Bool) : blake2sLeafHashesForCoset numCores trace bitreverse =
      reorder bitreverse ((List.range (2 ^ n)).map fun i => leafHash (rowWords trace i)) := by
  have power := Usize.isPowerOfTwo_two_pow n
  have nonempty : ∀ i, rowWords trace i ≠ [] := fun i =>
    ne_nil_of_length (by rw [rowWords_length]; exact wide)
  have hashes := leafHashesOf_eq cores (Nat.two_pow_pos n).ne' nonempty
  simp only [blake2sLeafHashesForCoset, rows, guard_of power, hashes, Option.bind_eq_bind,
    Option.bind_some]

theorem blake2sLeafHashesForColumnMajorCoset_eq {numCores n c : Nat} {trace : ColumnMajorTrace}
    (cores : numCores ≠ 0) (narrow : trace.width = 1) (rows : trace.length = 2 ^ n * 2 ^ c)
    (bitreverse : Bool) :
    blake2sLeafHashesForColumnMajorCoset numCores trace (2 ^ c) bitreverse =
      reorder bitreverse ((List.range (2 ^ n)).map fun i =>
        leafHash (columnWords trace (2 ^ c) i)) := by
  have power := Usize.isPowerOfTwo_two_pow n
  have group := Usize.isPowerOfTwo_two_pow c
  have divides : trace.length % 2 ^ c = 0 := by rw [rows, Nat.mul_mod_left]
  have size : trace.length / 2 ^ c = 2 ^ n := by
    rw [rows, Nat.mul_div_cancel _ (Nat.two_pow_pos c)]
  have nonempty : ∀ i, columnWords trace (2 ^ c) i ≠ [] := by
    intro i
    apply ne_nil_of_length
    rw [columnWords_length]
    have positive := Nat.two_pow_pos c
    omega
  have hashes := leafHashesOf_eq cores (Nat.two_pow_pos n).ne' nonempty
  simp only [blake2sLeafHashesForColumnMajorCoset, guard_of narrow, guard_of group,
    guard_of divides, size, guard_of power, hashes, Option.bind_eq_bind, Option.bind_some]

/-- Separators that cut a row into nonempty parts. -/
structure SeparatorsFit (trace : RowMajorTrace) (separators : List Nat) : Prop where
  last : ∃ last, separators.getLast? = some last ∧ last ≤ trace.width
  sorted : separators.Pairwise (· < ·)
  first : ∀ separator ∈ separators, 0 < separator

theorem separatedWords_length (trace : RowMajorTrace) (separators : List Nat) (j row : Nat) :
    (separatedWords trace separators j row).length =
      separators.getD j 0 - if j = 0 then 0 else separators.getD (j - 1) 0 := by
  rw [separatedWords, length_reducedWords, RowMajorTrace.rowPart, List.length_map,
    List.length_range']

theorem separatedWords_ne_nil {trace : RowMajorTrace} {separators : List Nat}
    (fit : SeparatorsFit trace separators) {j : Nat} (bound : j < separators.length) (row : Nat) :
    separatedWords trace separators j row ≠ [] := by
  apply ne_nil_of_length
  rw [separatedWords_length]
  have entry : ∀ i, (inside : i < separators.length) → separators.getD i 0 = separators[i] :=
    fun i inside => List.getD_eq_getElem separators 0 inside
  by_cases zero : j = 0
  · rw [if_pos zero, entry j bound]
    exact fit.first _ (List.getElem_mem bound)
  · rw [if_neg zero, entry j bound, entry (j - 1) (by omega)]
    have order := List.pairwise_iff_getElem.mp fit.sorted (j - 1) j (by omega) bound (by omega)
    omega

theorem mapM_congr {α β : Type} {f g : α → Option β} {items : List α}
    (agree : ∀ item ∈ items, f item = g item) : items.mapM f = items.mapM g := by
  induction items with
  | nil => rfl
  | cons item items inductionHypothesis =>
      obtain ⟨first, others⟩ := List.forall_mem_cons.mp agree
      rw [List.mapM_cons, List.mapM_cons, first, inductionHypothesis others]

theorem blake2sLeafHashesSeparatedForCoset_eq {numCores n : Nat} {trace : RowMajorTrace}
    {separators : List Nat} (cores : numCores ≠ 0) (rows : trace.length = 2 ^ n)
    (fit : SeparatorsFit trace separators) (bitreverse : Bool) :
    blake2sLeafHashesSeparatedForCoset numCores trace separators bitreverse =
      (List.range separators.length).mapM fun j => reorder bitreverse
        ((List.range (2 ^ n)).map fun row => leafHash (separatedWords trace separators j row)) := by
  obtain ⟨last, lastEq, inside⟩ := fit.last
  have power := Usize.isPowerOfTwo_two_pow n
  obtain ⟨chunks, chunked, total⟩ := workChunks_eq cores (Nat.two_pow_pos n).ne'
  let parts (row : Nat) : List (List U32) :=
    (List.range separators.length).map fun j => separatedWords trace separators j row
  have hashed : (chunks.mapM fun chunk =>
      hashSeparatedRows Blake2sState.new ((positions chunk).map parts)) =
      some (chunks.map fun chunk =>
        (positions chunk).map fun row => (parts row).map leafHash) := by
    apply mapM_eq_some
    intro chunk _
    rw [hashSeparatedRows_eq, List.map_map]
    · rfl
    · intro rowParts member part partMember
      obtain ⟨row, _, rfl⟩ := List.mem_map.mp member
      obtain ⟨j, jMember, rfl⟩ := List.mem_map.mp partMember
      exact separatedWords_ne_nil fit (List.mem_range.mp jMember) row
  have joined : (chunks.map fun chunk =>
      (positions chunk).map fun row => (parts row).map leafHash).flatten =
      (List.range (2 ^ n)).map fun row => (parts row).map leafHash := by
    rw [← total, List.map_flatMap, List.flatMap_def]
  have columns : ((List.range separators.length).mapM fun j =>
      (((List.range (2 ^ n)).map fun row => (parts row).map leafHash).mapM
        fun digests => digests[j]?).bind fun leafHashes => reorder bitreverse leafHashes) =
      (List.range separators.length).mapM fun j => reorder bitreverse
        ((List.range (2 ^ n)).map fun row =>
          leafHash (separatedWords trace separators j row)) := by
    apply mapM_congr
    intro j member
    have column : (((List.range (2 ^ n)).map fun row => (parts row).map leafHash).mapM
        fun digests => digests[j]?) = some ((List.range (2 ^ n)).map fun row =>
          leafHash (separatedWords trace separators j row)) := by
      rw [List.mapM_map]
      apply mapM_eq_some
      intro row _
      change (((List.range separators.length).map fun j =>
        separatedWords trace separators j row).map leafHash)[j]? = _
      rw [List.getElem?_map, List.getElem?_map, List.getElem?_range (List.mem_range.mp member),
        Option.map_some, Option.map_some]
    rw [column, Option.bind_some]
  simp only [blake2sLeafHashesSeparatedForCoset, lastEq, guard_of inside, guard_of fit.sorted,
    rows, guard_of power, chunked, Option.bind_eq_bind, Option.bind_some]
  change ((chunks.mapM fun chunk =>
    hashSeparatedRows Blake2sState.new ((positions chunk).map parts)).bind _) = _
  rw [hashed, Option.bind_some, joined]
  exact columns

/-! ## Layers -/

theorem nextLayer_eq {numCores n : Nat} (cores : numCores ≠ 0) (f : Nat → Digest) :
    nextLayer numCores ((List.range (2 ^ (n + 1))).map f) =
      some ((List.range (2 ^ n)).map fun i => node (f (2 * i)) (f (2 * i + 1))) := by
  have half : ((List.range (2 ^ (n + 1))).map f).length / 2 = 2 ^ n := by
    rw [List.length_map, List.length_range, Nat.pow_succ, Nat.mul_div_cancel _ Nat.two_pos]
  have power : 2 ^ (n + 1) = 2 * 2 ^ n := Nat.pow_succ'
  obtain ⟨chunks, chunked, total⟩ := workChunks_eq cores (Nat.two_pow_pos n).ne'
  have compressed : (chunks.mapM fun chunk => (positions chunk).mapM fun i => do
      let left ← ((List.range (2 ^ (n + 1))).map f)[2 * i]?
      let right ← ((List.range (2 ^ (n + 1))).map f)[2 * i + 1]?
      some (compressTwoToOne (left ++ right))) =
      some (chunks.map fun chunk =>
        (positions chunk).map fun i => node (f (2 * i)) (f (2 * i + 1))) := by
    apply mapM_eq_some
    intro chunk chunkMember
    apply mapM_eq_some
    intro i member
    have below : i < 2 ^ n := by
      rw [← List.mem_range, ← total]
      exact List.mem_flatMap.mpr ⟨chunk, chunkMember, member⟩
    rw [List.getElem?_map, List.getElem?_map, List.getElem?_range (by omega),
      List.getElem?_range (by omega)]
    rfl
  simp only [nextLayer, half, chunked, Option.bind_eq_bind, Option.bind_some] at compressed ⊢
  rw [compressed, Option.bind_some, ← total, List.map_flatMap, List.flatMap_def]

/-- The nodes at a height above the leaves of a tree. -/
def layerList (leaf : Nat → Digest) (n height : Nat) : List Digest :=
  (List.range (2 ^ (n - height))).map (MerkleTree.layer node leaf height)

theorem constructLayers_eq {numCores n : Nat} (cores : numCores ≠ 0) (leaf : Nat → Digest)
    {height count : Nat} (fits : height + count ≤ n) :
    constructLayers numCores count (layerList leaf n height) =
      some ((List.range count).map fun i => layerList leaf n (height + i + 1)) := by
  induction count generalizing height with
  | zero => rfl
  | succ count inductionHypothesis =>
      have size : n - height = n - (height + 1) + 1 := by omega
      have layer : nextLayer numCores (layerList leaf n height) =
          some (layerList leaf n (height + 1)) := by
        rw [layerList, size, nextLayer_eq cores, layerList]
        simp only [MerkleTree.layer]
      rw [constructLayers, layer]
      simp only [inductionHypothesis (show height + 1 + count ≤ n by omega), Option.bind_eq_bind,
        Option.bind_some]
      rw [List.range_succ_eq_map, List.map_cons, List.map_map, Nat.add_zero]
      have shift : (List.range count).map (fun i => layerList leaf n (height + 1 + i + 1)) =
          (List.range count).map ((fun i => layerList leaf n (height + i + 1)) ∘ Nat.succ) := by
        apply List.map_congr_left
        intro i _
        have place : height + 1 + i + 1 = height + i.succ + 1 := by omega
        rw [place, Function.comp_apply]
      rw [shift]

/-- The tree above `2^n` leaf hashes with a cap of `2^c` nodes. -/
def treeOf (leaf : Nat → Digest) (n c : Nat) : Blake2sU32MerkleTreeWithCap where
  capSize := 2 ^ c
  leafHashes := layerList leaf n 0
  nodeHashesEnumeratedFromLeafs := (List.range (n - c)).map fun i => layerList leaf n (i + 1)

theorem continueFromLeafHashes_eq {numCores n c : Nat} (cores : numCores ≠ 0) (fits : c ≤ n)
    (leaf : Nat → Digest) :
    continueFromLeafHashes numCores ((List.range (2 ^ n)).map leaf) (2 ^ c) =
      some (treeOf leaf n c) := by
  have length : ((List.range (2 ^ n)).map leaf).length = 2 ^ n := by
    rw [List.length_map, List.length_range]
  have leaves := Usize.isPowerOfTwo_two_pow n
  have cap := Usize.isPowerOfTwo_two_pow c
  have order : 2 ^ c ≤ 2 ^ n := Nat.pow_le_pow_right Nat.two_pos fits
  have layers := constructLayers_eq cores leaf (show 0 + (n - c) ≤ n by omega)
  have start : layerList leaf n 0 = (List.range (2 ^ n)).map leaf := rfl
  rw [start] at layers
  simp only [Nat.zero_add] at layers
  simp only [continueFromLeafHashes, length, guard_of leaves, guard_of cap, guard_of order,
    Nat.log2_two_pow, layers, Option.bind_eq_bind, Option.bind_some]
  rfl

/-! ## The cap and the proofs -/

theorem treeOf_getCap (leaf : Nat → Digest) {n c : Nat} (fits : c ≤ n) :
    (treeOf leaf n c).getCap =
      (List.range (2 ^ c)).map (MerkleTree.layer node leaf (n - c)) := by
  by_cases bare : n - c = 0
  · have same : n = c := by omega
    rw [same, Nat.sub_self, Blake2sU32MerkleTreeWithCap.getCap, treeOf, Nat.sub_self]
    rfl
  · obtain ⟨depth, succ⟩ : ∃ depth, n - c = depth + 1 := ⟨n - c - 1, by omega⟩
    have size : n - (depth + 1) = c := by omega
    rw [Blake2sU32MerkleTreeWithCap.getCap, treeOf, succ, List.range_succ, List.map_append,
      List.map_singleton, List.getLast?_concat]
    change layerList leaf n (depth + 1) = _
    rw [layerList, size]

theorem treeOf_layer (leaf : Nat → Digest) {n c height : Nat} (inside : height < n - c) :
    (if height = 0 then some (treeOf leaf n c).leafHashes
      else (treeOf leaf n c).nodeHashesEnumeratedFromLeafs[height - 1]?) =
      some (layerList leaf n height) := by
  by_cases zero : height = 0
  · rw [if_pos zero, zero]
    rfl
  · have place : height - 1 + 1 = height := by omega
    rw [if_neg zero, treeOf, List.getElem?_map, List.getElem?_range (by omega), Option.map_some,
      place]

theorem sibling_lt {k m : Nat} (below : k < 2 ^ (m + 1)) : MerkleTree.sibling k < 2 ^ (m + 1) := by
  have power : 2 ^ (m + 1) = 2 * 2 ^ m := Nat.pow_succ'
  rcases Nat.mod_two_eq_zero_or_one k with even | odd
  · rw [MerkleTree.sibling_of_even even]
    omega
  · rw [MerkleTree.sibling_of_odd odd]
    omega

/-- The loop of the proof collects siblings. -/
theorem treeOf_proofElements (leaf : Nat → Digest) {n c idx : Nat} (below : idx < 2 ^ n)
    {count height : Nat} (inside : height + count = n - c) :
    (treeOf leaf n c).proofElements count height (idx / 2 ^ height) =
      some ((List.range' height count).map fun height => MerkleTree.layer node leaf height
        (MerkleTree.sibling (idx / 2 ^ height))) := by
  induction count generalizing height with
  | zero => rfl
  | succ count inductionHypothesis =>
      have size : n - height = n - height - 1 + 1 := by omega
      have place : idx / 2 ^ height < 2 ^ (n - height - 1 + 1) := by
        rw [← size]
        apply Nat.div_lt_of_lt_mul
        rw [← Nat.pow_add, Nat.add_sub_cancel' (by omega)]
        exact below
      have element : (layerList leaf n height)[idx / 2 ^ height ^^^ 1]? =
          some (MerkleTree.layer node leaf height (MerkleTree.sibling (idx / 2 ^ height))) := by
        have bound := sibling_lt place
        rw [layerList, size, List.getElem?_map, ← MerkleTree.sibling, List.getElem?_range bound]
        rfl
      have layer := treeOf_layer leaf (show height < n - c by omega)
      have rest := inductionHypothesis (show height + 1 + count = n - c by omega)
      have half : (idx / 2 ^ height) >>> 1 = idx / 2 ^ (height + 1) := by
        rw [Nat.shiftRight_eq_div_pow, Nat.div_div_eq_div_mul, ← Nat.pow_add]
      rw [Blake2sU32MerkleTreeWithCap.proofElements, List.range'_succ, List.map_cons]
      by_cases zero : height = 0
      · rw [if_pos zero] at layer
        simp only [if_pos zero, Option.some.inj layer, element, half, rest, Option.bind_eq_bind,
          Option.bind_some]
      · rw [if_neg zero] at layer
        simp only [if_neg zero, layer, element, half, rest, Option.bind_eq_bind, Option.bind_some]

theorem treeOf_getProof (leaf : Nat → Digest) {n c idx : Nat} (below : idx < 2 ^ n) :
    (treeOf leaf n c).getProof idx =
      some (leaf idx, MerkleTree.path node leaf (n - c) idx) := by
  have depth : (treeOf leaf n c).nodeHashesEnumeratedFromLeafs.length = n - c := by
    rw [treeOf, List.length_map, List.length_range]
  have hash : (treeOf leaf n c).leafHashes[idx]? = some (leaf idx) := by
    rw [treeOf, layerList, Nat.sub_zero, List.getElem?_map, List.getElem?_range below,
      Option.map_some, MerkleTree.layer]
  have elements := treeOf_proofElements leaf (c := c) below (Nat.zero_add (n - c))
  rw [Nat.pow_zero, Nat.div_one, ← List.range_eq_range'] at elements
  rw [Blake2sU32MerkleTreeWithCap.getProof, depth, hash]
  simp only [elements, Option.bind_eq_bind, Option.bind_some]
  rfl

end Airbender.Merkle
