import Airbender.Merkle.Construction
import Airbender.Merkle.Verifier

/-!
# Openings

The leaf and the path of a tree are accepted by both verifiers at the place of the leaf.  What else
is accepted there differs from the tree by a collision of the compression function, found where
the two chains meet.
-/

namespace Airbender.Merkle

open Blake2s

/-! ## Paths in the stream -/

def pathWords (path : List Digest) : List U32 := path.flatMap Vector.toList

def readPath : Nat → List U32 → Option (List Digest × List U32)
  | 0, stream => some ([], stream)
  | depth + 1, stream => do
      let (witness, stream) ← readWitness stream
      let (path, stream) ← readPath depth stream
      some (witness :: path, stream)

theorem toList_digest (digest : Digest) : digest.toList =
    [digest.get 0, digest.get 1, digest.get 2, digest.get 3,
      digest.get 4, digest.get 5, digest.get 6, digest.get 7] := by
  apply List.ext_getElem
  · rw [Vector.length_toList]
    rfl
  · intro i bound _
    rw [Vector.length_toList] at bound
    rw [Vector.getElem_toList]
    interval_cases i <;> rfl

theorem readWitness_append (witness : Digest) (stream : List U32) :
    readWitness (witness.toList ++ stream) = some (witness, stream) := by
  have entries : #v[witness.get 0, witness.get 1, witness.get 2, witness.get 3, witness.get 4,
      witness.get 5, witness.get 6, witness.get 7] = witness := by
    apply Vector.ext
    intro i bound
    interval_cases i <;> rfl
  rw [toList_digest]
  simp only [List.cons_append, List.nil_append, readWitness, entries]

theorem eq_append_of_readWitness {stream rest : List U32} {witness : Digest}
    (read : readWitness stream = some (witness, rest)) : stream = witness.toList ++ rest := by
  unfold readWitness at read
  split at read
  · cases read
    rfl
  · cases read

theorem readPath_append (path : List Digest) (rest : List U32) :
    readPath path.length (pathWords path ++ rest) = some (path, rest) := by
  induction path with
  | nil => rfl
  | cons witness path inductionHypothesis =>
      have split : pathWords (witness :: path) ++ rest =
          witness.toList ++ (pathWords path ++ rest) := by
        rw [pathWords, List.flatMap_cons, List.append_assoc]
        rfl
      rw [List.length_cons, readPath, split, readWitness_append]
      simp only [inductionHypothesis, Option.bind_eq_bind, Option.bind_some]

theorem readPath_eq_some {depth : Nat} {stream rest : List U32} {path : List Digest}
    (read : readPath depth stream = some (path, rest)) :
    path.length = depth ∧ stream = pathWords path ++ rest := by
  induction depth generalizing stream path with
  | zero =>
      cases read
      exact ⟨rfl, rfl⟩
  | succ depth inductionHypothesis =>
      simp only [readPath, Option.bind_eq_bind, Option.bind_eq_some_iff] at read
      obtain ⟨⟨witness, middle⟩, first, ⟨others, last⟩, remaining, result⟩ := read
      cases result
      obtain ⟨length, words⟩ := inductionHypothesis remaining
      refine ⟨congrArg (· + 1) length, ?_⟩
      calc stream
        _ = witness.toList ++ middle := eq_append_of_readWitness first
        _ = witness.toList ++ (pathWords others ++ last) := congrArg (witness.toList ++ ·) words
        _ = pathWords (witness :: others) ++ last := by
          rw [pathWords, pathWords, List.flatMap_cons, List.append_assoc]

/-! ## The chain of an opening -/

def pathItems : Nat → List Digest → List HashItem
  | _, [] => []
  | index, witness :: path => .sibling (index % 2 == 1) witness :: pathItems (index / 2) path

/-- What the compression function gets when a leaf is opened. -/
def openingInputs (leafIndex : U32) (leaf : List U32) (path : List Digest) :
    List CompressionInput :=
  chain.inputs configuredIv (leafItems leaf ++ pathItems leafIndex.toNat path)

theorem pathItems_injective {index : Nat} {path path' : List Digest}
    (same : pathItems index path = pathItems index path') : path = path' := by
  induction path generalizing index path' with
  | nil =>
      cases path' with
      | nil => rfl
      | cons witness path' => cases same
  | cons witness path inductionHypothesis =>
      cases path' with
      | nil => cases same
      | cons witness' path' =>
          rw [pathItems, pathItems] at same
          obtain ⟨first, others⟩ := List.cons.inj same
          cases first
          rw [inductionHypothesis others]

theorem step_sibling (index : Nat) (current witness : Digest) :
    chain.step current (.sibling (index % 2 == 1) witness) =
      MerkleTree.climbStep node index current witness := by
  rw [MerkleTree.climbStep]
  by_cases odd : index % 2 = 1
  · rw [if_pos odd, odd]
    rfl
  · have side : (index % 2 == 1) = false := beq_eq_false_iff_ne.mpr odd
    rw [if_neg odd, side]
    rfl

theorem run_pathItems (index : Nat) (current : Digest) (path : List Digest) :
    chain.run current (pathItems index path) = MerkleTree.climb node index current path := by
  induction path generalizing index current with
  | nil => rfl
  | cons witness path inductionHypothesis =>
      rw [pathItems, HashChain.run_cons, step_sibling, inductionHypothesis, MerkleTree.climb]

/-! ## What a verifier accepts -/

section Verifier

variable {Hasher : Type} {verifier : LeafInclusionVerifier Hasher}

theorem followPath_of_readPath (runs : verifier.RunsChain) {depth : Nat}
    {stream rest : List U32} {path : List Digest}
    (read : readPath depth stream = some (path, rest)) (index : Nat) (hasher : Hasher) :
    ∃ after, verifier.followPath depth index hasher stream =
        some (index / 2 ^ depth, after, rest) ∧
      verifier.readStateForOutput after =
        chain.run (verifier.readStateForOutput hasher) (pathItems index path) := by
  induction depth generalizing stream path index hasher with
  | zero =>
      cases read
      rw [Nat.pow_zero, Nat.div_one]
      exact ⟨hasher, rfl, rfl⟩
  | succ depth inductionHypothesis =>
      simp only [readPath, Option.bind_eq_bind, Option.bind_eq_some_iff] at read
      obtain ⟨⟨witness, middle⟩, first, ⟨others, last⟩, remaining, result⟩ := read
      cases result
      have half : index >>> 1 = index / 2 := Nat.shiftRight_one index
      have place : index / 2 / 2 ^ depth = index / 2 ^ (depth + 1) := by
        rw [Nat.div_div_eq_div_mul, Nat.pow_succ']
      have side : (index &&& 1 == 1) = (index % 2 == 1) := by rw [Nat.and_one_is_mod]
      obtain ⟨after, followed, digest⟩ := inductionHypothesis remaining (index / 2)
        (verifier.compressNode hasher (index % 2 == 1) witness)
      refine ⟨after, ?_, ?_⟩
      · simp only [LeafInclusionVerifier.followPath, first, half, side, followed, place,
          Option.bind_eq_bind, Option.bind_some]
      · rw [digest, runs.node, pathItems, HashChain.run_cons]

theorem readPath_of_followPath {depth index left : Nat} {hasher after : Hasher}
    {stream rest : List U32}
    (followed : verifier.followPath depth index hasher stream = some (left, after, rest)) :
    ∃ path, readPath depth stream = some (path, rest) := by
  induction depth generalizing index hasher stream with
  | zero =>
      cases followed
      exact ⟨[], rfl⟩
  | succ depth inductionHypothesis =>
      simp only [LeafInclusionVerifier.followPath, Option.bind_eq_bind,
        Option.bind_eq_some_iff] at followed
      obtain ⟨⟨witness, middle⟩, first, remaining⟩ := followed
      obtain ⟨path, read⟩ := inductionHypothesis remaining
      refine ⟨witness :: path, ?_⟩
      rw [readPath, first]
      simp only [read, Option.bind_eq_bind, Option.bind_some]

theorem foldl_and_iff {α : Type} (p : α → Bool) (items : List α) (start : Bool) :
    items.foldl (fun equal item => equal && p item) start = true ↔
      start = true ∧ ∀ item ∈ items, p item = true := by
  induction items generalizing start with
  | nil => exact ⟨fun holds => ⟨holds, fun _ member => by cases member⟩, And.left⟩
  | cons item items inductionHypothesis =>
      rw [List.foldl_cons, inductionHypothesis, Bool.and_eq_true, List.forall_mem_cons, and_assoc]

theorem equalDigests_iff (outputHash cap : Digest) :
    LeafInclusionVerifier.equalDigests outputHash cap = true ↔ outputHash = cap := by
  have words : LeafInclusionVerifier.equalDigests outputHash cap = true ↔
      ∀ i : Fin 8, outputHash.get i = cap.get i := by
    rw [LeafInclusionVerifier.equalDigests, foldl_and_iff]
    constructor
    · rintro ⟨_, all⟩ i
      exact beq_iff_eq.mp (all i (List.mem_finRange i))
    · intro all
      exact ⟨rfl, fun i _ => beq_iff_eq.mpr (all i)⟩
  rw [words]
  constructor
  · intro all
    apply Vector.ext
    intro i bound
    exact all ⟨i, bound⟩
  · rintro rfl i
    rfl

/-- A verifier compares the end of the chain with the entry of the cap above the leaf. -/
theorem verifyLeafInclusion_of_readPath (runs : verifier.RunsChain) {cosetIndex leafIndex : U32}
    {depth : Nat} {leaf stream rest : List U32} {path cap : List Digest} {entry : Digest}
    {merkleCap : List (List Digest)} (nonempty : leaf ≠ [])
    (read : readPath depth stream = some (path, rest))
    (coset : merkleCap[cosetIndex.toNat]? = some cap)
    (above : cap[leafIndex.toNat / 2 ^ depth]? = some entry) (hasher : Hasher) :
    ∃ after, verifier.verifyLeafInclusion hasher cosetIndex leafIndex depth leaf merkleCap stream =
      some (LeafInclusionVerifier.equalDigests
        (chain.run configuredIv (leafItems leaf ++ pathItems leafIndex.toNat path)) entry,
        after, rest) := by
  obtain ⟨after, followed, digest⟩ := followPath_of_readPath runs read leafIndex.toNat
    (verifier.hashLeaf hasher leaf)
  refine ⟨after, ?_⟩
  rw [runs.leaf hasher leaf nonempty, leafHash, ← HashChain.run_append] at digest
  simp only [LeafInclusionVerifier.verifyLeafInclusion, followed, coset, above, digest,
    Option.bind_eq_bind, Option.bind_some]

theorem readPath_of_verifyLeafInclusion {cosetIndex leafIndex : U32} {depth : Nat}
    {leaf stream rest : List U32} {merkleCap : List (List Digest)} {hasher after : Hasher}
    {equal : Bool} (verified : verifier.verifyLeafInclusion hasher cosetIndex leafIndex depth leaf
      merkleCap stream = some (equal, after, rest)) :
    ∃ path, readPath depth stream = some (path, rest) := by
  simp only [LeafInclusionVerifier.verifyLeafInclusion, Option.bind_eq_bind,
    Option.bind_eq_some_iff] at verified
  obtain ⟨⟨index, last, left⟩, followed, caps, _, cap, _, result⟩ := verified
  cases result
  exact readPath_of_followPath followed

end Verifier

/-! ## Two chains at one place -/

/-- Items of one shape: the input of the compression function determines them. -/
def Alike : HashItem → HashItem → Prop
  | .leafBlock t lastRound _, .leafBlock t' lastRound' _ => t = t' ∧ lastRound = lastRound'
  | .sibling inputIsRight _, .sibling inputIsRight' _ => inputIsRight = inputIsRight'
  | _, _ => False

theorem halves_injective {left left' right right' : Digest}
    (same : (left ++ right : Vector U32 16) = left' ++ right') :
    left = left' ∧ right = right' := by
  constructor
  · apply Vector.ext
    intro i bound
    have entry := congrArg (fun block : Vector U32 16 => block[i]) same
    simp only [Blake2sForEverythingVerifier.getElem_halves _ _ (show i < 16 by omega),
      dif_pos bound] at entry
    exact entry
  · apply Vector.ext
    intro i bound
    have entry := congrArg (fun block : Vector U32 16 => block[i + 8]) same
    simp only [Blake2sForEverythingVerifier.getElem_halves _ _ (show i + 8 < 16 by omega),
      dif_neg (show ¬i + 8 < 8 by omega), Nat.add_sub_cancel] at entry
    exact entry

theorem chain_input_injective (state state' : Digest) (item item' : HashItem)
    (alike : Alike item item') (same : chain.input state item = chain.input state' item') :
    state = state' ∧ item = item' := by
  cases item with
  | leafBlock t lastRound block =>
      cases item' with
      | leafBlock t' lastRound' block' =>
          obtain ⟨rfl, rfl⟩ := alike
          injection same with states _ _ blocks
          rw [states, blocks]
          exact ⟨rfl, rfl⟩
      | sibling inputIsRight' witness' => exact alike.elim
  | sibling inputIsRight witness =>
      cases item' with
      | leafBlock t' lastRound' block' => exact alike.elim
      | sibling inputIsRight' witness' =>
          cases alike
          injection same with _ _ _ blocks
          cases inputIsRight with
          | false =>
              obtain ⟨states, witnesses⟩ := halves_injective blocks
              exact ⟨states, congrArg _ witnesses⟩
          | true =>
              obtain ⟨witnesses, states⟩ := halves_injective blocks
              exact ⟨states, congrArg _ witnesses⟩

theorem alike_leafItems {leaf leaf' : List U32} (width : leaf'.length = leaf.length) :
    List.Forall₂ Alike (leafItems leaf') (leafItems leaf) := by
  have blocks : numLeafBlocks leaf' = numLeafBlocks leaf := by rw [numLeafBlocks, width]; rfl
  rw [leafItems, leafItems, blocks, List.forall₂_map_left_iff, List.forall₂_map_right_iff,
    List.forall₂_same]
  intro i _
  rw [leafItem, leafItem, width, blocks]
  exact ⟨rfl, rfl⟩

theorem alike_pathItems {path path' : List Digest} (length : path'.length = path.length)
    (index : Nat) : List.Forall₂ Alike (pathItems index path') (pathItems index path) := by
  induction path' generalizing path index with
  | nil =>
      rw [List.length_nil] at length
      rw [List.eq_nil_of_length_eq_zero length.symm]
      exact List.Forall₂.nil
  | cons witness' path' inductionHypothesis =>
      cases path with
      | nil => cases length
      | cons witness path =>
          rw [pathItems, pathItems]
          exact List.Forall₂.cons rfl (inductionHypothesis (Nat.succ.inj length) (index / 2))

/-- The blocks of a leaf determine its words. -/
theorem leafItems_injective {leaf leaf' : List U32} (width : leaf'.length = leaf.length)
    (same : leafItems leaf' = leafItems leaf) : leaf' = leaf := by
  apply List.ext_getElem width
  intro k bound' bound
  have blocks : numLeafBlocks leaf' = numLeafBlocks leaf := by rw [numLeafBlocks, width]; rfl
  have inside : k / 16 < numLeafBlocks leaf := by
    rw [numLeafBlocks]
    omega
  have items := congrArg (fun items : List HashItem => items[k / 16]?) same
  simp only [leafItems, List.getElem?_map, blocks, List.getElem?_range inside,
    Option.map_some] at items
  injection Option.some.inj items with _ _ block
  have word := congrArg (fun block : Vector U32 16 => block[k % 16]) block
  have place : 16 * (k / 16) + k % 16 = k := Nat.div_add_mod k 16
  have small : k % 16 < 16 := Nat.mod_lt k (by omega)
  simp only [leafBlock, Blake2sState.blockOfWords, Vector.getElem_ofFn,
    List.getElem?_take_of_lt small, List.getElem?_drop, place, List.getElem?_eq_getElem bound',
    List.getElem?_eq_getElem bound, Option.getD_some] at word
  exact word

/-- Two openings of one place with one digest above agree, or show a collision. -/
theorem openings_agree_or_collide {leafIndex : U32} {leaf leaf' : List U32}
    {path path' : List Digest} (width : leaf'.length = leaf.length)
    (depth : path'.length = path.length)
    (same : chain.run configuredIv (leafItems leaf' ++ pathItems leafIndex.toNat path') =
      chain.run configuredIv (leafItems leaf ++ pathItems leafIndex.toNat path)) :
    (leaf' = leaf ∧ path' = path) ∨
      ∃ pair, chain.findCollision (openingInputs leafIndex leaf' path')
          (openingInputs leafIndex leaf path) = some pair ∧
        chain.Collision (openingInputs leafIndex leaf' path') (openingInputs leafIndex leaf path)
          pair := by
  have shape : List.Forall₂ Alike (leafItems leaf' ++ pathItems leafIndex.toNat path')
      (leafItems leaf ++ pathItems leafIndex.toNat path) :=
    List.rel_append (alike_leafItems width) (alike_pathItems depth leafIndex.toNat)
  rcases chain.run_binding chain_input_injective shape same with ⟨_, items⟩ | ⟨pair, found⟩
  · left
    have lengths : (leafItems leaf').length = (leafItems leaf).length :=
      (alike_leafItems width).length_eq
    obtain ⟨leaves, paths⟩ := List.append_inj items lengths
    exact ⟨leafItems_injective width leaves, pathItems_injective paths⟩
  · right
    exact ⟨pair, found, chain.collision_of_find found⟩

end Airbender.Merkle
