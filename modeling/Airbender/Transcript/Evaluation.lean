import Airbender.Transcript.Transcript

/-!
# Digests on natural numbers

The compression of the transcript on natural numbers that are evaluated one by one, so that the
kernel can compute the digest of a long list of words.
-/

namespace Airbender.Blake2s

/-! ## Word operations -/

def addNat (a b : Nat) : Nat := Nat.land (Nat.add a b) 4294967295

def rotateRightNat (right left x : Nat) : Nat :=
  Nat.lor (Nat.shiftRight (Nat.land x 4294967295) right)
    (Nat.land (Nat.shiftLeft (Nat.land x 4294967295) left) 4294967295)

/-- A continuation that gets an evaluated number. -/
def force {α : Type} (n : Nat) (continuation : Nat → α) : α :=
  match n with
  | 0 => continuation 0
  | predecessor + 1 => continuation (predecessor + 1)

@[simp]
theorem force_eq {α : Type} (n : Nat) (continuation : Nat → α) :
    force n continuation = continuation n := by
  cases n <;> rfl

theorem land_mask (x : Nat) : Nat.land x 4294967295 = x % 2 ^ 32 :=
  Nat.and_two_pow_sub_one_eq_mod x 32

theorem ofNat_addNat (a b : Nat) :
    BitVec.ofNat 32 (addNat a b) = BitVec.ofNat 32 a + BitVec.ofNat 32 b := by
  apply BitVec.eq_of_toNat_eq
  rw [addNat, land_mask, BitVec.toNat_add, BitVec.toNat_ofNat, BitVec.toNat_ofNat,
    BitVec.toNat_ofNat, Nat.mod_mod, ← Nat.add_mod]
  rfl

theorem ofNat_xorNat (a b : Nat) :
    BitVec.ofNat 32 (Nat.xor a b) = BitVec.ofNat 32 a ^^^ BitVec.ofNat 32 b := by
  apply BitVec.eq_of_toNat_eq
  rw [BitVec.toNat_xor, BitVec.toNat_ofNat, BitVec.toNat_ofNat, BitVec.toNat_ofNat]
  exact Nat.xor_mod_two_pow

theorem ofNat_rotateRightNat {right left : Nat} (word : right + left = 32) (inside : right < 32)
    (x : Nat) :
    BitVec.ofNat 32 (rotateRightNat right left x) = (BitVec.ofNat 32 x).rotateRight right := by
  have leftEq : left = 32 - right % 32 := by
    rw [Nat.mod_eq_of_lt inside]
    omega
  have rightEq : right = right % 32 := (Nat.mod_eq_of_lt inside).symm
  apply BitVec.eq_of_toNat_eq
  rw [rotateRightNat, land_mask, land_mask, BitVec.toNat_rotateRight, ← rightEq,
    BitVec.toNat_ofNat, BitVec.toNat_ofNat]
  rw [← rightEq] at leftEq
  rw [← leftEq]
  apply Nat.mod_eq_of_lt
  apply Nat.or_lt_two_pow
  · exact Nat.lt_of_le_of_lt (Nat.shiftRight_le _ _) (Nat.mod_lt _ (Nat.two_pow_pos 32))
  · exact Nat.mod_lt _ (Nat.two_pow_pos 32)

/-! ## The mixing function -/

/-- The sixteen words of a working state. -/
structure Working where
  v0 : Nat
  v1 : Nat
  v2 : Nat
  v3 : Nat
  v4 : Nat
  v5 : Nat
  v6 : Nat
  v7 : Nat
  v8 : Nat
  v9 : Nat
  v10 : Nat
  v11 : Nat
  v12 : Nat
  v13 : Nat
  v14 : Nat
  v15 : Nat

/-- Four words of a working state. -/
structure Lanes where
  a : Nat
  b : Nat
  c : Nat
  d : Nat

def gNat (lanes : Lanes) (x y : Nat) : Lanes :=
  force (addNat (addNat lanes.a lanes.b) x) fun a =>
  force (rotateRightNat 16 16 (Nat.xor lanes.d a)) fun d =>
  force (addNat lanes.c d) fun c =>
  force (rotateRightNat 12 20 (Nat.xor lanes.b c)) fun b =>
  force (addNat (addNat a b) y) fun a =>
  force (rotateRightNat 8 24 (Nat.xor d a)) fun d =>
  force (addNat c d) fun c =>
  force (rotateRightNat 7 25 (Nat.xor b c)) fun b =>
  ⟨a, b, c, d⟩

def Working.words (s : Working) : Vector U32 16 :=
  #v[BitVec.ofNat 32 s.v0, BitVec.ofNat 32 s.v1, BitVec.ofNat 32 s.v2, BitVec.ofNat 32 s.v3,
    BitVec.ofNat 32 s.v4, BitVec.ofNat 32 s.v5, BitVec.ofNat 32 s.v6, BitVec.ofNat 32 s.v7,
    BitVec.ofNat 32 s.v8, BitVec.ofNat 32 s.v9, BitVec.ofNat 32 s.v10, BitVec.ofNat 32 s.v11,
    BitVec.ofNat 32 s.v12, BitVec.ofNat 32 s.v13, BitVec.ofNat 32 s.v14, BitVec.ofNat 32 s.v15]

/-- The four words that one application of the mixing function works on. -/
inductive Column where
  | column0 | column1 | column2 | column3
  | diagonal0 | diagonal1 | diagonal2 | diagonal3

namespace Column

/-- The indices of the four words. -/
def indices : Column → Fin 16 × Fin 16 × Fin 16 × Fin 16
  | column0 => (0, 4, 8, 12)
  | column1 => (1, 5, 9, 13)
  | column2 => (2, 6, 10, 14)
  | column3 => (3, 7, 11, 15)
  | diagonal0 => (0, 5, 10, 15)
  | diagonal1 => (1, 6, 11, 12)
  | diagonal2 => (2, 7, 8, 13)
  | diagonal3 => (3, 4, 9, 14)

def select (s : Working) : Column → Lanes
  | column0 => ⟨s.v0, s.v4, s.v8, s.v12⟩
  | column1 => ⟨s.v1, s.v5, s.v9, s.v13⟩
  | column2 => ⟨s.v2, s.v6, s.v10, s.v14⟩
  | column3 => ⟨s.v3, s.v7, s.v11, s.v15⟩
  | diagonal0 => ⟨s.v0, s.v5, s.v10, s.v15⟩
  | diagonal1 => ⟨s.v1, s.v6, s.v11, s.v12⟩
  | diagonal2 => ⟨s.v2, s.v7, s.v8, s.v13⟩
  | diagonal3 => ⟨s.v3, s.v4, s.v9, s.v14⟩

def store (s : Working) (lanes : Lanes) : Column → Working
  | column0 => { s with v0 := lanes.a, v4 := lanes.b, v8 := lanes.c, v12 := lanes.d }
  | column1 => { s with v1 := lanes.a, v5 := lanes.b, v9 := lanes.c, v13 := lanes.d }
  | column2 => { s with v2 := lanes.a, v6 := lanes.b, v10 := lanes.c, v14 := lanes.d }
  | column3 => { s with v3 := lanes.a, v7 := lanes.b, v11 := lanes.c, v15 := lanes.d }
  | diagonal0 => { s with v0 := lanes.a, v5 := lanes.b, v10 := lanes.c, v15 := lanes.d }
  | diagonal1 => { s with v1 := lanes.a, v6 := lanes.b, v11 := lanes.c, v12 := lanes.d }
  | diagonal2 => { s with v2 := lanes.a, v7 := lanes.b, v8 := lanes.c, v13 := lanes.d }
  | diagonal3 => { s with v3 := lanes.a, v4 := lanes.b, v9 := lanes.c, v14 := lanes.d }

end Column

/-- One application of the mixing function to a working state. -/
def Working.mix (s : Working) (column : Column) (x y : Nat) : Working :=
  let lanes := gNat (column.select s) x y
  column.store s ⟨lanes.a, lanes.b, lanes.c, lanes.d⟩

/-- The mixing function on four words. -/
def gWords (a b c d x y : U32) : U32 × U32 × U32 × U32 :=
  let a := a + b + x
  let d := (d ^^^ a).rotateRight 16
  let c := c + d
  let b := (b ^^^ c).rotateRight 12
  let a := a + b + y
  let d := (d ^^^ a).rotateRight 8
  let c := c + d
  let b := (b ^^^ c).rotateRight 7
  (a, b, c, d)

theorem gNat_words (lanes : Lanes) (x y : Nat) :
    gWords (BitVec.ofNat 32 lanes.a) (BitVec.ofNat 32 lanes.b) (BitVec.ofNat 32 lanes.c)
        (BitVec.ofNat 32 lanes.d) (BitVec.ofNat 32 x) (BitVec.ofNat 32 y) =
      (BitVec.ofNat 32 (gNat lanes x y).a, BitVec.ofNat 32 (gNat lanes x y).b,
        BitVec.ofNat 32 (gNat lanes x y).c, BitVec.ofNat 32 (gNat lanes x y).d) := by
  have rotate16 := fun x => ofNat_rotateRightNat (rfl : 16 + 16 = 32) (by decide) x
  have rotate12 := fun x => ofNat_rotateRightNat (rfl : 12 + 20 = 32) (by decide) x
  have rotate8 := fun x => ofNat_rotateRightNat (rfl : 8 + 24 = 32) (by decide) x
  have rotate7 := fun x => ofNat_rotateRightNat (rfl : 7 + 25 = 32) (by decide) x
  simp only [gNat, force_eq, gWords, ofNat_addNat, ofNat_xorNat, rotate16, rotate12, rotate8,
    rotate7]

theorem gFunction_words (s : Working) (column : Column) (x y : Nat) :
    gFunction s.words column.indices.1 column.indices.2.1 column.indices.2.2.1
        column.indices.2.2.2 (BitVec.ofNat 32 x) (BitVec.ofNat 32 y) =
      (s.mix column x y).words := by
  have lanes := gNat_words (column.select s) x y
  cases column <;>
    · simp only [Prod.ext_iff] at lanes
      simp only [Working.mix, Working.words, Column.store, ← lanes.1, ← lanes.2.1,
        ← lanes.2.2.1, ← lanes.2.2.2]
      rfl

/-! ## Rounds -/

/-- The words of a list of numbers. -/
def wordsOfNat (count : Nat) (numbers : List Nat) : Vector U32 count :=
  Vector.ofFn fun i => BitVec.ofNat 32 (numbers.getD i.val 0)

/-- Mix columns, then diagonals. -/
def Working.mixAll (s : Working) (block : List Nat) (sigma : Vector (Fin 16) 16) : Working :=
  let m (i : Fin 16) : Nat := block.getD (sigma.get i).val 0
  let s := s.mix .column0 (m 0) (m 1)
  let s := s.mix .column1 (m 2) (m 3)
  let s := s.mix .column2 (m 4) (m 5)
  let s := s.mix .column3 (m 6) (m 7)
  let s := s.mix .diagonal0 (m 8) (m 9)
  let s := s.mix .diagonal1 (m 10) (m 11)
  let s := s.mix .diagonal2 (m 12) (m 13)
  s.mix .diagonal3 (m 14) (m 15)

theorem mixingFunction_words (s : Working) (block : List Nat) (sigma : Vector (Fin 16) 16) :
    mixingFunction s.words (wordsOfNat 16 block) sigma = (s.mixAll block sigma).words := by
  have message : ∀ i : Fin 16, (wordsOfNat 16 block)[i] =
      BitVec.ofNat 32 (block.getD i.val 0) := by
    intro i
    exact Vector.getElem_ofFn i.isLt
  have mix : ∀ (s : Working) (column : Column) (i j : Fin 16),
      gFunction s.words column.indices.1 column.indices.2.1 column.indices.2.2.1
          column.indices.2.2.2 (wordsOfNat 16 block)[sigma[i]] (wordsOfNat 16 block)[sigma[j]] =
        (s.mix column (block.getD (sigma.get i).val 0)
          (block.getD (sigma.get j).val 0)).words := by
    intro s column i j
    rw [message, message]
    exact gFunction_words s column _ _
  rw [mixingFunction, Working.mixAll]
  rw [← mix _ .diagonal3, ← mix _ .diagonal2, ← mix _ .diagonal1, ← mix _ .diagonal0,
    ← mix _ .column3, ← mix _ .column2, ← mix _ .column1, ← mix _ .column0]
  rfl

def Working.rounds (block : List Nat) (s : Working) (sigmas : List (Vector (Fin 16) 16)) :
    Working :=
  sigmas.foldl (fun s sigma => s.mixAll block sigma) s

theorem rounds_words (block : List Nat) (s : Working) (sigmas : List (Vector (Fin 16) 16)) :
    sigmas.foldl (fun state sigma => mixingFunction state (wordsOfNat 16 block) sigma) s.words =
      (s.rounds block sigmas).words := by
  induction sigmas generalizing s with
  | nil => rfl
  | cons sigma sigmas inductionHypothesis =>
      rw [List.foldl_cons, mixingFunction_words, inductionHypothesis]
      rfl

/-! ## Compression -/

def ivNat : List Nat :=
  [0x6A09E667, 0xBB67AE85, 0x3C6EF372, 0xA54FF53A, 0x510E527F, 0x9B05688C, 0x1F83D9AB,
    0x5BE0CD19]

def configuredIvNat : List Nat :=
  [0x6A09E667 ^^^ 0x01010000 ^^^ 32, 0xBB67AE85, 0x3C6EF372, 0xA54FF53A, 0x510E527F,
    0x9B05688C, 0x1F83D9AB, 0x5BE0CD19]

theorem wordsOfNat_configuredIvNat : wordsOfNat 8 configuredIvNat = configuredIv := by
  decide

/-- The working state of a block. -/
def Working.start (h : List Nat) (t : Nat) (lastRound : Bool) : Working where
  v0 := h.getD 0 0
  v1 := h.getD 1 0
  v2 := h.getD 2 0
  v3 := h.getD 3 0
  v4 := h.getD 4 0
  v5 := h.getD 5 0
  v6 := h.getD 6 0
  v7 := h.getD 7 0
  v8 := ivNat.getD 0 0
  v9 := ivNat.getD 1 0
  v10 := ivNat.getD 2 0
  v11 := ivNat.getD 3 0
  v12 := Nat.xor t (ivNat.getD 4 0)
  v13 := ivNat.getD 5 0
  v14 := Nat.xor (if lastRound then 4294967295 else 0) (ivNat.getD 6 0)
  v15 := ivNat.getD 7 0

theorem extendedState_words (h : List Nat) (t : Nat) (lastRound : Bool) :
    Blake2sState.extendedState (wordsOfNat 8 h) (BitVec.ofNat 32 t) lastRound =
      (Working.start h t lastRound).words := by
  simp only [Blake2sState.extendedState, Working.words, Working.start, ofNat_xorNat]
  cases lastRound <;> rfl

/-- Two halves of the working state join the chaining value. -/
def Working.output (h : List Nat) (s : Working) : List Nat :=
  force (Nat.xor (Nat.xor (h.getD 0 0) s.v0) s.v8) fun h0 =>
  force (Nat.xor (Nat.xor (h.getD 1 0) s.v1) s.v9) fun h1 =>
  force (Nat.xor (Nat.xor (h.getD 2 0) s.v2) s.v10) fun h2 =>
  force (Nat.xor (Nat.xor (h.getD 3 0) s.v3) s.v11) fun h3 =>
  force (Nat.xor (Nat.xor (h.getD 4 0) s.v4) s.v12) fun h4 =>
  force (Nat.xor (Nat.xor (h.getD 5 0) s.v5) s.v13) fun h5 =>
  force (Nat.xor (Nat.xor (h.getD 6 0) s.v6) s.v14) fun h6 =>
  force (Nat.xor (Nat.xor (h.getD 7 0) s.v7) s.v15) fun h7 =>
  [h0, h1, h2, h3, h4, h5, h6, h7]

def compressNat (h : List Nat) (t : Nat) (lastRound : Bool) (block : List Nat) : List Nat :=
  Working.output h ((Working.start h t lastRound).rounds block (sigmas.toList.take 7))

/-- The halves of a mixed state join the chaining value. -/
def joinHalves (state : Vector U32 8) (mixed : Vector U32 16) : Vector U32 8 :=
  Vector.ofFn fun i : Fin 8 => state.get i ^^^ mixed.get (i.castAdd 8) ^^^ mixed.get (i.addNat 8)

theorem compress_reduced (state : Vector U32 8) (t : U32) (lastRound : Bool)
    (block : Vector U32 16) :
    Blake2sState.compress true state t lastRound block =
      joinHalves state ((sigmas.toList.take 7).foldl
        (fun state sigma => mixingFunction state block sigma)
        (Blake2sState.extendedState state t lastRound)) := rfl

theorem joinHalves_words (h : List Nat) (s : Working) :
    joinHalves (wordsOfNat 8 h) s.words = wordsOfNat 8 (s.output h) := by
  simp only [Working.output, force_eq]
  apply Vector.ext
  intro i bound
  simp only [joinHalves, wordsOfNat, Vector.getElem_ofFn]
  have cases : i = 0 ∨ i = 1 ∨ i = 2 ∨ i = 3 ∨ i = 4 ∨ i = 5 ∨ i = 6 ∨ i = 7 := by omega
  rcases cases with rfl | rfl | rfl | rfl | rfl | rfl | rfl | rfl <;>
    · simp only [List.getD_cons_zero, List.getD_cons_succ, ofNat_xorNat]
      rfl

theorem compress_words (h : List Nat) (t : Nat) (lastRound : Bool) (block : List Nat) :
    Blake2sState.compress true (wordsOfNat 8 h) (BitVec.ofNat 32 t) lastRound
        (wordsOfNat 16 block) =
      wordsOfNat 8 (compressNat h t lastRound block) := by
  rw [compress_reduced, extendedState_words, rounds_words, joinHalves_words, compressNat]

end Airbender.Blake2s

/-! ## Digests -/

namespace Airbender.Blake2sBufferingTranscript

open Blake2s BlockBuffer

/-- Blocks are compressed one after another, and the last one as such. -/
def digestBlocks (h : List Nat) (t : Nat) : List (List Nat) → List Nat
  | [] => compressNat h t true []
  | [block] => compressNat h (t + block.length * 4) true block
  | block :: blocks => digestBlocks (compressNat h (t + 64) false block) (t + 64) blocks

/-- A list of numbers as words. -/
def wordList (numbers : List Nat) : List U32 := numbers.map (BitVec.ofNat 32)

theorem blockOfWords_wordList (block : List Nat) :
    Blake2sState.blockOfWords (wordList block) = wordsOfNat 16 block := by
  apply Vector.ext
  intro i bound
  rw [Blake2sState.blockOfWords, wordsOfNat]
  simp only [Vector.getElem_ofFn]
  rw [wordList, List.getElem?_map, List.getD_eq_getElem?_getD]
  cases block[i]? <;> rfl

/-- All blocks are full but the last, which has at least one word. -/
inductive WholeBlocks : List (List Nat) → Prop
  | last {block : List Nat} (nonempty : block ≠ []) (fits : block.length ≤ 16) :
      WholeBlocks [block]
  | cons {block : List Nat} {blocks : List (List Nat)} (full : block.length = 16)
      (rest : WholeBlocks blocks) : WholeBlocks (block :: blocks)

theorem WholeBlocks.flatten_ne_nil {blocks : List (List Nat)} (whole : WholeBlocks blocks) :
    wordList blocks.flatten ≠ [] := by
  cases whole with
  | last nonempty fits =>
      intro empty
      have none := List.map_eq_nil_iff.mp empty
      rw [List.flatten_cons, List.flatten_nil, List.append_nil] at none
      exact nonempty none
  | cons full rest =>
      intro empty
      have none := List.map_eq_nil_iff.mp empty
      rw [List.flatten_cons, List.append_eq_nil_iff] at none
      rw [none.1, List.length_nil] at full
      omega

theorem WholeBlocks.bufferedDigest_eq {blocks : List (List Nat)} (whole : WholeBlocks blocks)
    (h : List Nat) (t : Nat) :
    bufferedDigest ((Buffered.empty (wordsOfNat 8 h, BitVec.ofNat 32 t)).absorb blockStep
        (wordList blocks.flatten)) =
      wordsOfNat 8 (digestBlocks h t blocks) := by
  induction whole generalizing h t with
  | @last block nonempty fits =>
      let start : Buffered (Vector U32 8 × U32) U32 16 :=
        Buffered.empty (wordsOfNat 8 h, BitVec.ofNat 32 t)
      have length : (wordList block).length = block.length := List.length_map _
      have kept := @Buffered.absorb_of_fits _ _ _ _ blockStep (wordList block) start (by
        change 0 + (wordList block).length ≤ 16
        rw [length]
        omega)
      have pending : (start.absorb blockStep (wordList block)).pending = wordList block :=
        kept.2
      rw [List.flatten_cons, List.flatten_nil, List.append_nil, bufferedDigest, kept.1, pending,
        blockOfWords_wordList, length, digestBlocks]
      exact (congrArg (fun count => Blake2sState.compress true (wordsOfNat 8 h) count true
        (wordsOfNat 16 block)) (BitVec.ofNat_add t (block.length * 4)).symm).trans
          (compress_words h (t + block.length * 4) true block)
  | @cons block blocks full rest inductionHypothesis =>
      let start : Buffered (Vector U32 8 × U32) U32 16 :=
        Buffered.empty (wordsOfNat 8 h, BitVec.ofNat 32 t)
      have length : (wordList block).length = 16 := (List.length_map _).trans full
      have kept := @Buffered.absorb_of_fits _ _ _ _ blockStep (wordList block) start (by
        change 0 + (wordList block).length ≤ 16
        omega)
      have pending : (start.absorb blockStep (wordList block)).pending = wordList block :=
        kept.2
      have step : blockStep (start.absorb blockStep (wordList block)).state
          (start.absorb blockStep (wordList block)).pending =
          (wordsOfNat 8 (compressNat h (t + 64) false block), BitVec.ofNat 32 (t + 64)) := by
        have count : BitVec.ofNat 32 t + 64 = BitVec.ofNat 32 (t + 64) :=
          (BitVec.ofNat_add t 64).symm
        rw [kept.1, pending]
        change (Blake2sState.compress true (wordsOfNat 8 h) (BitVec.ofNat 32 t + 64) false
          (Blake2sState.blockOfWords (wordList block)), BitVec.ofNat 32 t + 64) = _
        rw [count, blockOfWords_wordList, compress_words]
      have split : wordList (block :: blocks).flatten =
          wordList block ++ wordList blocks.flatten := by
        rw [List.flatten_cons, wordList, List.map_append]
        rfl
      have nonempty : blocks ≠ [] := by
        rintro rfl
        exact rest.flatten_ne_nil rfl
      have fullPending : (start.absorb blockStep (wordList block)).pending.length = 16 := by
        rw [pending, length]
      obtain ⟨next, others, rfl⟩ := List.exists_cons_of_ne_nil nonempty
      rw [split, Buffered.absorb_append, Buffered.absorb_of_full_eq fullPending
        rest.flatten_ne_nil, step, inductionHypothesis]
      rfl

/-- The digest of whole blocks of numbers. -/
theorem digest_eq_digestBlocks {blocks : List (List Nat)} (whole : WholeBlocks blocks) :
    digest (wordList blocks.flatten) = wordsOfNat 8 (digestBlocks configuredIvNat 0 blocks) := by
  have direct : (new.absorb (wordList blocks.flatten)).Holds (wordList blocks.flatten) :=
    holds_new.absorb _
  have initial : new.buffered =
      Buffered.empty (wordsOfNat 8 configuredIvNat, BitVec.ofNat 32 0) := by
    rw [wordsOfNat_configuredIvNat]
    rfl
  rw [digest, direct.inBuffer.finalize_eq, direct.buffered_eq, initial, whole.bufferedDigest_eq]

theorem length_digestBlocks (h : List Nat) (t : Nat) (blocks : List (List Nat)) :
    (digestBlocks h t blocks).length = 8 := by
  have length : ∀ (h : List Nat) (t : Nat) (lastRound : Bool) (block : List Nat),
      (compressNat h t lastRound block).length = 8 := by
    intro h t lastRound block
    simp only [compressNat, Working.output, force_eq, List.length_cons, List.length_nil]
  induction blocks generalizing h t with
  | nil => exact length h t true []
  | cons block blocks inductionHypothesis =>
      cases blocks with
      | nil => exact length h (t + block.length * 4) true block
      | cons => exact inductionHypothesis _ _

end Airbender.Blake2sBufferingTranscript

/-! ## Drawn words -/

namespace Airbender.Blake2sTranscript

open Blake2s Blake2sBufferingTranscript

/-- The next seed is the digest of the seed. -/
theorem drawRandomnessInner_eq_digest (seed : Seed) :
    drawRandomnessInner seed = digest seed.toList := by
  have length : seed.toList.length = 8 := Vector.length_toList
  have copied := @Blake2sState.wordsBefore_copyIn Blake2sState.new 0 seed.toList (by omega)
  rw [length] at copied
  have block := Blake2sState.inputBuffer_zeroFrom (Blake2sState.new.copyIn 0 seed.toList) 8
  rw [copied] at block
  rw [digest_of_length_le (by omega), length]
  exact congrArg (Blake2sState.compress useReducedBlake2Rounds configuredIv
    (BitVec.ofNat 32 (8 * 4)) true) block

theorem toList_wordsOfNat {h : List Nat} (length : h.length = 8) :
    (wordsOfNat 8 h).toList = wordList h := by
  apply List.ext_getElem
  · rw [Vector.length_toList, wordList, List.length_map, length]
  · intro i left right
    rw [wordList, List.length_map] at right
    simp only [wordsOfNat, wordList, Vector.getElem_toList, Vector.getElem_ofFn,
      List.getElem_map, List.getD_eq_getElem?_getD, List.getElem?_eq_getElem right,
      Option.getD_some]

/-- The drawn words on numbers. -/
def drawRoundsNat : Nat → List Nat → List Nat
  | 0, _ => []
  | rounds + 1, seed =>
      let seed := digestBlocks configuredIvNat 0 [seed]
      seed ++ drawRoundsNat rounds seed

theorem drawRounds_words (rounds : Nat) {seed : List Nat} (length : seed.length = 8) :
    drawRounds rounds (wordsOfNat 8 seed) = wordList (drawRoundsNat rounds seed) := by
  induction rounds generalizing seed with
  | zero => rfl
  | succ rounds inductionHypothesis =>
      have whole : WholeBlocks [seed] := .last (List.ne_nil_of_length_pos (by omega)) (by omega)
      have next := digest_eq_digestBlocks whole
      rw [List.flatten_cons, List.flatten_nil, List.append_nil] at next
      have nextLength := length_digestBlocks configuredIvNat 0 [seed]
      rw [drawRounds, drawRandomnessInner_eq_digest, toList_wordsOfNat length, next]
      simp only [toList_wordsOfNat nextLength, inductionHypothesis nextLength, drawRoundsNat]
      exact List.map_append.symm

theorem drawRandomness_words {seed : List Nat} (length : seed.length = 8) (count : Nat) :
    drawRandomness (wordsOfNat 8 seed) count =
      wordList (seed ++ drawRoundsNat (count / digestSizeU32Words - 1) seed) := by
  rw [drawRandomness, drawRounds_words _ length, toList_wordsOfNat length]
  exact List.map_append.symm

end Airbender.Blake2sTranscript
