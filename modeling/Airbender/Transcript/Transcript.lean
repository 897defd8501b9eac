import Airbender.Lib.BlockBuffer
import Airbender.Transcript.Blake2sState

/-!
# The Fiat-Shamir transcript

Seeds, the randomness drawn from them, proof of work, and the buffering transcript that the
statement verifiers and the prover share.  What a buffering transcript returns depends on the
words it absorbed, and not on the pieces they came in.
-/

namespace Airbender

open Blake2s BlockBuffer

/-- `Seed`: the digest that all later randomness comes from. -/
abbrev Seed := Vector U32 8

def useReducedBlake2Rounds : Bool := true

/-! ## Randomness and proof of work -/

namespace Blake2sTranscript

/-- `draw_randomness_inner`: the hash of the seed is the next seed. -/
def drawRandomnessInner (seed : Seed) : Seed :=
  let hasher := Blake2sState.new
  let hasher := (hasher.copyIn 0 seed.toList).zeroFrom digestSizeU32Words
  (hasher.runRoundFunction useReducedBlake2Rounds digestSizeU32Words true).readStateForOutput

/-- The words drawn after the seed itself, eight for every round. -/
def drawRounds : Nat → Seed → List U32
  | 0, _ => []
  | rounds + 1, seed =>
      let seed := drawRandomnessInner seed
      seed.toList ++ drawRounds rounds seed

/-- `draw_randomness` into a destination of `count` words, a multiple of eight. -/
def drawRandomness (seed : Seed) (count : Nat) : List U32 :=
  seed.toList ++ drawRounds (count / digestSizeU32Words - 1) seed

/-- `0xffffffff >> pow_bits` in a release build, which takes the amount modulo the width. -/
def powBound (powBits : Nat) : U32 := (0xffffffff : U32) >>> (powBits % 32)

/-- `verify_pow_using_hasher`: the next seed if its first word is small enough, and the hasher as
it is left. -/
def verifyPowUsingHasher (hasher : Blake2sState) (seed : Seed) (nonce : U64) (powBits : Nat) :
    Option (Seed × Blake2sState) := do
  guard (powBits ≤ 32)
  let hasher := hasher.reset
  let hasher := hasher.copyIn 0 (seed.toList ++ [nonce.setWidth 32, (nonce >>> 32).setWidth 32])
  let hasher := hasher.zeroFrom (digestSizeU32Words + 2)
  let hasher := hasher.runRoundFunction useReducedBlake2Rounds (digestSizeU32Words + 2) true
  guard (hasher.state.get 0 ≤ powBound powBits)
  some (hasher.readStateForOutput, hasher)

/-- `verify_pow`: the next seed. -/
def verifyPow (seed : Seed) (nonce : U64) (powBits : Nat) : Option Seed :=
  (verifyPowUsingHasher Blake2sState.new seed nonce powBits).map Prod.fst

theorem length_drawRounds (rounds : Nat) (seed : Seed) :
    (drawRounds rounds seed).length = 8 * rounds := by
  induction rounds generalizing seed with
  | zero => rfl
  | succ rounds inductionHypothesis =>
      rw [drawRounds, List.length_append, inductionHypothesis, Vector.length_toList]
      omega

theorem length_drawRandomness (seed : Seed) {count : Nat} (positive : 8 ≤ count) :
    (drawRandomness seed count).length = 8 * (count / 8) := by
  rw [drawRandomness, List.length_append, length_drawRounds, Vector.length_toList,
    digestSizeU32Words]
  omega

theorem drawRounds_prefix {few many : Nat} (le : few ≤ many) (seed : Seed) :
    drawRounds few seed <+: drawRounds many seed := by
  induction few generalizing many seed with
  | zero => exact List.nil_prefix
  | succ few inductionHypothesis =>
      cases many with
      | zero => exact absurd le (Nat.not_succ_le_zero few)
      | succ many =>
          rw [drawRounds, drawRounds]
          exact (List.prefix_append_right_inj _).mpr
            (inductionHypothesis (Nat.le_of_succ_le_succ le) _)

/-- A longer destination starts with the same words. -/
theorem drawRandomness_prefix {few many : Nat} (le : few ≤ many) (seed : Seed) :
    drawRandomness seed few <+: drawRandomness seed many := by
  apply (List.prefix_append_right_inj _).mpr
  apply drawRounds_prefix
  exact Nat.sub_le_sub_right (Nat.div_le_div_right le) 1

end Blake2sTranscript

/-! ## The buffering transcript -/

structure Blake2sBufferingTranscript where
  state : Blake2sState
  bufferOffset : Nat

namespace Blake2sBufferingTranscript

def new : Blake2sBufferingTranscript where
  state := Blake2sState.new
  bufferOffset := 0

def getCurrentBufferOffset (transcript : Blake2sBufferingTranscript) : Nat :=
  transcript.bufferOffset

def runAbsorb (transcript : Blake2sBufferingTranscript) : Blake2sBufferingTranscript where
  state := transcript.state.runRoundFunction useReducedBlake2Rounds blockSizeU32Words false
  bufferOffset := 0

/-- The words that one pass of `absorb` copies. -/
def absorbThisRound (transcript : Blake2sBufferingTranscript) (values : List U32) : Nat :=
  min values.length (blockSizeU32Words - transcript.bufferOffset)

/-- One pass of `absorb`, before it looks whether there is more. -/
def copyRound (transcript : Blake2sBufferingTranscript) (values : List U32) :
    Blake2sBufferingTranscript :=
  let count := transcript.absorbThisRound values
  { state := transcript.state.copyIn transcript.bufferOffset (values.take count)
    bufferOffset := transcript.bufferOffset + count }

/-- The loop of `absorb`.  A full buffer is sent away only if there are more words. -/
def absorb (transcript : Blake2sBufferingTranscript) (values : List U32) :
    Blake2sBufferingTranscript :=
  if values = [] then
    transcript
  else
    let copied := transcript.copyRound values
    let rest := values.drop (transcript.absorbThisRound values)
    if rest = [] then copied else absorb copied.runAbsorb rest
termination_by 2 * values.length + transcript.bufferOffset / 16
decreasing_by
  rename_i nonempty _
  have positive : 0 < values.length := List.length_pos_of_ne_nil nonempty
  have offset : (transcript.copyRound values).runAbsorb.bufferOffset = 0 := rfl
  rw [offset, List.length_drop, absorbThisRound, blockSizeU32Words]
  omega

/-- `finalize`: zeros fill the buffer, and the last round knows how many words it has. -/
def finalize (transcript : Blake2sBufferingTranscript) : Seed :=
  let state := transcript.state.zeroFrom transcript.bufferOffset
  (state.runRoundFunction useReducedBlake2Rounds transcript.bufferOffset
    true).readStateForOutput

/-- `finalize_reset`: the same seed, and a transcript to start over with. -/
def finalizeReset (transcript : Blake2sBufferingTranscript) :
    Seed × Blake2sBufferingTranscript :=
  let state := transcript.state.zeroFrom transcript.bufferOffset
  let state := state.runRoundFunction useReducedBlake2Rounds transcript.bufferOffset true
  (state.readStateForOutput, { state := state.reset, bufferOffset := 0 })

/-! ## What was absorbed -/

/-- The block function of the transcript: chaining value and byte count. -/
def blockStep (state : Vector U32 8 × U32) (block : List U32) : Vector U32 8 × U32 :=
  let t := state.2 + 64
  (Blake2sState.compress useReducedBlake2Rounds state.1 t false
    (Blake2sState.blockOfWords block), t)

/-- A transcript as a buffer in front of the block function: stale words of the input buffer
do not count. -/
def buffered (transcript : Blake2sBufferingTranscript) :
    Buffered (Vector U32 8 × U32) U32 16 where
  state := (transcript.state.state, transcript.state.t)
  pending := transcript.state.wordsBefore transcript.bufferOffset
  bound := by
    rw [Blake2sState.length_wordsBefore]
    exact Nat.min_le_right _ _

/-- The digest of a buffer. -/
def bufferedDigest (buffer : Buffered (Vector U32 8 × U32) U32 16) : Seed :=
  Blake2sState.compress useReducedBlake2Rounds buffer.state.1
    (buffer.state.2 + BitVec.ofNat 32 (buffer.pending.length * 4)) true
    (Blake2sState.blockOfWords buffer.pending)

/-- The offset stays inside the buffer. -/
def InBuffer (transcript : Blake2sBufferingTranscript) : Prop :=
  transcript.bufferOffset ≤ blockSizeU32Words

variable {transcript : Blake2sBufferingTranscript}

theorem inBuffer_new : new.InBuffer := Nat.zero_le _

theorem InBuffer.length_pending (inside : transcript.InBuffer) :
    transcript.buffered.pending.length = transcript.bufferOffset := by
  rw [InBuffer, blockSizeU32Words] at inside
  change (transcript.state.wordsBefore transcript.bufferOffset).length = _
  rw [Blake2sState.length_wordsBefore, Nat.min_eq_left inside]

theorem InBuffer.copyRound (inside : transcript.InBuffer) (values : List U32) :
    (transcript.copyRound values).InBuffer := by
  rw [InBuffer, blockSizeU32Words] at inside
  simp only [InBuffer, Blake2sBufferingTranscript.copyRound, absorbThisRound, blockSizeU32Words]
  omega

theorem InBuffer.buffered_copyRound (inside : transcript.InBuffer) (values : List U32) :
    (transcript.copyRound values).buffered =
      transcript.buffered.absorb blockStep
        (values.take (transcript.absorbThisRound values)) := by
  have offset := inside.length_pending
  rw [InBuffer, blockSizeU32Words] at inside
  have count : (values.take (transcript.absorbThisRound values)).length =
      transcript.absorbThisRound values := by
    rw [List.length_take, absorbThisRound]
    omega
  have fits : transcript.bufferOffset + transcript.absorbThisRound values ≤ 16 := by
    rw [absorbThisRound, blockSizeU32Words]
    omega
  have kept := @Buffered.absorb_of_fits _ _ _ _ blockStep
    (values.take (transcript.absorbThisRound values)) transcript.buffered (by omega)
  apply Buffered.ext_pending
  · exact kept.1.symm
  · rw [kept.2]
    have copied := @Blake2sState.wordsBefore_copyIn transcript.state transcript.bufferOffset
      (values.take (transcript.absorbThisRound values)) (by omega)
    rw [count] at copied
    exact copied

/-- A full buffer that is sent away leaves the processed state. -/
theorem buffered_runAbsorb (full : transcript.bufferOffset = blockSizeU32Words) :
    transcript.runAbsorb.buffered =
      Buffered.empty
        (blockStep transcript.buffered.state transcript.buffered.pending) := by
  have block := transcript.state.inputBuffer_eq_blockOfWords
  apply Buffered.ext_pending
  · change (Blake2sState.compress _ _ _ _ transcript.state.inputBuffer, _) =
      (Blake2sState.compress _ _ _ _ (Blake2sState.blockOfWords
        (transcript.state.wordsBefore transcript.bufferOffset)), _)
    rw [full, block]
    rfl
  · rfl

theorem buffered_absorb (inside : transcript.InBuffer) (values : List U32) :
    (transcript.absorb values).buffered = transcript.buffered.absorb blockStep values ∧
      (transcript.absorb values).InBuffer := by
  induction transcript, values using absorb.induct with
  | case1 transcript =>
      rw [absorb, if_pos rfl]
      exact ⟨rfl, inside⟩
  | case2 transcript values nonempty rest nothing =>
      have all : values.take (transcript.absorbThisRound values) = values := by
        have split := List.take_append_drop (transcript.absorbThisRound values) values
        have drained : values.drop (transcript.absorbThisRound values) = [] := nothing
        rwa [drained, List.append_nil] at split
      rw [absorb, if_neg nonempty, if_pos nothing, inside.buffered_copyRound, all]
      exact ⟨rfl, inside.copyRound values⟩
  | case3 transcript values nonempty copied rest more inductionHypothesis =>
      have full : copied.bufferOffset = blockSizeU32Words := by
        have left : 0 < rest.length := List.length_pos_of_ne_nil more
        rw [List.length_drop] at left
        rw [InBuffer] at inside
        change transcript.bufferOffset + transcript.absorbThisRound values = _
        rw [absorbThisRound] at left ⊢
        omega
      have copiedBuffer := inside.buffered_copyRound values
      have fullPending : (transcript.buffered.absorb blockStep
          (values.take (transcript.absorbThisRound values))).pending.length = 16 := by
        rw [← copiedBuffer, (inside.copyRound values).length_pending]
        exact full
      obtain ⟨restBuffer, restInside⟩ := inductionHypothesis (Nat.zero_le _)
      rw [absorb, if_neg nonempty, if_neg more]
      refine ⟨?_, restInside⟩
      rw [restBuffer, buffered_runAbsorb full]
      change (Buffered.empty (blockStep (transcript.copyRound values).buffered.state
        (transcript.copyRound values).buffered.pending)).absorb blockStep rest = _
      rw [copiedBuffer, ← Buffered.absorb_of_full_eq fullPending more, ← Buffered.absorb_append]
      exact congrArg _ (List.take_append_drop _ values)

theorem InBuffer.absorb (inside : transcript.InBuffer) (values : List U32) :
    (transcript.absorb values).InBuffer :=
  (buffered_absorb inside values).2

/-- A seed is the digest of what the buffer says. -/
theorem InBuffer.finalize_eq (inside : transcript.InBuffer) :
    transcript.finalize = bufferedDigest transcript.buffered := by
  have offset := inside.length_pending
  rw [bufferedDigest, offset]
  change Blake2sState.compress _ _ _ _
    (transcript.state.zeroFrom transcript.bufferOffset).inputBuffer = _
  rw [Blake2sState.inputBuffer_zeroFrom]
  rfl

theorem finalizeReset_fst (transcript : Blake2sBufferingTranscript) :
    transcript.finalizeReset.1 = transcript.finalize := rfl

/-- A transcript that starts over is as good as a new one. -/
theorem buffered_finalizeReset (transcript : Blake2sBufferingTranscript) :
    transcript.finalizeReset.2.buffered = new.buffered := rfl

theorem inBuffer_finalizeReset (transcript : Blake2sBufferingTranscript) :
    transcript.finalizeReset.2.InBuffer := Nat.zero_le _

/-! ## Digests of words -/

/-- `Holds transcript words`: since it was new or started over, exactly `words` were absorbed. -/
structure Holds (transcript : Blake2sBufferingTranscript) (words : List U32) : Prop where
  inBuffer : transcript.InBuffer
  buffered_eq : transcript.buffered = new.buffered.absorb blockStep words

theorem holds_new : new.Holds [] where
  inBuffer := inBuffer_new
  buffered_eq := rfl

theorem holds_finalizeReset (transcript : Blake2sBufferingTranscript) :
    transcript.finalizeReset.2.Holds [] where
  inBuffer := inBuffer_finalizeReset transcript
  buffered_eq := buffered_finalizeReset transcript

theorem Holds.absorb {words : List U32} (holds : transcript.Holds words) (values : List U32) :
    (transcript.absorb values).Holds (words ++ values) where
  inBuffer := holds.inBuffer.absorb values
  buffered_eq := by
    rw [(buffered_absorb holds.inBuffer values).1, holds.buffered_eq, Buffered.absorb_append]

/-- The digest of a list of words. -/
def digest (words : List U32) : Seed :=
  (new.absorb words).finalize

/-- The digest of at most one block is one round. -/
theorem digest_of_length_le {words : List U32} (fits : words.length ≤ 16) :
    digest words =
      Blake2sState.compress useReducedBlake2Rounds configuredIv
        (BitVec.ofNat 32 (words.length * 4)) true (Blake2sState.blockOfWords words) := by
  have kept := @Buffered.absorb_of_fits _ _ _ _ blockStep words new.buffered (by
    change 0 + words.length ≤ 16
    omega)
  have direct : (new.absorb words).Holds words := holds_new.absorb words
  rw [digest, direct.inBuffer.finalize_eq, direct.buffered_eq, bufferedDigest, kept.1, kept.2]
  have initial : new.buffered.state.1 = configuredIv := rfl
  have count : new.buffered.state.2 + BitVec.ofNat 32 (words.length * 4) =
      BitVec.ofNat 32 (words.length * 4) := BitVec.zero_add _
  have nothing : new.buffered.pending = [] := rfl
  rw [nothing, List.nil_append, initial, count]

/-- Only the concatenation of the absorbed pieces matters. -/
theorem Holds.finalize_eq {words : List U32} (holds : transcript.Holds words) :
    transcript.finalize = digest words := by
  have direct : (new.absorb words).Holds words := holds_new.absorb words
  rw [digest, holds.inBuffer.finalize_eq, direct.inBuffer.finalize_eq, holds.buffered_eq,
    direct.buffered_eq]

theorem Holds.finalizeReset_eq {words : List U32} (holds : transcript.Holds words) :
    transcript.finalizeReset.1 = digest words :=
  holds.finalize_eq

/-- Whole blocks leave the buffer full and unflushed. -/
theorem Holds.offset_eq {words : List U32} (holds : transcript.Holds words)
    (nonempty : words ≠ []) (blocks : 16 ∣ words.length) :
    transcript.getCurrentBufferOffset = blockSizeU32Words := by
  have full := @Buffered.full_absorb_of_dvd _ _ _ _ blockStep words new.buffered
    (Or.inr nonempty) (by
      change 16 ∣ 0 + words.length
      rwa [Nat.zero_add])
  rw [← holds.buffered_eq, holds.inBuffer.length_pending] at full
  exact full

end Blake2sBufferingTranscript

end Airbender
