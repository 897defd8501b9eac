import Airbender.Transcript.Transcript

/-!
# Committing to words

Two paths hash a list of words: the buffering transcript, which takes it in pieces, and the
committing transcript, which drives a hasher by itself and may be handed one that was used
before.  Both are the hash of the words, block by block.

Debug assertions are not part of the model.  A release build has none.
-/

namespace Airbender

open Blake2s BlockBuffer

/-! ## The hash of a list of words -/

/-- The hash of words that follow `absorbed` others.  Every block counts the bytes up to its
end, and the last one, which is there even if it is empty, has its flag set. -/
def blake2sFrom (state : Vector U32 8) (absorbed : Nat) (words : List U32) : Vector U32 8 :=
  if words.length ≤ blockSizeU32Words then
    Blake2sState.compress useReducedBlake2Rounds state
      (BitVec.ofNat 32 (4 * (absorbed + words.length))) true (Blake2sState.blockOfWords words)
  else
    let block := Blake2sState.blockOfWords (words.take blockSizeU32Words)
    let t := BitVec.ofNat 32 (4 * (absorbed + blockSizeU32Words))
    blake2sFrom (Blake2sState.compress useReducedBlake2Rounds state t false block)
      (absorbed + blockSizeU32Words) (words.drop blockSizeU32Words)
termination_by words.length
decreasing_by
  rename_i more
  rw [List.length_drop]
  rw [blockSizeU32Words] at more ⊢
  omega

def blake2s (words : List U32) : Seed := blake2sFrom configuredIv 0 words

namespace Blake2sBufferingTranscript

theorem blockStep_eq (state : Vector U32 8) (t : U32) (block : List U32) :
    blockStep (state, t) block =
      (Blake2sState.compress useReducedBlake2Rounds state (t + 64) false
        (Blake2sState.blockOfWords block), t + 64) := rfl

/-- What a buffer makes of some words is their hash, from where it starts. -/
theorem bufferedDigest_absorb (state : Vector U32 8) (absorbed : Nat) (words : List U32) :
    bufferedDigest ((Buffered.empty (state, BitVec.ofNat 32 (4 * absorbed))).absorb blockStep
      words) = blake2sFrom state absorbed words := by
  induction state, absorbed, words using blake2sFrom.induct with
  | case1 state absorbed words fits =>
      have kept := @Buffered.absorb_of_fits _ _ 16 _ blockStep words
        (Buffered.empty (state, BitVec.ofNat 32 (4 * absorbed))) (by
          change 0 + words.length ≤ 16
          rwa [Nat.zero_add])
      have pending : (Buffered.empty (state, BitVec.ofNat 32 (4 * absorbed)) :
          Buffered (Vector U32 8 × U32) U32 16).pending ++ words = words := List.nil_append words
      have counter : BitVec.ofNat 32 (4 * absorbed) + BitVec.ofNat 32 (words.length * 4) =
          BitVec.ofNat 32 (4 * (absorbed + words.length)) := by
        rw [← BitVec.ofNat_add, Nat.mul_add, Nat.mul_comm words.length]
      rw [blake2sFrom, if_pos fits, bufferedDigest, kept.1, kept.2, pending, ← counter]
      rfl
  | case2 state absorbed words more block t inductionHypothesis =>
      have longer : 16 < words.length := Nat.not_le.mp more
      have length : (words.take 16).length = 16 := by
        rw [List.length_take]
        omega
      have kept := @Buffered.absorb_of_fits _ _ 16 _ blockStep (words.take 16)
        (Buffered.empty (state, BitVec.ofNat 32 (4 * absorbed))) (by
          change 0 + (words.take 16).length ≤ 16
          rw [length])
      have pending : (Buffered.empty (state, BitVec.ofNat 32 (4 * absorbed)) :
          Buffered (Vector U32 8 × U32) U32 16).pending ++ words.take 16 = words.take 16 :=
        List.nil_append _
      rw [pending] at kept
      have rest : words.drop 16 ≠ [] := by
        intro nothing
        have none := List.length_drop (i := 16) (l := words)
        rw [nothing, List.length_nil] at none
        omega
      have counter : BitVec.ofNat 32 (4 * absorbed) + 64 =
          BitVec.ofNat 32 (4 * (absorbed + 16)) := by
        rw [Nat.mul_add, BitVec.ofNat_add]
        rfl
      have sent : blockStep (state, BitVec.ofNat 32 (4 * absorbed)) (words.take 16) =
          (Blake2sState.compress useReducedBlake2Rounds state t false block,
            BitVec.ofNat 32 (4 * (absorbed + 16))) := by
        rw [blockStep_eq, counter]
        rfl
      have full := @Buffered.absorb_of_full_eq _ _ _ _ blockStep _ (words.drop 16)
        (kept.2 ▸ length) rest
      rw [blake2sFrom, if_neg more, ← inductionHypothesis]
      conv_lhs => rw [← List.take_append_drop 16 words]
      have start : (Buffered.empty (state, BitVec.ofNat 32 (4 * absorbed)) :
          Buffered (Vector U32 8 × U32) U32 16).state = (state, BitVec.ofNat 32 (4 * absorbed)) :=
        rfl
      rw [Buffered.absorb_append, full, kept.1, kept.2, start, sent]
      rfl

/-- The hash of the words that a transcript holds. -/
theorem digest_eq_blake2s (words : List U32) : digest words = blake2s words := by
  have holds : (new.absorb words).Holds words := holds_new.absorb words
  rw [digest, holds.inBuffer.finalize_eq, holds.buffered_eq]
  exact bufferedDigest_absorb configuredIv 0 words

/-! ## Padding -/

/-- `pad`: zeros fill the buffer, which then counts as full. -/
def pad (transcript : Blake2sBufferingTranscript) : Blake2sBufferingTranscript where
  state := transcript.state.zeroFrom transcript.bufferOffset
  bufferOffset := blockSizeU32Words

/-- The zeros up to the end of the block that the last of `count` words is in.  Before the first
word that is a whole block. -/
def zerosToBlockEnd (count : Nat) : Nat :=
  if count = 0 then blockSizeU32Words
  else (blockSizeU32Words - count % blockSizeU32Words) % blockSizeU32Words

variable {transcript : Blake2sBufferingTranscript}

theorem buffered_state (transcript : Blake2sBufferingTranscript) :
    transcript.buffered.state = (transcript.state.state, transcript.state.t) := rfl

theorem buffered_pending (transcript : Blake2sBufferingTranscript) :
    transcript.buffered.pending = transcript.state.wordsBefore transcript.bufferOffset := rfl

/-- A transcript pads by absorbing zeros. -/
theorem InBuffer.buffered_pad (inside : transcript.InBuffer) :
    transcript.pad.buffered = transcript.buffered.absorb blockStep
      (List.replicate (16 - transcript.bufferOffset) 0) := by
  have offset := inside.length_pending
  rw [InBuffer, blockSizeU32Words] at inside
  have kept := @Buffered.absorb_of_fits _ _ _ _ blockStep
    (List.replicate (16 - transcript.bufferOffset) 0) transcript.buffered (by
      rw [offset, List.length_replicate]
      omega)
  apply Buffered.ext_pending
  · rw [kept.1, buffered_state, buffered_state, pad, Blake2sState.zeroFrom]
  · rw [kept.2, buffered_pending, buffered_pending, pad, blockSizeU32Words]
    apply List.ext_getElem?
    intro i
    have before : (transcript.state.wordsBefore transcript.bufferOffset).length =
        transcript.bufferOffset := offset
    rcases Nat.lt_or_ge i 16 with bound | outside
    · rw [Blake2sState.getElem?_wordsBefore _ bound bound, Blake2sState.zeroFrom]
      simp only [Vector.getElem_ofFn]
      rcases Nat.lt_or_ge i transcript.bufferOffset with early | late
      · rw [if_pos early, List.getElem?_append_left (by rwa [before]),
          Blake2sState.getElem?_wordsBefore _ early bound]
        rfl
      · rw [if_neg (Nat.not_lt.mpr late), List.getElem?_append_right (by rwa [before]), before,
          List.getElem?_replicate, if_pos (by omega)]
    · rw [List.getElem?_eq_none (by rw [Blake2sState.length_wordsBefore]; omega),
        List.getElem?_eq_none (by rw [List.length_append, before, List.length_replicate]; omega)]

theorem inBuffer_pad (transcript : Blake2sBufferingTranscript) : transcript.pad.InBuffer :=
  Nat.le_refl _

/-- The offset says how far the last block is filled. -/
theorem Holds.room_eq {words : List U32} (holds : transcript.Holds words) :
    16 - transcript.bufferOffset = zerosToBlockEnd words.length := by
  have inside := holds.inBuffer
  rw [InBuffer] at inside
  have length := holds.inBuffer.length_pending
  have aligned := @Buffered.length_pending_absorb_mod _ _ _ _ blockStep new.buffered words
  have none : new.buffered.pending.length = 0 := rfl
  rw [← holds.buffered_eq, length, none, Nat.zero_add] at aligned
  by_cases nothing : words = []
  · have start := holds.buffered_eq
    rw [nothing, Buffered.absorb_nil] at start
    rw [start, none] at length
    rw [← length, nothing, zerosToBlockEnd, List.length_nil, if_pos rfl, blockSizeU32Words]
  · have positive := @Buffered.length_pending_absorb_pos _ _ _ _ blockStep new.buffered words
      (Or.inr nothing)
    rw [← holds.buffered_eq, length] at positive
    have some : words.length ≠ 0 := by
      intro zero
      exact nothing (List.length_eq_zero_iff.mp zero)
    rw [blockSizeU32Words] at inside
    rw [zerosToBlockEnd, if_neg some, blockSizeU32Words]
    omega

theorem Holds.pad {words : List U32} (holds : transcript.Holds words) :
    transcript.pad.Holds (words ++ List.replicate (zerosToBlockEnd words.length) 0) where
  inBuffer := inBuffer_pad transcript
  buffered_eq := by
    rw [holds.inBuffer.buffered_pad, holds.buffered_eq, ← Buffered.absorb_append,
      holds.room_eq]

/-! ## Sequences of calls -/

inductive Call where
  | absorb (values : List U32)
  | pad
deriving DecidableEq

def call (transcript : Blake2sBufferingTranscript) : Call → Blake2sBufferingTranscript
  | .absorb values => transcript.absorb values
  | .pad => transcript.pad

/-- The concatenation of the slices that were absorbed, with zeros for every `pad`. -/
def concatenation : List Call → List U32 :=
  List.foldl (fun words call =>
    match call with
    | .absorb values => words ++ values
    | .pad => words ++ List.replicate (zerosToBlockEnd words.length) 0) []

/-- A transcript that was just made, or just started over. -/
def IsFresh (transcript : Blake2sBufferingTranscript) : Prop :=
  transcript = new ∨ ∃ before : Blake2sBufferingTranscript, transcript = before.finalizeReset.2

theorem IsFresh.holds (fresh : transcript.IsFresh) : transcript.Holds [] := by
  rcases fresh with made | ⟨before, startedOver⟩
  · rw [made]
    exact holds_new
  · rw [startedOver]
    exact holds_finalizeReset before

/-- After any calls, a transcript holds the concatenation. -/
theorem IsFresh.holds_calls (fresh : transcript.IsFresh) (calls : List Call) :
    (calls.foldl call transcript).Holds (concatenation calls) := by
  have start := fresh.holds
  rw [concatenation]
  generalize ([] : List U32) = words at start ⊢
  clear fresh
  induction calls generalizing transcript words with
  | nil => exact start
  | cons next calls inductionHypothesis =>
      rw [List.foldl_cons, List.foldl_cons]
      apply inductionHypothesis
      cases next with
      | absorb values => exact start.absorb values
      | pad => exact start.pad

end Blake2sBufferingTranscript

/-! ## The committing transcript -/

namespace Blake2sTranscript

open Blake2sBufferingTranscript

/-- Where the loop of `commit_inner` stands: the words that are not copied yet, and the offset
to copy them to. -/
structure CommitProgress where
  hasher : Blake2sState
  input : List U32
  bufferOffset : Nat

/-- One round of `commit_inner`. -/
def commitRound (progress : CommitProgress) : CommitProgress :=
  let wordsToUse := min progress.input.length (blockSizeU32Words - progress.bufferOffset)
  let hasher := progress.hasher.copyIn progress.bufferOffset (progress.input.take wordsToUse)
  let remaining := progress.input.drop wordsToUse
  let bufferOffset := progress.bufferOffset + wordsToUse
  let hasher := hasher.zeroFrom bufferOffset
  if 0 < remaining.length then
    { hasher := hasher.runRoundFunction useReducedBlake2Rounds blockSizeU32Words false
      input := remaining
      bufferOffset := 0 }
  else
    { hasher := hasher, input := remaining, bufferOffset := bufferOffset }

/-- `commit_inner` counts its rounds in advance. -/
def commitInner (hasher : Blake2sState) (input : List U32) (offset : Nat) :
    Blake2sState × Nat :=
  let effectiveInputLen := offset + input.length
  let numRounds :=
    if 0 < effectiveInputLen % blockSizeU32Words then effectiveInputLen / blockSizeU32Words + 1
    else effectiveInputLen / blockSizeU32Words
  let progress := commitRound^[numRounds]
    { hasher := hasher, input := input, bufferOffset := offset }
  (progress.hasher, progress.bufferOffset)

def flush (hasher : Blake2sState) (offset : Nat) : Blake2sState :=
  hasher.runRoundFunction useReducedBlake2Rounds offset true

def commitInitial (input : List U32) : Seed :=
  let (hasher, offset) := commitInner Blake2sState.new input 0
  (flush hasher offset).readStateForOutput

def commitWithSeed (seed : Seed) (input : List U32) : Seed :=
  let (hasher, offset) := commitInner Blake2sState.new seed.toList 0
  let (hasher, offset) := commitInner hasher input offset
  (flush hasher offset).readStateForOutput

/-- `commit_initial_using_hasher`, and the hasher as it is left. -/
def commitInitialUsingHasher (hasher : Blake2sState) (input : List U32) : Seed × Blake2sState :=
  let (hasher, offset) := commitInner hasher.reset input 0
  let hasher := flush hasher offset
  (hasher.readStateForOutput, hasher)

/-- `commit_with_seed_using_hasher`, and the hasher as it is left. -/
def commitWithSeedUsingHasher (hasher : Blake2sState) (seed : Seed) (input : List U32) :
    Seed × Blake2sState :=
  let (hasher, offset) := commitInner hasher.reset seed.toList 0
  let (hasher, offset) := commitInner hasher input offset
  let hasher := flush hasher offset
  (hasher.readStateForOutput, hasher)

/-! ### A committing hasher is a buffering transcript with a clean buffer -/

/-- The same hasher, seen as a buffering transcript. -/
def CommitProgress.transcript (progress : CommitProgress) : Blake2sBufferingTranscript where
  state := progress.hasher
  bufferOffset := progress.bufferOffset

/-- The words that a hasher was given before the offset, and zeros after it. -/
def IsPadded (hasher : Blake2sState) (offset : Nat) : Prop :=
  hasher.inputBuffer = Blake2sState.blockOfWords (hasher.wordsBefore offset)

/-- `Committed hasher offset buffer`: nothing but the last round is missing for the digest of
the buffer. -/
structure Committed (hasher : Blake2sState) (offset : Nat)
    (buffer : Buffered (Vector U32 8 × U32) U32 16) : Prop where
  inBuffer : (⟨hasher, offset⟩ : Blake2sBufferingTranscript).InBuffer
  buffered_eq : (⟨hasher, offset⟩ : Blake2sBufferingTranscript).buffered = buffer
  padded : IsPadded hasher offset

theorem Committed.flush_eq {hasher : Blake2sState} {offset : Nat}
    {buffer : Buffered (Vector U32 8 × U32) U32 16} (committed : Committed hasher offset buffer) :
    (flush hasher offset).readStateForOutput = bufferedDigest buffer := by
  have length := committed.inBuffer.length_pending
  rw [flush, Blake2sState.readStateForOutput, Blake2sState.runRoundFunction, committed.padded,
    ← committed.buffered_eq, bufferedDigest, length, buffered_state, buffered_pending]

theorem wordsBefore_zeroFrom (hasher : Blake2sState) {offset : Nat} (inside : offset ≤ 16) :
    (hasher.zeroFrom offset).wordsBefore offset = hasher.wordsBefore offset := by
  apply List.ext_getElem?
  intro i
  rcases Nat.lt_or_ge i offset with before | after
  · have bound : i < 16 := Nat.lt_of_lt_of_le before inside
    rw [Blake2sState.getElem?_wordsBefore _ before bound,
      Blake2sState.getElem?_wordsBefore _ before bound, Blake2sState.zeroFrom]
    simp only [Vector.getElem_ofFn]
    rw [if_pos before]
    rfl
  · rw [List.getElem?_eq_none (by rw [Blake2sState.length_wordsBefore]; omega),
      List.getElem?_eq_none (by rw [Blake2sState.length_wordsBefore]; omega)]

theorem isPadded_zeroFrom (hasher : Blake2sState) {offset : Nat} (inside : offset ≤ 16) :
    IsPadded (hasher.zeroFrom offset) offset := by
  rw [IsPadded, wordsBefore_zeroFrom hasher inside, Blake2sState.inputBuffer_zeroFrom]

/-- Clearing the rest of the buffer is not seen by a transcript. -/
theorem buffered_zeroFrom {transcript : Blake2sBufferingTranscript}
    (inside : transcript.InBuffer) :
    (⟨transcript.state.zeroFrom transcript.bufferOffset, transcript.bufferOffset⟩ :
      Blake2sBufferingTranscript).buffered = transcript.buffered := by
  apply Buffered.ext_pending
  · rw [buffered_state, buffered_state, Blake2sState.zeroFrom]
  · rw [buffered_pending, buffered_pending]
    exact wordsBefore_zeroFrom transcript.state inside

variable {progress : CommitProgress}

/-- The buffering transcript that a round leaves, before it looks whether there is more. -/
def CommitProgress.cleared (progress : CommitProgress) : Blake2sBufferingTranscript where
  state := (progress.transcript.copyRound progress.input).state.zeroFrom
    (progress.transcript.copyRound progress.input).bufferOffset
  bufferOffset := (progress.transcript.copyRound progress.input).bufferOffset

def CommitProgress.remaining (progress : CommitProgress) : List U32 :=
  progress.input.drop (progress.transcript.absorbThisRound progress.input)

theorem commitRound_eq (progress : CommitProgress) :
    commitRound progress =
      if 0 < progress.remaining.length then
        { hasher := progress.cleared.runAbsorb.state
          input := progress.remaining
          bufferOffset := 0 }
      else
        { hasher := progress.cleared.state
          input := progress.remaining
          bufferOffset := progress.cleared.bufferOffset } := rfl

theorem length_remaining (inside : progress.transcript.InBuffer) :
    progress.remaining.length = progress.bufferOffset + progress.input.length - 16 := by
  have offset : progress.bufferOffset ≤ 16 := inside
  rw [CommitProgress.remaining, List.length_drop, absorbThisRound, blockSizeU32Words]
  change _ - min _ (16 - progress.bufferOffset) = _
  omega

theorem bufferOffset_cleared (inside : progress.transcript.InBuffer) :
    progress.cleared.bufferOffset = min 16 (progress.bufferOffset + progress.input.length) := by
  have offset : progress.bufferOffset ≤ 16 := inside
  change progress.bufferOffset + progress.transcript.absorbThisRound progress.input = _
  rw [absorbThisRound, blockSizeU32Words]
  change _ + min _ (16 - progress.bufferOffset) = _
  omega

theorem inBuffer_cleared (inside : progress.transcript.InBuffer) :
    progress.cleared.InBuffer := by
  rw [InBuffer, bufferOffset_cleared inside]
  exact Nat.min_le_left _ _

theorem buffered_cleared (inside : progress.transcript.InBuffer) :
    progress.cleared.buffered = progress.transcript.buffered.absorb blockStep
      (progress.input.take (progress.transcript.absorbThisRound progress.input)) := by
  rw [← inside.buffered_copyRound]
  exact buffered_zeroFrom (inside.copyRound progress.input)

theorem isPadded_cleared (inside : progress.transcript.InBuffer) :
    IsPadded progress.cleared.state progress.cleared.bufferOffset := by
  have fits := inBuffer_cleared inside
  rw [InBuffer, CommitProgress.cleared] at fits
  rw [CommitProgress.cleared]
  exact isPadded_zeroFrom _ fits

/-- A round whose words fit keeps them for the last round. -/
theorem commitRound_of_fits (inside : progress.transcript.InBuffer)
    (fits : progress.bufferOffset + progress.input.length ≤ 16) :
    Committed (commitRound progress).hasher (commitRound progress).bufferOffset
      (progress.transcript.buffered.absorb blockStep progress.input) := by
  have length := length_remaining inside
  have nothing : progress.remaining = [] := List.eq_nil_of_length_eq_zero (by omega)
  have all := List.take_append_drop (progress.transcript.absorbThisRound progress.input)
    progress.input
  rw [← CommitProgress.remaining, nothing, List.append_nil] at all
  have words := buffered_cleared inside
  rw [all] at words
  have kept : ¬ 0 < progress.remaining.length := by omega
  rw [commitRound_eq, if_neg kept]
  exact
    { inBuffer := inBuffer_cleared inside
      buffered_eq := words
      padded := isPadded_cleared inside }

/-- A round that leaves words sends a full block away. -/
theorem commitRound_of_more (inside : progress.transcript.InBuffer)
    (more : 16 < progress.bufferOffset + progress.input.length) :
    (commitRound progress).bufferOffset = 0 ∧
      (commitRound progress).input = progress.remaining ∧
      (commitRound progress).transcript.buffered.absorb blockStep (commitRound progress).input =
        progress.transcript.buffered.absorb blockStep progress.input := by
  have length := length_remaining inside
  have some : 0 < progress.remaining.length := by omega
  have full : progress.cleared.bufferOffset = 16 := by
    rw [bufferOffset_cleared inside]
    omega
  have pending : progress.cleared.buffered.pending.length = 16 := by
    rw [(inBuffer_cleared inside).length_pending, full]
  have sent : progress.cleared.runAbsorb.buffered.absorb blockStep progress.remaining =
      progress.transcript.buffered.absorb blockStep progress.input := by
    rw [buffered_runAbsorb full,
      ← Buffered.absorb_of_full_eq pending (List.ne_nil_of_length_pos some),
      buffered_cleared inside, ← Buffered.absorb_append, CommitProgress.remaining,
      List.take_append_drop]
  rw [commitRound_eq, if_pos some]
  exact ⟨rfl, rfl, sent⟩

/-- All rounds of `commit_inner`.  The induction is on the number of rounds, which the first
offset and the number of words determine. -/
theorem commitRounds (rounds : Nat) (inside : progress.transcript.InBuffer)
    (count : rounds + 1 = (progress.bufferOffset + progress.input.length + 15) / 16) :
    Committed (commitRound^[rounds + 1] progress).hasher
      (commitRound^[rounds + 1] progress).bufferOffset
      (progress.transcript.buffered.absorb blockStep progress.input) := by
  induction rounds generalizing progress with
  | zero =>
      rw [Function.iterate_one]
      exact commitRound_of_fits inside (by omega)
  | succ rounds inductionHypothesis =>
      have offset : progress.bufferOffset ≤ 16 := inside
      obtain ⟨start, rest, words⟩ := commitRound_of_more inside (by omega)
      rw [Function.iterate_succ_apply, ← words]
      apply inductionHypothesis
      · change (commitRound progress).bufferOffset ≤ 16
        rw [start]
        exact Nat.zero_le 16
      · rw [start, rest, length_remaining inside]
        omega

/-- `commit_inner` from any offset, unless there is nothing in the block and no word comes: then
the buffer is not cleared. -/
theorem committed_commitInner {hasher : Blake2sState} {input : List U32} {offset : Nat}
    (inside : offset ≤ 16) (something : 0 < offset + input.length) :
    Committed (commitInner hasher input offset).1 (commitInner hasher input offset).2
      ((⟨hasher, offset⟩ : Blake2sBufferingTranscript).buffered.absorb blockStep input) := by
  have rounds : (if 0 < (offset + input.length) % blockSizeU32Words then
      (offset + input.length) / blockSizeU32Words + 1
      else (offset + input.length) / blockSizeU32Words) =
        ((offset + input.length + 15) / 16 - 1) + 1 := by
    rw [blockSizeU32Words]
    split <;> omega
  have run := @commitRounds { hasher := hasher, input := input, bufferOffset := offset }
    ((offset + input.length + 15) / 16 - 1) inside (by
      change _ = (offset + input.length + 15) / 16
      omega)
  rw [commitInner, rounds]
  exact run

/-! ### Commitments are hashes -/

theorem Committed.eq_blake2s {hasher : Blake2sState} {offset : Nat} {words : List U32}
    (committed : Committed hasher offset (new.buffered.absorb blockStep words)) :
    (flush hasher offset).readStateForOutput = blake2s words := by
  rw [committed.flush_eq]
  exact bufferedDigest_absorb configuredIv 0 words

/-- A hasher that starts over is a new buffer, whatever it was used for. -/
theorem buffered_reset (hasher : Blake2sState) :
    (⟨hasher.reset, 0⟩ : Blake2sBufferingTranscript).buffered = new.buffered := by
  apply Buffered.ext_pending
  · rw [buffered_state, buffered_state, Blake2sState.reset, new, Blake2sState.new]
  · rw [buffered_pending, buffered_pending, Blake2sState.wordsBefore, Blake2sState.wordsBefore,
      new, List.take_zero, List.take_zero]

theorem commitInitialUsingHasher_eq (hasher : Blake2sState) {input : List U32}
    (nonempty : input ≠ []) : (commitInitialUsingHasher hasher input).1 = blake2s input := by
  have positive : 0 < 0 + input.length := by
    rw [Nat.zero_add]
    exact List.length_pos_of_ne_nil nonempty
  have committed := @committed_commitInner hasher.reset input 0 (Nat.zero_le 16) positive
  rw [buffered_reset] at committed
  exact committed.eq_blake2s

theorem commitInitial_eq (input : List U32) : commitInitial input = blake2s input := by
  by_cases nothing : input = []
  · -- no round is run, but the buffer of a new hasher is clean
    have clean : IsPadded Blake2sState.new 0 := by
      rw [IsPadded]
      decide
    have committed : Committed Blake2sState.new 0 (new.buffered.absorb blockStep []) :=
      ⟨Nat.zero_le 16, rfl, clean⟩
    have untouched : commitInner Blake2sState.new [] 0 = (Blake2sState.new, 0) := rfl
    rw [nothing, commitInitial, untouched]
    exact committed.eq_blake2s
  · have same : commitInitial input = (commitInitialUsingHasher Blake2sState.new input).1 := rfl
    rw [same, commitInitialUsingHasher_eq _ nothing]

theorem commitWithSeedUsingHasher_eq (hasher : Blake2sState) (seed : Seed) (input : List U32) :
    (commitWithSeedUsingHasher hasher seed input).1 = blake2s (seed.toList ++ input) := by
  have length : seed.toList.length = 8 := Vector.length_toList
  have first := @committed_commitInner hasher.reset seed.toList 0 (Nat.zero_le 16) (by omega)
  rw [buffered_reset] at first
  have inside := first.inBuffer
  have offset := inside.length_pending
  have filled := @Buffered.length_pending_absorb_pos _ _ _ _ blockStep new.buffered seed.toList
    (Or.inr (List.ne_nil_of_length_pos (by omega)))
  rw [first.buffered_eq] at offset
  rw [offset] at filled
  have second := @committed_commitInner (commitInner hasher.reset seed.toList 0).1 input
    (commitInner hasher.reset seed.toList 0).2 inside (Nat.add_pos_left filled _)
  rw [first.buffered_eq, ← Buffered.absorb_append] at second
  exact second.eq_blake2s

theorem commitWithSeed_eq (seed : Seed) (input : List U32) :
    commitWithSeed seed input = blake2s (seed.toList ++ input) :=
  commitWithSeedUsingHasher_eq Blake2sState.new seed input

/-- What is hashed is the concatenation of the pieces, by whatever path and with whatever hasher.
`commit_inner` asserts that its input is not empty: only there a stale buffer could be seen. -/
theorem hashing_independent_of_chunks :
    (∀ (transcript : Blake2sBufferingTranscript) (calls : List Call), transcript.IsFresh →
      (calls.foldl call transcript).finalize = blake2s (concatenation calls) ∧
        (calls.foldl call transcript).finalizeReset.1 = blake2s (concatenation calls) ∧
        (calls.foldl call transcript).finalize = commitInitial (concatenation calls)) ∧
    (∀ (seed : Seed) (input : List U32),
      commitWithSeed seed input = commitInitial (seed.toList ++ input)) ∧
    (∀ (hasher : Blake2sState) (input : List U32), input ≠ [] →
      (commitInitialUsingHasher hasher input).1 = commitInitial input) ∧
    (∀ (hasher : Blake2sState) (seed : Seed) (input : List U32),
      (commitWithSeedUsingHasher hasher seed input).1 = commitWithSeed seed input) := by
  refine ⟨?_, ?_, ?_, ?_⟩
  · intro transcript calls fresh
    have holds := fresh.holds_calls calls
    have digest : (calls.foldl call transcript).finalize = blake2s (concatenation calls) := by
      rw [holds.finalize_eq, digest_eq_blake2s]
    refine ⟨digest, ?_, ?_⟩
    · rw [finalizeReset_fst, digest]
    · rw [digest, commitInitial_eq]
  · intro seed input
    rw [commitWithSeed_eq, commitInitial_eq]
  · intro hasher input nonempty
    rw [commitInitialUsingHasher_eq hasher nonempty, commitInitial_eq]
  · intro hasher seed input
    rw [commitWithSeedUsingHasher_eq, commitWithSeed_eq]

/-- A padded block and one more word, and a hasher with a stale buffer. -/
theorem hashing_independent_of_chunks_padded :
    ([.absorb [1], .pad, .absorb [], .absorb [2]].foldl call new).finalize =
        blake2s (1 :: List.replicate 15 0 ++ [2]) ∧
      (commitInitialUsingHasher (Blake2sState.new.copyIn 0 [5, 6, 7]) [1]).1 =
        commitInitial [1] := by
  have words : concatenation [.absorb [1], .pad, .absorb [], .absorb [2]] =
      1 :: List.replicate 15 0 ++ [2] := by decide
  have pieces := hashing_independent_of_chunks.1 new
    [.absorb [1], .pad, .absorb [], .absorb [2]] (Or.inl rfl)
  rw [words] at pieces
  exact ⟨pieces.1,
    hashing_independent_of_chunks.2.2.1 (Blake2sState.new.copyIn 0 [5, 6, 7]) [1] (by decide)⟩

end Blake2sTranscript

end Airbender
