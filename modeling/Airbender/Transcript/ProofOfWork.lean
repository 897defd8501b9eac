import Airbender.Fft.Worker
import Airbender.Transcript.Commit
import Airbender.Transcript.Evaluation
import Mathlib.Logic.Relation

/-!
# Proof of work

`verify_pow` hashes a seed and a nonce and looks at the first word.  `search_pow` compresses by
hand, one nonce after another or on several workers that share one atomic cell.
-/

namespace Airbender

open Blake2s

/-- At least `count` leading zero bits. -/
def HasLeadingZeros (word : U32) (count : Nat) : Prop :=
  ∀ i < count, word.getMsbD i = false

instance (word : U32) (count : Nat) : Decidable (HasLeadingZeros word count) :=
  inferInstanceAs (Decidable (∀ i < count, word.getMsbD i = false))

theorem hasLeadingZeros_iff {word : U32} {count : Nat} (le : count ≤ 32) :
    HasLeadingZeros word count ↔ word.toNat < 2 ^ (32 - count) := by
  constructor
  · intro zeros
    apply Nat.lt_pow_two_of_testBit
    intro i high
    rcases Nat.lt_or_ge i 32 with inside | outside
    · have zero := zeros (31 - i) (by omega)
      rw [BitVec.getMsbD_eq_getLsbD, decide_eq_true (by omega), Bool.true_and] at zero
      have same : 32 - 1 - (31 - i) = i := by omega
      rwa [same] at zero
    · exact Nat.testBit_lt_two_pow (Nat.lt_of_lt_of_le word.isLt
        (Nat.pow_le_pow_right (Nat.zero_lt_two) outside))
  · intro small i high
    rw [BitVec.getMsbD_eq_getLsbD, decide_eq_true (by omega), Bool.true_and]
    exact Nat.testBit_lt_two_pow (Nat.lt_of_lt_of_le small
      (Nat.pow_le_pow_right (Nat.zero_lt_two) (by omega)))

namespace Blake2sTranscript

/-- The bound of a release build is the mask of leading zeros, but for a shift by the width. -/
theorem le_powBound_iff {word : U32} {powBits : Nat} (lt : powBits < 32) :
    word ≤ powBound powBits ↔ HasLeadingZeros word powBits := by
  have mask : ∀ bits < 32, (0xffffffff : U32).toNat >>> bits + 1 = 2 ^ (32 - bits) := by decide
  have bound := mask powBits lt
  rw [hasLeadingZeros_iff (Nat.le_of_lt lt), BitVec.le_def, powBound, BitVec.toNat_ushiftRight,
    Nat.mod_eq_of_lt lt, ← bound]
  exact Nat.lt_succ_iff.symm

/-! ## What is verified -/

/-- The digest of a seed and the two words of a nonce. -/
def powDigest (seed : Seed) (nonce : U64) : Seed :=
  blake2s (seed.toList ++ [nonce.setWidth 32, (nonce >>> 32).setWidth 32])

/-- The only block of a proof of work. -/
def powBlock (seed : Seed) (nonce : U64) : Vector U32 16 :=
  Blake2sState.blockOfWords (seed.toList ++ [nonce.setWidth 32, (nonce >>> 32).setWidth 32])

theorem powDigest_eq (seed : Seed) (nonce : U64) :
    powDigest seed nonce =
      Blake2sState.compress useReducedBlake2Rounds configuredIv 40 true
        (powBlock seed nonce) := by
  have length : (seed.toList ++ [nonce.setWidth 32, (nonce >>> 32).setWidth 32]).length = 10 := by
    rw [List.length_append, Vector.length_toList]
    rfl
  have fits : (10 : Nat) ≤ blockSizeU32Words := by decide
  rw [powDigest, blake2s, blake2sFrom, length, if_pos fits, powBlock]
  rfl

/-- `verify_pow` compares the first word of the digest, whatever the hasher held. -/
theorem verifyPowUsingHasher_eq (hasher : Blake2sState) (seed : Seed) (nonce : U64)
    {powBits : Nat} (le : powBits ≤ 32) :
    (verifyPowUsingHasher hasher seed nonce powBits).map Prod.fst =
      if (powDigest seed nonce).get 0 ≤ powBound powBits then some (powDigest seed nonce)
      else none := by
  let words := seed.toList ++ [nonce.setWidth 32, (nonce >>> 32).setWidth 32]
  let filled := (hasher.reset.copyIn 0 words).zeroFrom 10
  have length : words.length = 10 := by
    rw [List.length_append, Vector.length_toList]
    rfl
  have copied := @Blake2sState.wordsBefore_copyIn hasher.reset 0 words (by omega)
  rw [length] at copied
  have block : filled.inputBuffer = powBlock seed nonce := by
    rw [Blake2sState.inputBuffer_zeroFrom, copied]
    rfl
  have state : (filled.runRoundFunction useReducedBlake2Rounds 10 true).state =
      powDigest seed nonce := by
    rw [powDigest_eq, ← block, Blake2sState.runRoundFunction]
    rfl
  rw [verifyPowUsingHasher, Fft.guard_of le]
  change (Option.bind (guard ((filled.runRoundFunction useReducedBlake2Rounds 10 true).state.get 0 ≤
    powBound powBits)) fun _ => some
      ((filled.runRoundFunction useReducedBlake2Rounds 10 true).state, _)).map Prod.fst = _
  rw [state]
  by_cases small : (powDigest seed nonce).get 0 ≤ powBound powBits
  · rw [if_pos small, guard, if_pos small]
    rfl
  · rw [if_neg small, guard, if_neg small]
    rfl

theorem verifyPow_eq (seed : Seed) (nonce : U64) {powBits : Nat} (le : powBits ≤ 32) :
    verifyPow seed nonce powBits =
      if (powDigest seed nonce).get 0 ≤ powBound powBits then some (powDigest seed nonce)
      else none :=
  verifyPowUsingHasher_eq Blake2sState.new seed nonce le

/-! ## The compression by hand -/

/-- `BLAKE2S_NO_RESULT`. -/
def blake2sNoResult : U64 := 0xffffffffffffffff

/-- `BLAKE2S_ROUNDS_PER_INVOCAITON`. -/
def blake2sRoundsPerInvocation : Nat := 1 <<< 16

/-- The working state before the only block, for a length of ten words and the final flag. -/
def powInitialState : Vector U32 16 :=
  #v[configuredIv.get 0, configuredIv.get 1, configuredIv.get 2, configuredIv.get 3,
    configuredIv.get 4, configuredIv.get 5, configuredIv.get 6, configuredIv.get 7,
    iv.get 0, iv.get 1, iv.get 2, iv.get 3,
    iv.get 4 ^^^ BitVec.ofNat 32 ((digestSizeU32Words + 2) * 4), iv.get 5,
    iv.get 6 ^^^ 0xffffffff, iv.get 7]

def baseInput (seed : Seed) : Vector U32 16 :=
  Vector.ofFn fun i : Fin 16 => if inside : i.val < 8 then seed[i.val] else 0

/-- The words of a challenge, the low one first. -/
def writeChallenge (input : Vector U32 16) (challenge : U64) : Vector U32 16 :=
  (input.set digestSizeU32Words (challenge.setWidth 32)).set (digestSizeU32Words + 1)
    ((challenge >>> 32).setWidth 32)

/-- The working state after the block of a challenge. -/
def challengeState (seed : Seed) (challenge : U64) : Vector U32 16 :=
  let input := writeChallenge (baseInput seed) challenge
  if useReducedBlake2Rounds then roundFunctionReducedRounds powInitialState input
  else roundFunctionFullRounds powInitialState input

def wordToTest (state : Vector U32 16) : U32 := configuredIv.get 0 ^^^ state.get 0 ^^^ state.get 8

def challengeOutput (state : Vector U32 16) : Seed :=
  Vector.ofFn fun i : Fin 8 => configuredIv.get i ^^^ state.get (i.castAdd 8) ^^^ state.get (i.addNat 8)

theorem powInitialState_eq :
    powInitialState = Blake2sState.extendedState configuredIv 40 true := by
  decide

theorem writeChallenge_baseInput (seed : Seed) (challenge : U64) :
    writeChallenge (baseInput seed) challenge = powBlock seed challenge := by
  apply Vector.ext
  intro i bound
  have length : seed.toList.length = 8 := Vector.length_toList
  have size : digestSizeU32Words = 8 := rfl
  rw [writeChallenge, powBlock, Blake2sState.blockOfWords, Vector.getElem_set,
    Vector.getElem_set, baseInput, Vector.getElem_ofFn, Vector.getElem_ofFn]
  dsimp only
  by_cases inside : i < 8
  · rw [if_neg (by omega), if_neg (by omega), dif_pos inside,
      List.getElem?_append_left (by omega), Vector.getElem?_toList,
      Vector.getElem?_eq_getElem inside]
    rfl
  · rw [List.getElem?_append_right (by omega), length, dif_neg inside]
    by_cases low : i = 8
    · rw [if_neg (by omega), if_pos (by omega), low]
      rfl
    · by_cases high : i = 9
      · rw [if_pos (by omega), high]
        rfl
      · rw [if_neg (by omega), if_neg (by omega), List.getElem?_eq_none (by
          rw [List.length_cons, List.length_singleton]
          omega)]
        rfl

/-- The compression by hand is the hash that is verified. -/
theorem challengeOutput_eq (seed : Seed) (challenge : U64) :
    challengeOutput (challengeState seed challenge) = powDigest seed challenge := by
  rw [powDigest_eq, challengeState, powInitialState_eq, writeChallenge_baseInput]
  rfl

theorem challengeOutput_zero (state : Vector U32 16) :
    (challengeOutput state).get 0 = wordToTest state := by
  rw [challengeOutput]
  exact Vector.getElem_ofFn (show 0 < 8 by decide)

theorem wordToTest_eq (seed : Seed) (challenge : U64) :
    wordToTest (challengeState seed challenge) = (powDigest seed challenge).get 0 := by
  rw [← challengeOutput_eq, challengeOutput_zero]

/-- What `search_pow` looks for. -/
def ChallengePasses (seed : Seed) (powBits : Nat) (challenge : U64) : Prop :=
  wordToTest (challengeState seed challenge) ≤ powBound powBits

instance (seed : Seed) (powBits : Nat) (challenge : U64) :
    Decidable (ChallengePasses seed powBits challenge) :=
  inferInstanceAs (Decidable (_ ≤ _))

/-- What passes is accepted. -/
theorem ChallengePasses.verifyPow_eq {seed : Seed} {powBits : Nat} {challenge : U64}
    (passes : ChallengePasses seed powBits challenge) (le : powBits ≤ 32) :
    verifyPow seed challenge powBits = some (powDigest seed challenge) := by
  rw [ChallengePasses, wordToTest_eq] at passes
  rw [Blake2sTranscript.verifyPow_eq seed challenge le, if_pos passes]

/-! ## The serial search -/

/-- The loop of the serial case, with the number of challenges that are left. -/
def serialSearch (seed : Seed) (powBits : Nat) : Nat → Nat → Option (Seed × U64)
  | 0, _ => none
  | remaining + 1, challenge =>
      let nonce := BitVec.ofNat 64 challenge
      if ChallengePasses seed powBits nonce then
        some (challengeOutput (challengeState seed nonce), nonce)
      else serialSearch seed powBits remaining (challenge + 1)

theorem serialSearch_sound {seed newSeed : Seed} {powBits : Nat} {nonce : U64}
    (le : powBits ≤ 32) {remaining challenge : Nat}
    (found : serialSearch seed powBits remaining challenge = some (newSeed, nonce)) :
    verifyPow seed nonce powBits = some newSeed := by
  induction remaining generalizing challenge with
  | zero => cases found
  | succ remaining inductionHypothesis =>
      rw [serialSearch] at found
      by_cases passes : ChallengePasses seed powBits (BitVec.ofNat 64 challenge)
      · rw [if_pos passes, challengeOutput_eq] at found
        cases found
        exact passes.verifyPow_eq le
      · rw [if_neg passes] at found
        exact inductionHypothesis found

/-! ## The parallel search -/

/-- Where a worker stands: before it looks at the shared cell, before it tries the challenge `j`
of its invocation `i`, before it reports a challenge, or at the end. -/
inductive WorkerAt where
  | load (i : Nat)
  | scan (i j : Nat)
  | exchange (i : Nat) (challenge : U64)
  | done
deriving DecidableEq

/-- The invocations of a worker. -/
def numInvocations (numWorkers : Nat) : Nat :=
  (blake2sNoResult.toNat - 1) / numWorkers / blake2sRoundsPerInvocation

/-- `base + j`. -/
def workerChallenge (numWorkers workerIdx i j : Nat) : U64 :=
  BitVec.ofNat 64 ((workerIdx + i * numWorkers) * blake2sRoundsPerInvocation + j)

/-- One step of one worker, which sees the shared cell and itself.  The load is relaxed: it may
see the cell as it was before a report. -/
inductive WorkerStep (seed : Seed) (powBits numWorkers workerIdx : Nat) :
    U64 × WorkerAt → U64 × WorkerAt → Prop
  | finish {result : U64} {i : Nat} (last : numInvocations numWorkers ≤ i) :
      WorkerStep seed powBits numWorkers workerIdx (result, .load i) (result, .done)
  | seesNoResult {result : U64} {i : Nat} (inside : i < numInvocations numWorkers) :
      WorkerStep seed powBits numWorkers workerIdx (result, .load i) (result, .scan i 0)
  | seesResult {result : U64} {i : Nat} (inside : i < numInvocations numWorkers)
      (reported : result ≠ blake2sNoResult) :
      WorkerStep seed powBits numWorkers workerIdx (result, .load i) (result, .done)
  | fails {result : U64} {i j : Nat} (inside : j < blake2sRoundsPerInvocation)
      (fails : ¬ ChallengePasses seed powBits (workerChallenge numWorkers workerIdx i j)) :
      WorkerStep seed powBits numWorkers workerIdx (result, .scan i j) (result, .scan i (j + 1))
  | passes {result : U64} {i j : Nat} (inside : j < blake2sRoundsPerInvocation)
      (passes : ChallengePasses seed powBits (workerChallenge numWorkers workerIdx i j)) :
      WorkerStep seed powBits numWorkers workerIdx (result, .scan i j)
        (result, .exchange i (workerChallenge numWorkers workerIdx i j))
  | next {result : U64} {i j : Nat} (last : blake2sRoundsPerInvocation ≤ j) :
      WorkerStep seed powBits numWorkers workerIdx (result, .scan i j) (result, .load (i + 1))
  | report {i : Nat} {challenge : U64} :
      WorkerStep seed powBits numWorkers workerIdx (blake2sNoResult, .exchange i challenge)
        (challenge, .load (i + 1))
  | late {result : U64} {i : Nat} {challenge : U64} (reported : result ≠ blake2sNoResult) :
      WorkerStep seed powBits numWorkers workerIdx (result, .exchange i challenge)
        (result, .load (i + 1))

/-- The shared cell and the workers. -/
structure SearchState where
  result : U64
  workers : Nat → WorkerAt

def SearchState.start : SearchState where
  result := blake2sNoResult
  workers := fun _ => .load 0

/-- One of the workers takes a step. -/
inductive SearchStep (seed : Seed) (powBits numWorkers : Nat) :
    SearchState → SearchState → Prop
  | worker {before : SearchState} {workerIdx : Nat} {result : U64} {standsAt : WorkerAt}
      (inside : workerIdx < numWorkers)
      (step : WorkerStep seed powBits numWorkers workerIdx
        (before.result, before.workers workerIdx) (result, standsAt)) :
      SearchStep seed powBits numWorkers before
        { result := result, workers := Function.update before.workers workerIdx standsAt }

def SearchState.Joined (state : SearchState) (numWorkers : Nat) : Prop :=
  ∀ workerIdx < numWorkers, state.workers workerIdx = .done

/-- `search_pow` returns a seed and a nonce after some order of steps of its workers.  The serial
case goes on to the parallel one if no challenge passes. -/
inductive SearchReturns (numCores : Nat) (seed : Seed) (powBits : Nat) : Seed → U64 → Prop
  | serial {newSeed : Seed} {nonce : U64} (le : powBits ≤ 32) (few : powBits ≤ 16)
      (found : serialSearch seed powBits (blake2sNoResult.toNat - 1) 0 = some (newSeed, nonce)) :
      SearchReturns numCores seed powBits newSeed nonce
  | parallel {newSeed : Seed} {final : SearchState} (le : powBits ≤ 32)
      (missed : powBits ≤ 16 → serialSearch seed powBits (blake2sNoResult.toNat - 1) 0 = none)
      (run : Relation.ReflTransGen (SearchStep seed powBits numCores) SearchState.start final)
      (joined : final.Joined numCores)
      (recomputed : verifyPow seed final.result powBits = some newSeed) :
      SearchReturns numCores seed powBits newSeed final.result

theorem SearchReturns.verifies {numCores : Nat} {seed newSeed : Seed} {powBits : Nat}
    {nonce : U64} (returns : SearchReturns numCores seed powBits newSeed nonce) :
    verifyPow seed nonce powBits = some newSeed := by
  cases returns with
  | serial le few found => exact serialSearch_sound le found
  | parallel le missed run joined recomputed => exact recomputed

/-! ## When the check is exact -/

/-- `verify_pow` accepts the nonces whose digest starts with enough zeros, replaces the seed by
the digest, and accepts what `search_pow` returns. -/
structure PowExact (powBits : Nat) : Prop where
  accepts : ∀ (hasher : Blake2sState) (seed : Seed) (nonce : U64),
    (verifyPowUsingHasher hasher seed nonce powBits).isSome ↔
      HasLeadingZeros ((powDigest seed nonce).get 0) powBits
  replaces : ∀ (hasher after : Blake2sState) (seed newSeed : Seed) (nonce : U64),
    verifyPowUsingHasher hasher seed nonce powBits = some (newSeed, after) →
      newSeed = powDigest seed nonce
  searches : ∀ (numCores : Nat) (seed newSeed : Seed) (nonce : U64),
    SearchReturns numCores seed powBits newSeed nonce →
      verifyPow seed nonce powBits = some newSeed

theorem powExact_of_lt {powBits : Nat} (lt : powBits < 32) : PowExact powBits where
  accepts := by
    intro hasher seed nonce
    have spec := verifyPowUsingHasher_eq hasher seed nonce (Nat.le_of_lt lt)
    rw [← le_powBound_iff lt, ← Option.isSome_map, spec]
    by_cases small : (powDigest seed nonce).get 0 ≤ powBound powBits
    · simp only [small, if_true, Option.isSome_some]
    · simp only [small, if_false, Option.isSome_none, Bool.false_eq_true]
  replaces := by
    intro hasher after seed newSeed nonce verified
    have spec := verifyPowUsingHasher_eq hasher seed nonce (Nat.le_of_lt lt)
    rw [verified, Option.map_some] at spec
    split at spec
    · exact Option.some.inj spec
    · cases spec
  searches := by
    intro numCores seed newSeed nonce returns
    exact returns.verifies

/-- The digest of ten zero words. -/
theorem powDigest_zero :
    powDigest (Vector.replicate 8 0) 0 = wordsOfNat 8 (compressNat configuredIvNat 40 true []) := by
  have block : powBlock (Vector.replicate 8 0) 0 = wordsOfNat 16 [] := by decide
  have counter : (40 : U32) = BitVec.ofNat 32 40 := rfl
  rw [powDigest_eq, block, counter, ← wordsOfNat_configuredIvNat]
  exact compress_words configuredIvNat 40 true []

theorem powDigest_zero_not_small :
    ¬ HasLeadingZeros ((powDigest (Vector.replicate 8 0) 0).get 0) 32 := by
  rw [powDigest_zero]
  decide +kernel

/-- A shift by the width masks nothing, so every nonce is accepted. -/
theorem accepts_of_width (hasher : Blake2sState) (seed : Seed) (nonce : U64) :
    (verifyPowUsingHasher hasher seed nonce 32).isSome := by
  have every : (powDigest seed nonce).get 0 ≤ powBound 32 := by
    rw [BitVec.le_def]
    exact Nat.le_of_lt_succ ((powDigest seed nonce).get 0).isLt
  have spec := verifyPowUsingHasher_eq hasher seed nonce (Nat.le_refl 32)
  rw [if_pos every] at spec
  rw [← @Option.isSome_map _ _ Prod.fst, spec]
  exact Option.isSome_some

/-- The check is exact but at the largest amount that the assertion admits. -/
theorem powExact_iff {powBits : Nat} (le : powBits ≤ 32) : PowExact powBits ↔ powBits < 32 := by
  constructor
  · intro exact'
    rcases Nat.lt_or_eq_of_le le with lt | width
    · exact lt
    · rw [width] at exact'
      have accepted := accepts_of_width Blake2sState.new (Vector.replicate 8 0) 0
      exact absurd ((exact'.accepts _ _ _).mp accepted) powDigest_zero_not_small
  · exact powExact_of_lt

theorem powExact_iff_twentyFour : PowExact 24 :=
  (powExact_iff (by decide : 24 ≤ 32)).mpr (by decide)

/-- A nonce without leading zeros is accepted where 32 of them are asked for. -/
theorem verifyPow_accepts_without_work :
    (verifyPowUsingHasher Blake2sState.new (Vector.replicate 8 0) 0 32).isSome ∧
      ¬ HasLeadingZeros ((powDigest (Vector.replicate 8 0) 0).get 0) 32 ∧ ¬ PowExact 32 := by
  have accepted := accepts_of_width Blake2sState.new (Vector.replicate 8 0) 0
  refine ⟨accepted, powDigest_zero_not_small, ?_⟩
  intro exact'
  exact powDigest_zero_not_small ((exact'.accepts _ _ _).mp accepted)

end Blake2sTranscript

end Airbender
