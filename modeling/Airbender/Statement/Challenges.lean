import Airbender.Field.Quartic
import Airbender.Transcript.Transcript

/-!
# External challenges

The challenges that all proofs of a statement share, drawn from one transcript seed, and the
contributions of the registers and of the machine state to the grand product.
-/

namespace Airbender

open Circuit (F)

/-! ## The challenges -/

def numMemArgumentLinearizationChallenges : Nat := 6

def numDelegationArgumentLinearizationChallenges : Nat := 3

def numMachineStateLinearizationChallenges : Nat := 3

structure ExternalMemoryArgumentChallenges where
  memoryArgumentLinearizationChallenges :
    Vector Mersenne31Quartic numMemArgumentLinearizationChallenges
  memoryArgumentGamma : Mersenne31Quartic
deriving DecidableEq

structure ExternalDelegationArgumentChallenges where
  delegationArgumentLinearizationChallenges :
    Vector Mersenne31Quartic numDelegationArgumentLinearizationChallenges
  delegationArgumentGamma : Mersenne31Quartic
deriving DecidableEq

structure ExternalMachineStateArgumentChallenges where
  linearizationChallenges : Vector Mersenne31Quartic numMachineStateLinearizationChallenges
  additiveTerm : Mersenne31Quartic
deriving DecidableEq

structure ExternalChallenges where
  memoryArgument : ExternalMemoryArgumentChallenges
  delegationArgument : Option ExternalDelegationArgumentChallenges
  machineStatePermutationArgument : Option ExternalMachineStateArgumentChallenges
deriving DecidableEq

/-! ## Drawing them -/

/-- Four words at a time make one element of the quartic field. -/
def quarticsOfWords : List U32 → List Mersenne31Quartic
  | w0 :: w1 :: w2 :: w3 :: rest =>
      Mersenne31Quartic.fromCoeffsInBase
        #v[Mersenne31Field.fromNonreducedU32 w0, Mersenne31Field.fromNonreducedU32 w1,
          Mersenne31Field.fromNonreducedU32 w2, Mersenne31Field.fromNonreducedU32 w3] ::
        quarticsOfWords rest
  | _ => []

namespace ExternalChallenges

/-- The size of the array for a number of elements: one word more under proof of work, then
padded to whole digests. -/
def transcriptChallengesSize (elements powBits : Nat) : Nat :=
  (elements * 4 + (if 0 < powBits then 1 else 0) + 7) / 8 * 8

/-- The elements drawn from a seed; under proof of work the first word is skipped. -/
def drawElements (seed : Seed) (elements powBits : Nat) : List Mersenne31Quartic :=
  let words :=
    Blake2sTranscript.drawRandomness seed (transcriptChallengesSize elements powBits)
  quarticsOfWords (if 0 < powBits then words.drop 1 else words)

/-- `count` calls of the iterator, after `start` of them. -/
def nextElements (drawn : List Mersenne31Quartic) (start count : Nat) :
    Vector Mersenne31Quartic count :=
  Vector.ofFn fun i => drawn[start + i.val]?.getD 0

def nextElement (drawn : List Mersenne31Quartic) (start : Nat) : Mersenne31Quartic :=
  drawn[start]?.getD 0

def memoryElements : Nat := numMemArgumentLinearizationChallenges + 1

def delegationElements : Nat := numDelegationArgumentLinearizationChallenges + 1

def machineStateElements : Nat := numMachineStateLinearizationChallenges + 1

def memoryOf (drawn : List Mersenne31Quartic) : ExternalMemoryArgumentChallenges where
  memoryArgumentLinearizationChallenges :=
    nextElements drawn 0 numMemArgumentLinearizationChallenges
  memoryArgumentGamma := nextElement drawn numMemArgumentLinearizationChallenges

def delegationOf (drawn : List Mersenne31Quartic) : ExternalDelegationArgumentChallenges where
  delegationArgumentLinearizationChallenges :=
    nextElements drawn memoryElements numDelegationArgumentLinearizationChallenges
  delegationArgumentGamma :=
    nextElement drawn (memoryElements + numDelegationArgumentLinearizationChallenges)

def machineStateOf (drawn : List Mersenne31Quartic) :
    ExternalMachineStateArgumentChallenges where
  linearizationChallenges :=
    nextElements drawn (memoryElements + delegationElements)
      numMachineStateLinearizationChallenges
  additiveTerm :=
    nextElement drawn
      (memoryElements + delegationElements + numMachineStateLinearizationChallenges)

/-- The seed that the challenges are drawn from: the proof of work replaces it. -/
def seedAfterPow (seed : Seed) (powBits : Nat) (powChallenge : U64) : Option Seed :=
  if 0 < powBits then Blake2sTranscript.verifyPow seed powChallenge powBits else some seed

def drawFromTranscriptSeed (seed : Seed) (produceDelegationChallenge : Bool) (powBits : Nat)
    (powChallenge : U64) : Option ExternalChallenges := do
  let seed ← seedAfterPow seed powBits powChallenge
  if produceDelegationChallenge then
    let drawn := drawElements seed (memoryElements + delegationElements) powBits
    some ⟨memoryOf drawn, some (delegationOf drawn), none⟩
  else
    let drawn := drawElements seed memoryElements powBits
    some ⟨memoryOf drawn, none, none⟩

def drawFromTranscriptSeedWithStatePermutation (seed : Seed) (powBits : Nat)
    (powChallenge : U64) : Option ExternalChallenges := do
  let seed ← seedAfterPow seed powBits powChallenge
  let drawn :=
    drawElements seed (memoryElements + delegationElements + machineStateElements) powBits
  some ⟨memoryOf drawn, some (delegationOf drawn), some (machineStateOf drawn)⟩

end ExternalChallenges

/-! ## Both draws start with the same elements -/

theorem length_quarticsOfWords (words : List U32) :
    (quarticsOfWords words).length = words.length / 4 := by
  induction words using quarticsOfWords.induct with
  | case1 w0 w1 w2 w3 rest inductionHypothesis =>
      rw [quarticsOfWords, List.length_cons, inductionHypothesis]
      simp only [List.length_cons]
      omega
  | case2 words short =>
      rw [quarticsOfWords.eq_2 words short, List.length_nil]
      have few : words.length < 4 := by
        rcases words with _ | ⟨w0, _ | ⟨w1, _ | ⟨w2, _ | ⟨w3, rest⟩⟩⟩⟩
        · simp
        · simp
        · simp
        · simp
        · exact (short w0 w1 w2 w3 rest rfl).elim
      exact (Nat.div_eq_of_lt few).symm

theorem quarticsOfWords_prefix {few many : List U32} (shorter : few <+: many) :
    quarticsOfWords few <+: quarticsOfWords many := by
  induction few using quarticsOfWords.induct generalizing many with
  | case1 w0 w1 w2 w3 rest inductionHypothesis =>
      obtain ⟨suffix, rfl⟩ := shorter
      simp only [List.cons_append, quarticsOfWords]
      exact (List.prefix_cons_inj _).mpr (inductionHypothesis (List.prefix_append rest suffix))
  | case2 words short =>
      rw [quarticsOfWords.eq_2 words short]
      exact List.nil_prefix

namespace ExternalChallenges

theorem transcriptChallengesSize_mono {few many : Nat} (le : few ≤ many) (powBits : Nat) :
    transcriptChallengesSize few powBits ≤ transcriptChallengesSize many powBits := by
  rw [transcriptChallengesSize, transcriptChallengesSize]
  split <;> omega

theorem drawElements_prefix {few many : Nat} (le : few ≤ many) (seed : Seed) (powBits : Nat) :
    drawElements seed few powBits <+: drawElements seed many powBits := by
  have words := Blake2sTranscript.drawRandomness_prefix
    (transcriptChallengesSize_mono le powBits) seed
  rw [drawElements, drawElements]
  apply quarticsOfWords_prefix
  split
  · exact words.drop 1
  · exact words

theorem length_drawElements (seed : Seed) {elements : Nat} (positive : 0 < elements)
    (powBits : Nat) : elements ≤ (drawElements seed elements powBits).length := by
  have enough : 8 ≤ transcriptChallengesSize elements powBits := by
    rw [transcriptChallengesSize]
    split <;> omega
  have length := Blake2sTranscript.length_drawRandomness seed enough
  rw [drawElements, length_quarticsOfWords]
  split
  · rename_i pow
    rw [List.length_drop, length, transcriptChallengesSize, if_pos pow]
    omega
  · rename_i noPow
    rw [length, transcriptChallengesSize, if_neg noPow]
    omega

theorem nextElement_of_prefix {few many : List Mersenne31Quartic} (shorter : few <+: many)
    {start : Nat} (inside : start < few.length) :
    nextElement few start = nextElement many start := by
  obtain ⟨suffix, rfl⟩ := shorter
  rw [nextElement, nextElement, List.getElem?_append_left inside]

theorem nextElements_of_prefix {few many : List Mersenne31Quartic} (shorter : few <+: many)
    {start count : Nat} (inside : start + count ≤ few.length) :
    nextElements few start count = nextElements many start count := by
  apply Vector.ext
  intro i bound
  rw [nextElements, nextElements]
  simp only [Vector.getElem_ofFn]
  exact nextElement_of_prefix shorter (by omega)

theorem memoryOf_of_prefix {few many : List Mersenne31Quartic} (shorter : few <+: many)
    (enough : memoryElements ≤ few.length) : memoryOf few = memoryOf many := by
  rw [memoryElements] at enough
  rw [memoryOf, memoryOf, nextElement_of_prefix shorter (by omega),
    nextElements_of_prefix shorter (by omega)]

theorem delegationOf_of_prefix {few many : List Mersenne31Quartic} (shorter : few <+: many)
    (enough : memoryElements + delegationElements ≤ few.length) :
    delegationOf few = delegationOf many := by
  rw [delegationElements] at enough
  rw [delegationOf, delegationOf, nextElement_of_prefix shorter (by omega),
    nextElements_of_prefix shorter (by omega)]

/-- The draw without the machine-state challenges is the draw with them, less these. -/
theorem drawFromTranscriptSeed_eq (seed : Seed) (powBits : Nat) (powChallenge : U64) :
    drawFromTranscriptSeed seed true powBits powChallenge =
      (drawFromTranscriptSeedWithStatePermutation seed powBits powChallenge).map
        fun challenges => { challenges with machineStatePermutationArgument := none } := by
  rw [drawFromTranscriptSeed, drawFromTranscriptSeedWithStatePermutation]
  cases seedAfterPow seed powBits powChallenge with
  | none => rfl
  | some seed =>
      have shorter : drawElements seed (memoryElements + delegationElements) powBits <+:
          drawElements seed (memoryElements + delegationElements + machineStateElements)
            powBits := drawElements_prefix (Nat.le_add_right _ _) seed powBits
      have enough := @length_drawElements seed (memoryElements + delegationElements)
        (by decide) powBits
      have memory := memoryOf_of_prefix shorter ((Nat.le_add_right _ _).trans enough)
      have delegation := delegationOf_of_prefix shorter enough
      simp only [Option.bind_eq_bind, Option.bind_some, Option.map_some, if_true]
      rw [memory, delegation]

end ExternalChallenges

/-! ## Contributions to the grand product -/

/-- `split_u32_into_pair_u16`. -/
def splitU32IntoPairU16 (num : U32) : U32 × U32 := (num &&& 0x0000ffff, num >>> 16)

/-- A word taken as a field element. -/
def wordElement (word : U32) : F := word.toNat

/-- Final value of a register and the two parts of its last access timestamp. -/
structure RegisterFinalData where
  value : U32
  timestampLow : U32
  timestampHigh : U32
deriving DecidableEq

section Contributions

variable (challenges : ExternalMemoryArgumentChallenges)

/-- The tuple that starts register `regIdx`: value 0 at timestamp 0. -/
def registerWriteContribution (regIdx : Nat) : Mersenne31Quartic :=
  let linearization := challenges.memoryArgumentLinearizationChallenges
  (1 : Mersenne31Quartic) + linearization[0].mulByBase regIdx + challenges.memoryArgumentGamma

/-- The tuple that ends register `regIdx`. -/
def registerReadContribution (regIdx : Nat) (data : RegisterFinalData) : Mersenne31Quartic :=
  let linearization := challenges.memoryArgumentLinearizationChallenges
  let (valueLow, valueHigh) := splitU32IntoPairU16 data.value
  (1 : Mersenne31Quartic) + linearization[0].mulByBase regIdx +
    linearization[2].mulByBase (wordElement data.timestampLow) +
    linearization[3].mulByBase (wordElement data.timestampHigh) +
    linearization[4].mulByBase (wordElement valueLow) +
    linearization[5].mulByBase (wordElement valueHigh) + challenges.memoryArgumentGamma

def produceRegisterContributionIntoMemoryAccumulatorRaw
    (registerFinalData : Vector RegisterFinalData 32) : Option Mersenne31Quartic := do
  let writeSet := (List.finRange 32).foldl
    (fun product regIdx => product * registerWriteContribution challenges regIdx.val) 1
  let readSet := (List.finRange 32).foldl
    (fun product regIdx =>
      product * registerReadContribution challenges regIdx.val registerFinalData[regIdx]) 1
  let inversed ← readSet.inverse
  some (writeSet * inversed)

end Contributions

/-- A machine state in the permutation argument. -/
def machineStateContribution (challenges : ExternalMachineStateArgumentChallenges) (pc : U32)
    (timestamp : U32 × U32) : Mersenne31Quartic :=
  let (pcLow, pcHigh) := splitU32IntoPairU16 pc
  Mersenne31Quartic.fromBase (wordElement pcLow) +
    challenges.linearizationChallenges[0].mulByBase (wordElement pcHigh) +
    challenges.linearizationChallenges[1].mulByBase (wordElement timestamp.1) +
    challenges.linearizationChallenges[2].mulByBase (wordElement timestamp.2) +
    challenges.additiveTerm

def producePcIntoPermutationAccumulatorRaw (initialPc : U32) (initialTimestamp : U32 × U32)
    (finalPc : U32) (finalTimestamp : U32 × U32)
    (challenges : ExternalMachineStateArgumentChallenges) : Option Mersenne31Quartic := do
  let inversed ← (machineStateContribution challenges finalPc finalTimestamp).inverse
  some (machineStateContribution challenges initialPc initialTimestamp * inversed)

end Airbender
