import Airbender.Statement.ProofOutput

/-!
# Parts that the statement verifiers share

Both statements read the final registers and the final machine state, drag a transcript along
while they verify proofs into two buffers, and end with the same chain of program hashes.
-/

namespace Airbender.Statement

open StreamReader

/-! ## Registers and the final machine state -/

/-- Three words for each register: value and the two parts of its timestamp. -/
def registersOfWords (words : List U32) : Vector RegisterFinalData 32 :=
  Vector.ofFn fun i : Fin 32 =>
    { value := words[i.val * 3]?.getD 0
      timestampLow := words[i.val * 3 + 1]?.getD 0
      timestampHigh := words[i.val * 3 + 2]?.getD 0 }

/-- `registers_buffer`. -/
def registerWords (registers : Vector RegisterFinalData 32) : List U32 :=
  registers.toList.flatMap fun data => [data.value, data.timestampLow, data.timestampHigh]

theorem length_registerWords (registers : Vector RegisterFinalData 32) :
    (registerWords registers).length = 96 := by
  have three : ∀ data : RegisterFinalData,
      [data.value, data.timestampLow, data.timestampHigh].length = 3 := fun _ => rfl
  rw [registerWords, MerkleTreeCap.length_flatMap_of_forall three, Vector.length_toList]

/-- Registers are read back from their words. -/
theorem registersOfWords_registerWords (registers : Vector RegisterFinalData 32) :
    registersOfWords (registerWords registers) = registers := by
  have three : ∀ data : RegisterFinalData,
      [data.value, data.timestampLow, data.timestampHigh].length = 3 := fun _ => rfl
  apply Vector.ext
  intro i bound
  have word : ∀ j, j < 3 → (registerWords registers)[i * 3 + j]? =
      [registers[i].value, registers[i].timestampLow, registers[i].timestampHigh][j]? := by
    intro j inside
    rw [registerWords, MerkleTreeCap.getElem?_flatMap_of_forall three _ _ inside,
      Vector.getElem?_toList, Vector.getElem?_eq_getElem bound, Option.bind_some]
  rw [registersOfWords, Vector.getElem_ofFn]
  simp only [word 1 (by omega), word 2 (by omega)]
  have first := word 0 (by omega)
  rw [Nat.add_zero] at first
  rw [first]
  rfl

def readRegisters : Verifier (Vector RegisterFinalData 32) := do
  let words ← Reader.tokens 96
  pure (registersOfWords words)

/-- `final_pc_buffer`: a block with the final program counter and timestamp. -/
def finalPcBuffer (finalPc finalTsLow finalTsHigh : U32) : List U32 :=
  [finalPc, finalTsLow, finalTsHigh] ++ List.replicate 13 0

/-- The block that announces the proofs of a circuit type. -/
def markerBuffer (circuitType : U32) : List U32 :=
  circuitType :: List.replicate 15 0

/-! ## Proofs that were accepted -/

/-- A proof whose verifier returned, with its number among the proofs of its kind. -/
inductive AcceptedProof (numSets : Nat) where
  | unrolledNoDelegation (family : U32) (circuitSequence : Nat) (output : ProofOutput 0 0 1)
  | unrolledWithDelegation (family : U32) (circuitSequence : Nat) (output : ProofOutput 1 0 1)
  | initAndTeardown (circuitSequence : Nat) (output : ProofOutput 0 numSets 0)
  | unified (circuitSequence : Nat) (output : ProofOutput 1 1 1)
  | delegation (delegationType : U32) (circuitSequence : Nat) (output : ProofOutput 1 0 0)

def initsAndTeardownsFormalCircuitFamilyIdx : U32 := 255

def reducedMachineCircuitFamilyIdx : U32 := 128

namespace AcceptedProof

variable {numSets : Nat}

def circuitType : AcceptedProof numSets → U32
  | unrolledNoDelegation family _ _ => family
  | unrolledWithDelegation family _ _ => family
  | initAndTeardown _ _ => initsAndTeardownsFormalCircuitFamilyIdx
  | unified _ _ => reducedMachineCircuitFamilyIdx
  | delegation delegationType _ _ => delegationType

def circuitSequence : AcceptedProof numSets → Nat
  | unrolledNoDelegation _ sequence _ => sequence
  | unrolledWithDelegation _ sequence _ => sequence
  | initAndTeardown sequence _ => sequence
  | unified sequence _ => sequence
  | delegation _ sequence _ => sequence

def setupCaps : AcceptedProof numSets → MerkleTreeCaps
  | unrolledNoDelegation _ _ output => output.setupCaps
  | unrolledWithDelegation _ _ output => output.setupCaps
  | initAndTeardown _ output => output.setupCaps
  | unified _ output => output.setupCaps
  | delegation _ _ output => output.setupCaps

def memoryCaps : AcceptedProof numSets → MerkleTreeCaps
  | unrolledNoDelegation _ _ output => output.memoryCaps
  | unrolledWithDelegation _ _ output => output.memoryCaps
  | initAndTeardown _ output => output.memoryCaps
  | unified _ output => output.memoryCaps
  | delegation _ _ output => output.memoryCaps

def memoryChallenges : AcceptedProof numSets → ExternalMemoryArgumentChallenges
  | unrolledNoDelegation _ _ output => output.memoryChallenges
  | unrolledWithDelegation _ _ output => output.memoryChallenges
  | initAndTeardown _ output => output.memoryChallenges
  | unified _ output => output.memoryChallenges
  | delegation _ _ output => output.memoryChallenges

/-- The delegation challenges that a proof carries, if it has any. -/
def delegationChallenges :
    AcceptedProof numSets → List ExternalDelegationArgumentChallenges
  | unrolledNoDelegation _ _ output => output.delegationChallenges.toList
  | unrolledWithDelegation _ _ output => output.delegationChallenges.toList
  | initAndTeardown _ output => output.delegationChallenges.toList
  | unified _ output => output.delegationChallenges.toList
  | delegation _ _ output => output.delegationChallenges.toList

/-- The machine-state challenges that a proof carries, if it has any. -/
def machineStatePermutationChallenges :
    AcceptedProof numSets → List ExternalMachineStateArgumentChallenges
  | unrolledNoDelegation _ _ output => output.machineStatePermutationChallenges.toList
  | unrolledWithDelegation _ _ output => output.machineStatePermutationChallenges.toList
  | initAndTeardown _ output => output.machineStatePermutationChallenges.toList
  | unified _ output => output.machineStatePermutationChallenges.toList
  | delegation _ _ output => output.machineStatePermutationChallenges.toList

/-- The words that a proof adds to the transcript: the first of its kind announces the kind. -/
def transcriptWords (proof : AcceptedProof numSets) : List U32 :=
  (if proof.circuitSequence = 0 then markerBuffer proof.circuitType else []) ++
    MerkleTreeCap.flatten proof.memoryCaps

end AcceptedProof

/-! ## Two buffers for the outputs -/

/-- `proof_output_0` and `proof_output_1`. -/
structure ProofOutputs
    (numDelegationChallenges numAuxBoundaryValues numMachineStateChallenges : Nat) where
  proofOutput0 :
    ProofOutput numDelegationChallenges numAuxBoundaryValues numMachineStateChallenges
  proofOutput1 :
    ProofOutput numDelegationChallenges numAuxBoundaryValues numMachineStateChallenges

namespace ProofOutputs

variable {numDelegationChallenges numAuxBoundaryValues numMachineStateChallenges : Nat}
  (outputs :
    ProofOutputs numDelegationChallenges numAuxBoundaryValues numMachineStateChallenges)
  (circuitSequence : Nat)

/-- The buffer that proof number `circuitSequence` is written to. -/
def current :
    ProofOutput numDelegationChallenges numAuxBoundaryValues numMachineStateChallenges :=
  if circuitSequence % 2 = 0 then outputs.proofOutput0 else outputs.proofOutput1

/-- The other buffer. -/
def previous :
    ProofOutput numDelegationChallenges numAuxBoundaryValues numMachineStateChallenges :=
  if circuitSequence % 2 = 0 then outputs.proofOutput1 else outputs.proofOutput0

def write
    (output :
      ProofOutput numDelegationChallenges numAuxBoundaryValues numMachineStateChallenges) :
    ProofOutputs numDelegationChallenges numAuxBoundaryValues numMachineStateChallenges :=
  if circuitSequence % 2 = 0 then { outputs with proofOutput0 := output }
  else { outputs with proofOutput1 := output }

variable
  (output :
    ProofOutput numDelegationChallenges numAuxBoundaryValues numMachineStateChallenges)

/-- The proof that was written is the previous one of the next. -/
theorem previous_write_succ :
    (outputs.write circuitSequence output).previous (circuitSequence + 1) = output := by
  rw [previous, write]
  split
  · rename_i odd
    rw [if_neg (by omega)]
  · rename_i even
    rw [if_pos (by omega)]

/-- Even proofs are kept in the first buffer. -/
theorem proofOutput0_write :
    (outputs.write circuitSequence output).proofOutput0 =
      if circuitSequence % 2 = 0 then output else outputs.proofOutput0 := by
  rw [write]
  split <;> rfl

end ProofOutputs

/-! ## The checks between consecutive proofs -/

section Continuity

variable {numDelegationChallenges numAuxBoundaryValues numMachineStateChallenges : Nat}

/-- "Check all invariants about continuity". -/
def checkContinuity (setup : MerkleTreeCaps) (circuitSequence : Nat)
    (previous current :
      ProofOutput numDelegationChallenges numAuxBoundaryValues numMachineStateChallenges) :
    Verifier PUnit :=
  if 0 < circuitSequence then do
    Reader.check (MerkleTreeCap.compare previous.setupCaps current.setupCaps = true)
    Reader.check (previous.memoryChallenges = current.memoryChallenges)
    Reader.check (previous.delegationChallenges = current.delegationChallenges)
  else
    Reader.check (MerkleTreeCap.compare setup current.setupCaps = true)

/-- What the continuity checks ask for. -/
structure Continues (setup : MerkleTreeCaps) (circuitSequence : Nat)
    (previous current :
      ProofOutput numDelegationChallenges numAuxBoundaryValues numMachineStateChallenges) :
    Prop where
  setupCaps : 0 < circuitSequence → previous.setupCaps = current.setupCaps
  memoryChallenges : 0 < circuitSequence → previous.memoryChallenges = current.memoryChallenges
  delegationChallenges :
    0 < circuitSequence → previous.delegationChallenges = current.delegationChallenges
  firstSetupCaps : circuitSequence = 0 → setup = current.setupCaps

theorem checkContinuity_eq_some_iff {setup : MerkleTreeCaps} {circuitSequence : Nat}
    {previous current :
      ProofOutput numDelegationChallenges numAuxBoundaryValues numMachineStateChallenges}
    {outcome : PUnit} {stream rest : List U32} :
    checkContinuity setup circuitSequence previous current stream = some (outcome, rest) ↔
      Continues setup circuitSequence previous current ∧ rest = stream := by
  rw [checkContinuity]
  split
  · rename_i later
    simp only [Reader.bind_eq_some_iff, Reader.check_eq_some_iff, MerkleTreeCap.compare_iff]
    constructor
    · rintro ⟨_, _, ⟨setups, rfl⟩, _, _, ⟨memory, rfl⟩, delegation, rfl⟩
      refine ⟨⟨fun _ => setups, fun _ => memory, fun _ => delegation, fun first => ?_⟩, rfl⟩
      omega
    · rintro ⟨continues, rfl⟩
      exact ⟨⟨⟩, _, ⟨continues.setupCaps later, rfl⟩, ⟨⟩, _,
        ⟨continues.memoryChallenges later, rfl⟩, continues.delegationChallenges later, rfl⟩
  · rename_i first
    simp only [Reader.check_eq_some_iff, MerkleTreeCap.compare_iff]
    constructor
    · rintro ⟨setups, rfl⟩
      refine ⟨⟨fun later => absurd later first, fun later => absurd later first,
        fun later => absurd later first, fun _ => setups⟩, rfl⟩
    · rintro ⟨continues, rfl⟩
      exact ⟨continues.firstSetupCaps (by omega), rfl⟩

end Continuity

/-! ## The state of a statement verifier -/

/-- What the loops over proofs carry along. -/
structure ProofLog (numSets : Nat) where
  transcript : Blake2sBufferingTranscript
  grandProductAccumulator : Mersenne31Quartic
  delegationSetAccumulator : Mersenne31Quartic
  /-- The numbers of proofs that were read. -/
  proofCounts : List U32
  /-- The proofs so far; the source keeps none of them but the last two. -/
  accepted : List (AcceptedProof numSets)

namespace ProofLog

variable {numSets : Nat}

/-- Before any proof. -/
def start (transcript : Blake2sBufferingTranscript) : ProofLog numSets where
  transcript := transcript
  grandProductAccumulator := 1
  delegationSetAccumulator := 0
  proofCounts := []
  accepted := []

/-- The block of a circuit type is absorbed if it has any proof. -/
def announce (log : ProofLog numSets) (numCircuits circuitType : U32) : ProofLog numSets :=
  { log with
    transcript :=
      if 0 < numCircuits then log.transcript.absorb (markerBuffer circuitType)
      else log.transcript
    proofCounts := log.proofCounts ++ [numCircuits] }

/-- A proof is accepted: its memory caps go to the transcript, and the accumulators go on. -/
def accept (log : ProofLog numSets) (proof : AcceptedProof numSets)
    (grandProduct delegationSetAccumulator : Mersenne31Quartic) : ProofLog numSets :=
  { log with
    transcript := log.transcript.absorb (MerkleTreeCap.flatten proof.memoryCaps)
    grandProductAccumulator := log.grandProductAccumulator * grandProduct
    delegationSetAccumulator := delegationSetAccumulator
    accepted := log.accepted ++ [proof] }

end ProofLog

/-! ## Final values -/

def initialPc : U32 := 0

/-- `split_timestamp(INITIAL_TIMESTAMP)`. -/
def initialTimestampPair : U32 × U32 := (4, 0)

def mersenneCharacteristics : Nat := 2 ^ 31 - 1

def maxCycles : Nat := 2 ^ 36

/-- The nonce of the proof of work, from its two words. -/
def powChallengeOfWords (low high : U32) : U64 :=
  (high.setWidth 64 <<< 32) ||| low.setWidth 64

end Airbender.Statement
