import Mathlib.Data.List.Chain
import Airbender.Circuit.InitAndTeardown
import Airbender.Statement.UnifiedBinding

/-!
# The seed on the host

`fs_transform_for_memory_and_delegation_arguments_for_unrolled_circuits`: the host absorbs the
final machine state and the memory caps of all circuits before it makes any proof.  The
statement verifiers absorb the same words, in other pieces, while they verify.
-/

namespace Airbender.Statement

open StreamReader Blake2sBufferingTranscript

/-! ## The host -/

structure FinalRegisterValue where
  value : U32
  lastAccessTimestamp : TimestampScalar
deriving DecidableEq

/-- `split_timestamp`. -/
def splitTimestamp (timestamp : TimestampScalar) : U32 × U32 :=
  Circuit.timestampScalarIntoColumnValues timestamp

/-- The words of one register. -/
def FinalRegisterValue.words (register : FinalRegisterValue) : List U32 :=
  [register.value, (splitTimestamp register.lastAccessTimestamp).1,
    (splitTimestamp register.lastAccessTimestamp).2]

/-- `MerkleTreeCapVarLength`: digests. -/
abbrev MerkleTreeCapVarLength : Type := List (Vector U32 8)

/-- `flatten_merkle_caps`. -/
def flattenMerkleCaps (trees : List MerkleTreeCapVarLength) : List U32 :=
  trees.flatMap fun subtree => subtree.flatMap Vector.toList

/-- The memory caps of all circuits of a family or delegation type. -/
abbrev CircuitCaps : Type := U32 × List (List MerkleTreeCapVarLength)

/-- The circuits of one family or delegation type go to the transcript. -/
def absorbCircuits (transcript : Blake2sBufferingTranscript) (entry : CircuitCaps) :
    Blake2sBufferingTranscript :=
  let transcript :=
    if 0 < entry.2.length then transcript.absorb (markerBuffer entry.1) else transcript
  entry.2.foldl (fun transcript caps => transcript.absorb (flattenMerkleCaps caps)) transcript

/-- The circuits of a delegation type leave the buffer full. -/
def absorbDelegationCircuits (transcript : Blake2sBufferingTranscript) (entry : CircuitCaps) :
    Option Blake2sBufferingTranscript := do
  let transcript := absorbCircuits transcript entry
  guard (transcript.getCurrentBufferOffset = Blake2s.blockSizeU32Words)
  some transcript

/-- `is_sorted_by(|a, b| a.0 < b.0)`. -/
def IsSortedByType (entries : List CircuitCaps) : Prop :=
  (entries.map Prod.fst).IsChain (· < ·)

instance (entries : List CircuitCaps) : Decidable (IsSortedByType entries) :=
  inferInstanceAs (Decidable ((entries.map Prod.fst).IsChain (· < ·)))

/-- The arguments of the host's function. -/
structure FsTransformInput where
  finalRegisterValues : Vector FinalRegisterValue 32
  finalPc : U32
  finalTimestamp : TimestampScalar
  circuitFamiliesMemoryCaps : List CircuitCaps
  initsAndTeardownsMemoryCaps : List (List MerkleTreeCapVarLength)
  delegationCircuitsMemoryCaps : List CircuitCaps

/-- `fs_transform_for_memory_and_delegation_arguments_for_unrolled_circuits`. -/
def fsTransformForMemoryAndDelegationArgumentsForUnrolledCircuits (input : FsTransformInput) :
    Option Seed := do
  let transcript := Blake2sBufferingTranscript.new
  let transcript := transcript.absorb
    (input.finalRegisterValues.toList.flatMap FinalRegisterValue.words)
  let timestamp := splitTimestamp input.finalTimestamp
  let transcript := transcript.absorb (finalPcBuffer input.finalPc timestamp.1 timestamp.2)
  guard (IsSortedByType input.circuitFamiliesMemoryCaps)
  let transcript := input.circuitFamiliesMemoryCaps.foldl absorbCircuits transcript
  let transcript := absorbCircuits transcript
    (initsAndTeardownsFormalCircuitFamilyIdx, input.initsAndTeardownsMemoryCaps)
  guard (transcript.getCurrentBufferOffset = Blake2s.blockSizeU32Words)
  guard (IsSortedByType input.delegationCircuitsMemoryCaps)
  let transcript ←
    input.delegationCircuitsMemoryCaps.foldlM absorbDelegationCircuits transcript
  some transcript.finalize

/-! ## The words that the host absorbs -/

/-- The words of the circuits of one family or delegation type. -/
def circuitWords (entry : CircuitCaps) : List U32 :=
  (if 0 < entry.2.length then markerBuffer entry.1 else []) ++
    entry.2.flatMap flattenMerkleCaps

theorem Holds.absorbCircuits {transcript : Blake2sBufferingTranscript} {words : List U32}
    (holds : transcript.Holds words) (entry : CircuitCaps) :
    (absorbCircuits transcript entry).Holds (words ++ circuitWords entry) := by
  have caps : ∀ (caps : List (List MerkleTreeCapVarLength))
      (transcript : Blake2sBufferingTranscript) (words : List U32), transcript.Holds words →
      (caps.foldl (fun transcript caps => transcript.absorb (flattenMerkleCaps caps))
        transcript).Holds (words ++ caps.flatMap flattenMerkleCaps) := by
    intro caps
    induction caps with
    | nil =>
        intro transcript words holds
        rw [List.flatMap_nil, List.append_nil]
        exact holds
    | cons first caps inductionHypothesis =>
        intro transcript words holds
        rw [List.foldl_cons, List.flatMap_cons, ← List.append_assoc]
        exact inductionHypothesis _ _ (holds.absorb _)
  rw [Statement.absorbCircuits, circuitWords, ← List.append_assoc]
  apply caps
  by_cases some : 0 < entry.2.length
  · rw [if_pos some, if_pos some]
    exact holds.absorb _
  · rw [if_neg some, if_neg some, List.append_nil]
    exact holds

theorem Holds.foldl_absorbCircuits {transcript : Blake2sBufferingTranscript} {words : List U32}
    (holds : transcript.Holds words) (entries : List CircuitCaps) :
    (entries.foldl Statement.absorbCircuits transcript).Holds
      (words ++ entries.flatMap circuitWords) := by
  induction entries generalizing transcript words with
  | nil =>
      rw [List.flatMap_nil, List.append_nil]
      exact holds
  | cons entry entries inductionHypothesis =>
      rw [List.foldl_cons, List.flatMap_cons, ← List.append_assoc]
      exact inductionHypothesis (Holds.absorbCircuits holds entry)

/-! ## Host lists and accepted proofs -/

/-- The digests of memory caps, one list for each coset. -/
def varLengthCaps (caps : MerkleTreeCaps) : List MerkleTreeCapVarLength :=
  caps.toList.map fun cap => cap.cap.toList

theorem flattenMerkleCaps_varLengthCaps (caps : MerkleTreeCaps) :
    flattenMerkleCaps (varLengthCaps caps) = MerkleTreeCap.flatten caps := by
  rw [flattenMerkleCaps, varLengthCaps, MerkleTreeCap.flatten, List.flatMap_map]

/-- A circuit type, a number among the circuits of this type, and memory caps. -/
abbrev NumberedCaps : Type := U32 × Nat × List MerkleTreeCapVarLength

def AcceptedProof.numberedCaps {numSets : Nat} (proof : AcceptedProof numSets) : NumberedCaps :=
  (proof.circuitType, proof.circuitSequence, varLengthCaps proof.memoryCaps)

/-- The circuits of a type in order, numbered from `first`. -/
def numberedFrom (circuitType : U32) (first : Nat) :
    List (List MerkleTreeCapVarLength) → List NumberedCaps
  | [] => []
  | caps :: others => (circuitType, first, caps) :: numberedFrom circuitType (first + 1) others

/-- The words that a circuit adds to the transcript. -/
def NumberedCaps.words (circuit : NumberedCaps) : List U32 :=
  (if circuit.2.1 = 0 then markerBuffer circuit.1 else []) ++ flattenMerkleCaps circuit.2.2

theorem AcceptedProof.words_numberedCaps {numSets : Nat} (proof : AcceptedProof numSets) :
    proof.numberedCaps.words = proof.transcriptWords := by
  rw [numberedCaps, NumberedCaps.words, flattenMerkleCaps_varLengthCaps, transcriptWords]

theorem words_numberedFrom (circuitType : U32) {first : Nat} (later : first ≠ 0)
    (caps : List (List MerkleTreeCapVarLength)) :
    (numberedFrom circuitType first caps).flatMap NumberedCaps.words =
      caps.flatMap flattenMerkleCaps := by
  induction caps generalizing first with
  | nil => rfl
  | cons cap caps inductionHypothesis =>
      rw [numberedFrom, List.flatMap_cons, List.flatMap_cons,
        inductionHypothesis (Nat.succ_ne_zero first), NumberedCaps.words, if_neg later,
        List.nil_append]

theorem words_numbered (entry : CircuitCaps) :
    (numberedFrom entry.1 0 entry.2).flatMap NumberedCaps.words = circuitWords entry := by
  obtain ⟨circuitType, caps⟩ := entry
  cases caps with
  | nil => rfl
  | cons cap caps =>
      have some : 0 < (circuitType, cap :: caps).2.length := Nat.succ_pos caps.length
      rw [numberedFrom, List.flatMap_cons, words_numberedFrom circuitType (Nat.succ_ne_zero 0),
        NumberedCaps.words, if_pos rfl, circuitWords, if_pos some, List.flatMap_cons,
        List.append_assoc]

namespace FsTransformInput

variable (input : FsTransformInput)

/-- The final machine state as the verifiers read it. -/
def finalMachineState : FinalMachineState where
  registers := input.finalRegisterValues.map fun register =>
    { value := register.value
      timestampLow := (splitTimestamp register.lastAccessTimestamp).1
      timestampHigh := (splitTimestamp register.lastAccessTimestamp).2 }
  finalPc := input.finalPc
  finalTsLow := (splitTimestamp input.finalTimestamp).1
  finalTsHigh := (splitTimestamp input.finalTimestamp).2

/-- All circuits in the order of the host. -/
def circuits : List NumberedCaps :=
  (input.circuitFamiliesMemoryCaps ++
    (initsAndTeardownsFormalCircuitFamilyIdx, input.initsAndTeardownsMemoryCaps) ::
      input.delegationCircuitsMemoryCaps).flatMap fun entry => numberedFrom entry.1 0 entry.2

/-- The proofs that a verifier reads are those of the host's circuits, in its order. -/
structure Corresponds {numSets : Nat} (finalState : FinalMachineState)
    (accepted : List (AcceptedProof numSets)) : Prop where
  finalState_eq : finalState = input.finalMachineState
  circuits_eq : accepted.map AcceptedProof.numberedCaps = input.circuits

/-- The host asserts that families and delegation types are sorted. -/
structure Sorted : Prop where
  families : IsSortedByType input.circuitFamiliesMemoryCaps
  delegations : IsSortedByType input.delegationCircuitsMemoryCaps

/-- The challenges that the host draws for its proofs. -/
def externalChallenges (powBits : Nat) (powChallenge : U64) : Option ExternalChallenges := do
  let seed ← fsTransformForMemoryAndDelegationArgumentsForUnrolledCircuits input
  ExternalChallenges.drawFromTranscriptSeedWithStatePermutation seed powBits powChallenge

variable {input} {numSets : Nat} {finalState : FinalMachineState}
  {accepted : List (AcceptedProof numSets)}

/-- Both absorb the same words. -/
theorem Corresponds.words_eq (corresponds : input.Corresponds finalState accepted) :
    accepted.flatMap AcceptedProof.transcriptWords =
      input.circuitFamiliesMemoryCaps.flatMap circuitWords ++
        (circuitWords (initsAndTeardownsFormalCircuitFamilyIdx,
          input.initsAndTeardownsMemoryCaps) ++
        input.delegationCircuitsMemoryCaps.flatMap circuitWords) := by
  have entries : ∀ entries : List CircuitCaps,
      (entries.flatMap fun entry => numberedFrom entry.1 0 entry.2).flatMap
        NumberedCaps.words = entries.flatMap circuitWords := by
    intro entries
    rw [List.flatMap_assoc]
    exact List.flatMap_congr fun entry _ => words_numbered entry
  have proofs : accepted.flatMap AcceptedProof.transcriptWords =
      (accepted.map AcceptedProof.numberedCaps).flatMap NumberedCaps.words := by
    rw [List.flatMap_map]
    exact List.flatMap_congr fun proof _ => proof.words_numberedCaps.symm
  rw [proofs, corresponds.circuits_eq, circuits, entries, List.flatMap_append,
    List.flatMap_cons]

/-- The circuits of an entry are whole blocks of words. -/
theorem Corresponds.dvd_length_circuitWords (corresponds : input.Corresponds finalState accepted)
    {entry : CircuitCaps}
    (member : ∀ circuit ∈ numberedFrom entry.1 0 entry.2, circuit ∈ input.circuits) :
    16 ∣ (circuitWords entry).length := by
  rw [← words_numbered]
  have block : ∀ circuit ∈ numberedFrom entry.1 0 entry.2, 16 ∣ circuit.words.length := by
    intro circuit inside
    have known := member circuit inside
    rw [← corresponds.circuits_eq] at known
    obtain ⟨proof, -, rfl⟩ := List.mem_map.mp known
    rw [AcceptedProof.words_numberedCaps]
    exact proof.dvd_length_transcriptWords
  revert block
  generalize numberedFrom entry.1 0 entry.2 = circuits
  intro block
  induction circuits with
  | nil => exact Nat.dvd_zero 16
  | cons circuit circuits inductionHypothesis =>
      rw [List.flatMap_cons, List.length_append]
      exact Nat.dvd_add (block circuit (List.mem_cons_self ..)) (inductionHypothesis
        fun other inside => block other (List.mem_cons_of_mem _ inside))

theorem Corresponds.dvd_length_entries (corresponds : input.Corresponds finalState accepted)
    {entries : List CircuitCaps}
    (inside : ∀ entry ∈ entries, entry ∈ input.circuitFamiliesMemoryCaps ++
      (initsAndTeardownsFormalCircuitFamilyIdx, input.initsAndTeardownsMemoryCaps) ::
        input.delegationCircuitsMemoryCaps) :
    16 ∣ (entries.flatMap circuitWords).length := by
  induction entries with
  | nil => exact Nat.dvd_zero 16
  | cons entry entries inductionHypothesis =>
      rw [List.flatMap_cons, List.length_append]
      apply Nat.dvd_add ?_ (inductionHypothesis fun other member =>
        inside other (List.mem_cons_of_mem _ member))
      apply corresponds.dvd_length_circuitWords
      intro circuit member
      exact List.mem_flatMap.mpr ⟨entry, inside entry (List.mem_cons_self ..), member⟩

theorem words_finalMachineState (input : FsTransformInput) :
    input.finalRegisterValues.toList.flatMap FinalRegisterValue.words ++
        finalPcBuffer input.finalPc (splitTimestamp input.finalTimestamp).1
          (splitTimestamp input.finalTimestamp).2 =
      input.finalMachineState.transcriptWords := by
  have registers : registerWords input.finalMachineState.registers =
      input.finalRegisterValues.toList.flatMap FinalRegisterValue.words := by
    rw [registerWords, finalMachineState, Vector.toList_map, List.flatMap_map]
    rfl
  rw [FinalMachineState.transcriptWords, registers]
  rfl

/-- The loop over the delegation types, whose assertions all hold. -/
theorem foldlM_absorbCircuits {transcript : Blake2sBufferingTranscript} {words : List U32}
    (holds : transcript.Holds words) (nonempty : words ≠ []) (blocks : 16 ∣ words.length)
    {entries : List CircuitCaps} (whole : ∀ entry ∈ entries, 16 ∣ (circuitWords entry).length) :
    ∃ final, entries.foldlM absorbDelegationCircuits transcript = some final ∧
      final.Holds (words ++ entries.flatMap circuitWords) := by
  induction entries generalizing transcript words with
  | nil =>
      refine ⟨transcript, rfl, ?_⟩
      rw [List.flatMap_nil, List.append_nil]
      exact holds
  | cons entry entries inductionHypothesis =>
      have next := Holds.absorbCircuits holds entry
      have nextBlocks : 16 ∣ (words ++ circuitWords entry).length := by
        rw [List.length_append]
        exact Nat.dvd_add blocks (whole entry (List.mem_cons_self ..))
      have nextNonempty : words ++ circuitWords entry ≠ [] := by
        intro empty
        exact nonempty (List.append_eq_nil_iff.mp empty).1
      have full := next.offset_eq nextNonempty nextBlocks
      obtain ⟨final, run, finalHolds⟩ := inductionHypothesis next nextNonempty nextBlocks
        fun other member => whole other (List.mem_cons_of_mem _ member)
      refine ⟨final, ?_, ?_⟩
      · rw [List.foldlM_cons, absorbDelegationCircuits]
        simp only [full, guard_true, Option.pure_def, Option.bind_eq_bind, Option.bind_some]
        exact run
      · rw [List.flatMap_cons, ← List.append_assoc]
        exact finalHolds

/-- The host returns the digest of the words that the verifiers absorb. -/
theorem Corresponds.fsTransform_eq (corresponds : input.Corresponds finalState accepted)
    (sorted : input.Sorted) :
    fsTransformForMemoryAndDelegationArgumentsForUnrolledCircuits input =
      some (digest (finalState.transcriptWords ++
        accepted.flatMap AcceptedProof.transcriptWords)) := by
  have registers := holds_new.absorb
    (input.finalRegisterValues.toList.flatMap FinalRegisterValue.words)
  have state := registers.absorb (finalPcBuffer input.finalPc
    (splitTimestamp input.finalTimestamp).1 (splitTimestamp input.finalTimestamp).2)
  rw [List.nil_append, words_finalMachineState] at state
  have families := Holds.foldl_absorbCircuits state input.circuitFamiliesMemoryCaps
  have inits := Holds.absorbCircuits families
    (initsAndTeardownsFormalCircuitFamilyIdx, input.initsAndTeardownsMemoryCaps)
  have nonempty : input.finalMachineState.transcriptWords ++
      input.circuitFamiliesMemoryCaps.flatMap circuitWords ++
      circuitWords (initsAndTeardownsFormalCircuitFamilyIdx,
        input.initsAndTeardownsMemoryCaps) ≠ [] := by
    intro empty
    have length := input.finalMachineState.length_transcriptWords
    rw [List.append_assoc] at empty
    rw [(List.append_eq_nil_iff.mp empty).1, List.length_nil] at length
    omega
  have early : 16 ∣ (input.circuitFamiliesMemoryCaps.flatMap circuitWords).length :=
    corresponds.dvd_length_entries fun entry member => List.mem_append_left _ member
  have middle : 16 ∣ ([((initsAndTeardownsFormalCircuitFamilyIdx,
      input.initsAndTeardownsMemoryCaps) : CircuitCaps)].flatMap circuitWords).length := by
    apply corresponds.dvd_length_entries
    intro entry member
    rw [List.mem_singleton.mp member]
    exact List.mem_append_right _ (List.mem_cons_self ..)
  rw [List.flatMap_singleton] at middle
  have blocks : 16 ∣ (input.finalMachineState.transcriptWords ++
      input.circuitFamiliesMemoryCaps.flatMap circuitWords ++
      circuitWords (initsAndTeardownsFormalCircuitFamilyIdx,
        input.initsAndTeardownsMemoryCaps)).length := by
    rw [List.length_append, List.length_append, FinalMachineState.length_transcriptWords]
    exact Nat.dvd_add (Nat.dvd_add (by decide) early) middle
  have whole : ∀ entry ∈ input.delegationCircuitsMemoryCaps,
      16 ∣ (circuitWords entry).length := by
    intro entry member
    have single : 16 ∣ ([entry].flatMap circuitWords).length := by
      apply corresponds.dvd_length_entries
      intro other isEntry
      rw [List.mem_singleton.mp isEntry]
      exact List.mem_append_right _ (List.mem_cons_of_mem _ member)
    rwa [List.flatMap_singleton] at single
  have full := inits.offset_eq nonempty blocks
  obtain ⟨final, delegations, finalHolds⟩ :=
    foldlM_absorbCircuits inits nonempty blocks whole
  rw [corresponds.finalState_eq, corresponds.words_eq, ← List.append_assoc,
    ← List.append_assoc, ← finalHolds.finalize_eq,
    fsTransformForMemoryAndDelegationArgumentsForUnrolledCircuits]
  simp only [sorted.families, sorted.delegations, full, guard_true, Option.pure_def,
    Option.bind_eq_bind, Option.bind_some]
  rw [delegations]
  rfl

end FsTransformInput

/-- The host's seed is the one that the statement verifiers get from their transcript, and so
are the challenges that both draw; those of the unified statement lack the machine state. -/
theorem fsTransform_agrees :
    (∀ {numSets : Nat} {arguments : UnrolledArguments numSets}
        {buffers : UnrolledBuffers numSets} {stream rest : List U32}
        {proofs : UnrolledProofs numSets} {input : FsTransformInput},
      arguments.verifyProofs buffers stream = some (proofs, rest) → input.Sorted →
      input.Corresponds proofs.finalState proofs.delegations.log.accepted →
        fsTransformForMemoryAndDelegationArgumentsForUnrolledCircuits input =
            some proofs.memorySeed ∧
          ∀ powBits powChallenge, input.externalChallenges powBits powChallenge =
            ExternalChallenges.drawFromTranscriptSeedWithStatePermutation proofs.memorySeed
              powBits powChallenge) ∧
    ∀ {arguments : UnifiedArguments} {buffers : UnifiedBuffers} {stream rest : List U32}
        {proofs : UnifiedProofs} {input : FsTransformInput},
      arguments.verifyProofs buffers stream = some (proofs, rest) → input.Sorted →
      input.Corresponds proofs.finalState proofs.delegations.log.accepted →
        fsTransformForMemoryAndDelegationArgumentsForUnrolledCircuits input =
            some proofs.memorySeed ∧
          ∀ powBits powChallenge,
            (input.externalChallenges powBits powChallenge).map
                (fun challenges => { challenges with machineStatePermutationArgument := none }) =
              ExternalChallenges.drawFromTranscriptSeed proofs.memorySeed true powBits
                powChallenge := by
  refine ⟨?_, ?_⟩
  · intro numSets arguments buffers stream rest proofs input verified sorted corresponds
    have seed := corresponds.fsTransform_eq sorted
    rw [← UnrolledArguments.verifyProofs_memorySeed verified] at seed
    refine ⟨seed, ?_⟩
    intro powBits powChallenge
    rw [FsTransformInput.externalChallenges, seed]
    rfl
  · intro arguments buffers stream rest proofs input verified sorted corresponds
    have seed := corresponds.fsTransform_eq sorted
    rw [← UnifiedArguments.verifyProofs_memorySeed verified] at seed
    refine ⟨seed, ?_⟩
    intro powBits powChallenge
    rw [FsTransformInput.externalChallenges, seed, ExternalChallenges.drawFromTranscriptSeed_eq]
    rfl

/-- What the host knows before it makes the proofs of the sample runs. -/
def sampleFsTransformInput (families : List CircuitCaps)
    (initsAndTeardowns : List (List MerkleTreeCapVarLength)) : FsTransformInput where
  finalRegisterValues := Vector.replicate 32 { value := 0, lastAccessTimestamp := 0 }
  finalPc := 0
  finalTimestamp := 4
  circuitFamiliesMemoryCaps := families
  initsAndTeardownsMemoryCaps := initsAndTeardowns
  delegationCircuitsMemoryCaps := []

theorem sampleFsTransformInput_finalMachineState (families : List CircuitCaps)
    (initsAndTeardowns : List (List MerkleTreeCapVarLength)) :
    (sampleFsTransformInput families initsAndTeardowns).finalMachineState = sampleState := by
  have empty : (sampleFsTransformInput [] []).finalMachineState = sampleState := by
    decide +kernel
  exact empty

/-- One family proof with one init and teardown proof, and one unified proof. -/
theorem fsTransform_agrees_samples :
    fsTransformForMemoryAndDelegationArgumentsForUnrolledCircuits
        (sampleFsTransformInput [(1, [varLengthCaps (Vector.replicate numCosets .dummy)])]
          [varLengthCaps (Vector.replicate numCosets .dummy)]) =
      some (Blake2s.wordsOfNat 8 unrolledSampleSeed) ∧
    fsTransformForMemoryAndDelegationArgumentsForUnrolledCircuits
        (sampleFsTransformInput [(128, [varLengthCaps (Vector.replicate numCosets .dummy)])] []) =
      some (Blake2s.wordsOfNat 8 unifiedSampleSeed) := by
  constructor
  · obtain ⟨proofs, verified, finalState, accepted, -, -, -, -⟩ :=
      sample_verifyProofs (ExternalChallenges.memoryOf [])
    have seed : proofs.memorySeed = Blake2s.wordsOfNat 8 unrolledSampleSeed := by
      rw [UnrolledArguments.verifyProofs_memorySeed verified, finalState, accepted,
        sample_digest]
    rw [← seed]
    refine (fsTransform_agrees.1 verified ⟨?_, ?_⟩ ⟨?_, ?_⟩).1
    · exact List.IsChain.singleton 1
    · exact List.IsChain.nil
    · rw [finalState, sampleFsTransformInput_finalMachineState]
    · rw [accepted]
      rfl
  · obtain ⟨proofs, verified, finalState, accepted, -, -, -⟩ :=
      sampleUnified_verifyProofs chosenMachineStateChallenges
    have seed : proofs.memorySeed = Blake2s.wordsOfNat 8 unifiedSampleSeed := by
      rw [UnifiedArguments.verifyProofs_memorySeed verified, finalState, accepted,
        sampleUnified_digest]
    rw [← seed]
    refine (fsTransform_agrees.2 verified ⟨?_, ?_⟩ ⟨?_, ?_⟩).1
    · exact List.IsChain.singleton 128
    · exact List.IsChain.nil
    · rw [finalState, sampleFsTransformInput_finalMachineState]
    · rw [accepted]
      rfl

end Airbender.Statement
