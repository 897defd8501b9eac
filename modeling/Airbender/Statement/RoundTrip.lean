import Airbender.Statement.ProofKinds

/-!
# Program proofs are read as they were written

The words that the host makes of a program proof have no tags.  The statement verifiers read
exactly these words where their assertions hold of the values that the proof carries, and then
keep every number and every proof where it came from.
-/

namespace Airbender.Statement

open StreamReader Reader Blake2sBufferingTranscript

variable {numSets : Nat}

/-! ## The parts that both statements read -/

/-- The registers, and the final program counter and timestamp. -/
def FinalMachineState.words (finalState : FinalMachineState) : List U32 :=
  registerWords finalState.registers ++
    [finalState.finalPc, finalState.finalTsLow, finalState.finalTsHigh]

theorem FinalMachineState.returnsIff_read (finalState : FinalMachineState) :
    ReturnsIff FinalMachineState.read finalState.words ((finalState.registers.get 0).value = 0)
      finalState := by
  have registers : Returns readRegisters (registerWords finalState.registers)
      finalState.registers := by
    intro rest
    have taken : Reader.tokens 96 (registerWords finalState.registers ++ rest) =
        some (registerWords finalState.registers, rest) :=
      Reader.tokens_eq_some_iff.mpr ⟨length_registerWords _, rfl⟩
    rw [readRegisters, Reader.bind_of_run taken, registersOfWords_registerWords]
    rfl
  rw [FinalMachineState.read, FinalMachineState.words]
  refine ReturnsIff.returns_bind registers ?_
  refine ReturnsIff.congr ?_ (and_iff_left trivial) fun _ => rfl
  exact ReturnsIff.check_bind fun _ => ReturnsIff.token_bind <| ReturnsIff.token_bind <|
    ReturnsIff.token_bind <| ReturnsIff.pure finalState

/-- The two words of the nonce. -/
def powChallengeWords (powChallenge : U64) : List U32 :=
  [powChallenge.setWidth 32, (powChallenge >>> 32).setWidth 32]

theorem powChallengeOfWords_eq (powChallenge : U64) :
    powChallengeOfWords (powChallenge.setWidth 32) ((powChallenge >>> 32).setWidth 32) =
      powChallenge := by
  apply BitVec.eq_of_getLsbD_eq
  intro i inside
  rw [powChallengeOfWords, BitVec.getLsbD_or, BitVec.getLsbD_shiftLeft, BitVec.getLsbD_setWidth,
    BitVec.getLsbD_setWidth, BitVec.getLsbD_setWidth, BitVec.getLsbD_setWidth,
    BitVec.getLsbD_ushiftRight]
  by_cases low : i < 32
  · simp [low, inside]
  · have high : i - 32 < 32 := by omega
    have sum : 32 + (i - 32) = i := by omega
    simp [low, inside, high, sum]
    omega

theorem returns_readPowChallenge (powChallenge : U64) :
    Returns readPowChallenge (powChallengeWords powChallenge) powChallenge := by
  intro rest
  have read : readPowChallenge (powChallengeWords powChallenge ++ rest) =
      some (powChallengeOfWords (powChallenge.setWidth 32)
        ((powChallenge >>> 32).setWidth 32), rest) := rfl
  rw [read, powChallengeOfWords_eq]

/-- The preimage is written for recursion layers. -/
def preimageWords (preimage : Option ChainPreimage) : List U32 :=
  (preimage.map Vector.toList).getD []

/-- The registers hold the hash of the preimage, or zeros where a chain starts. -/
def ChainHolds (finalState : FinalMachineState) (preimage : Option ChainPreimage) : Prop :=
  auxRegisters finalState.registers = preimage.elim (Vector.replicate 8 0) chainHash

/-- The chain after a layer: its end parameters are added, unless they were added last. -/
def chainAfter (finalState : FinalMachineState) (setups : List MerkleTreeCaps)
    (preimage : Option ChainPreimage) : Seed :=
  let endParams := (endParamsOutput finalState.finalPc setups).1
  if preimage.map ChainPreimage.secondHalf = some endParams then
    auxRegisters finalState.registers
  else chainHash (ChainPreimage.concat (auxRegisters finalState.registers) endParams)

theorem returnsIff_chainOutput {baseLayer : Bool} {preimage : Option ChainPreimage}
    (present : preimage.isSome = !baseLayer) (finalState : FinalMachineState)
    (setups : List MerkleTreeCaps) :
    ReturnsIff (chainOutput baseLayer finalState setups) (preimageWords preimage)
      (ChainHolds finalState preimage) (chainAfter finalState setups preimage, preimage) := by
  have holds : (endParamsOutput finalState.finalPc setups).2.Holds [] := holds_finalizeReset _
  rw [chainOutput, chainAfter]
  generalize endParamsOutput finalState.finalPc setups = hashed at holds
  generalize isAux : auxRegisters finalState.registers = aux
  cases preimage with
  | none =>
      obtain rfl : baseLayer = true := by
        cases baseLayer with
        | true => rfl
        | false => cases present
      have started : ReturnsIff (baseLayerOutput hashed.2 aux hashed.1) []
          (aux = Vector.replicate 8 0)
          (chainHash (ChainPreimage.concat (Vector.replicate 8 0) hashed.1)) := by
        rw [baseLayerOutput, ← finalize_absorb holds]
        refine ReturnsIff.congr ?_ (and_iff_left trivial) fun _ => rfl
        exact ReturnsIff.check_bind fun _ => ReturnsIff.pure _
      refine (started.map fun hash => (hash, none)).congr ?_ ?_
      · rw [ChainHolds, isAux]
        rfl
      · rintro rfl
        rfl
  | some preimage =>
      obtain rfl : baseLayer = false := by
        cases baseLayer with
        | true => cases present
        | false => rfl
      have length : preimage.toList.length = 16 := Vector.length_toList
      have hash := finalize_absorb holds preimage
      have reset := holds_finalizeReset (hashed.2.absorb preimage.toList)
      have next := finalize_absorb reset (ChainPreimage.concat aux hashed.1)
      have continued : ReturnsIff (recursionLayerOutput hashed.2 aux hashed.1)
          (preimage.toList ++ []) (chainHash preimage = aux)
          (if some preimage.secondHalf = some hashed.1 then aux
            else chainHash (ChainPreimage.concat aux hashed.1), preimage) := by
        rw [recursionLayerOutput]
        refine ReturnsIff.tokens_bind length ?_
        rw [ChainPreimage.ofWords_toList]
        rw [← hash]
        refine ReturnsIff.congr ?_ (and_iff_left trivial) fun _ => rfl
        refine ReturnsIff.check_bind fun _ => ?_
        by_cases repeated : preimage.secondHalf = hashed.1
        · rw [if_pos repeated, if_pos (congrArg some repeated)]
          exact ReturnsIff.pure _
        · have different : ¬ some preimage.secondHalf = some hashed.1 :=
            fun same => repeated (Option.some.inj same)
          rw [if_neg repeated, if_neg different, ← next]
          exact ReturnsIff.pure _
      rw [List.append_nil] at continued
      refine (continued.map fun chain => (chain.1, some chain.2)).congr ?_ fun _ => rfl
      rw [ChainHolds, isAux, eq_comm]
      rfl

/-- The contributions of all proofs, of the registers and of the machine state cancel. -/
def Balances (finalState : FinalMachineState)
    (memoryChallenges : ExternalMemoryArgumentChallenges)
    (machineStateChallenges : ExternalMachineStateArgumentChallenges)
    (log : ProofLog numSets) : Prop :=
  ∃ registers,
    produceRegisterContributionIntoMemoryAccumulatorRaw memoryChallenges finalState.registers =
      some registers ∧
    ∃ machineState,
      producePcIntoPermutationAccumulatorRaw initialPc initialTimestampPair finalState.finalPc
        (finalState.finalTsLow, finalState.finalTsHigh) machineStateChallenges =
          some machineState ∧
      log.grandProductAccumulator * registers * machineState = 1 ∧
        log.delegationSetAccumulator = 0

theorem returnsIff_checkAccumulators (finalState : FinalMachineState)
    (memoryChallenges : ExternalMemoryArgumentChallenges)
    (machineStateChallenges : ExternalMachineStateArgumentChallenges) (log : ProofLog numSets) :
    ReturnsIff (checkAccumulators finalState memoryChallenges machineStateChallenges log) []
      (Balances finalState memoryChallenges machineStateChallenges log) ⟨⟩ := by
  rw [checkAccumulators]
  exact ReturnsIff.ofOption_bind fun _ _ => ReturnsIff.ofOption_bind fun _ _ =>
    ReturnsIff.check_bind fun _ => ReturnsIff.check _

/-! ## The unrolled statement -/

/-- What a program proof says to the unrolled statement. -/
structure UnrolledContent (numSets : Nat) where
  finalState : FinalMachineState
  families : List FamiliesState.Entry
  initsAndTeardowns : InitsAndTeardownsState.Entry numSets
  delegations : List DelegationState.Entry
  powChallenge : U64
  preimage : Option ChainPreimage

namespace UnrolledContent

variable (content : UnrolledContent numSets) (arguments : UnrolledArguments numSets)
  (buffers : UnrolledBuffers numSets)

/-- The words up to the last delegation proof. -/
def proofWords : List U32 :=
  content.finalState.words ++ ((content.families.flatMap fun entry => kindWords entry.2) ++
    (kindWords content.initsAndTeardowns ++
      content.delegations.flatMap fun entry => kindWords entry.2))

/-- All words in their order. -/
def words : List U32 :=
  content.proofWords ++
    (powChallengeWords content.powChallenge ++ preimageWords content.preimage)

/-- The numbers of proofs of all kinds. -/
def counts : List U32 :=
  (content.families.map fun entry => countWord entry.2) ++ [countWord content.initsAndTeardowns] ++
    content.delegations.map fun entry => countWord entry.2

/-- All proofs, each under its kind and its number. -/
def accepted : List (AcceptedProof numSets) :=
  (content.families.flatMap fun entry => entry.2.mapIdx entry.1.1.accepted) ++
    content.initsAndTeardowns.mapIdx InitsAndTeardownsState.accepted ++
      content.delegations.flatMap fun entry => entry.2.mapIdx (DelegationState.accepted entry.1)

/-- A count fits in a word. -/
structure Few : Prop where
  families : ∀ entry ∈ content.families, entry.2.length < 2 ^ 32
  initsAndTeardowns : content.initsAndTeardowns.length < 2 ^ 32
  delegations : ∀ entry ∈ content.delegations, entry.2.length < 2 ^ 32

/-- The seed of all challenges. -/
def memorySeed : Seed :=
  digest (content.finalState.transcriptWords ++
    content.accepted.flatMap AcceptedProof.transcriptWords)

/-- The state after the proofs of all families. -/
def afterFamilies : FamiliesState numSets :=
  passed (fun _ => FamiliesState.afterProofs) 0 content.families
    (.start buffers content.finalState)

def afterInits : InitsAndTeardownsState numSets :=
  InitsAndTeardownsState.afterProofs content.initsAndTeardowns buffers.initsAndTeardowns
    (content.afterFamilies buffers).log

/-- The state in which the delegation proofs start. -/
def beforeDelegations : DelegationState numSets :=
  .start (content.afterInits buffers).log buffers.delegation
    (content.afterFamilies buffers).delegationUsed

/-- The states in which the loops end. -/
def proofs : UnrolledProofs numSets where
  finalState := content.finalState
  families := content.afterFamilies buffers
  initsAndTeardowns := content.afterInits buffers
  delegations := (content.beforeDelegations buffers).afterAll content.delegations

/-- What the assertions between the proofs ask for. -/
@[mk_iff]
structure AllowsProofs : Prop where
  x0 : (content.finalState.registers.get 0).value = 0
  families : Allowed (fun _ entry state => FamiliesState.AllowsProofs entry state)
    (fun _ => FamiliesState.afterProofs) 0 content.families (.start buffers content.finalState)
  initsAndTeardowns : InitsAndTeardownsState.AllowsProofs arguments.initsAndTeardownsVerifier.1
    content.initsAndTeardowns buffers.initsAndTeardowns (content.afterFamilies buffers).log
  delegations : DelegationState.AllowsAll
    (content.afterFamilies buffers).outputs.proofOutput0.memoryChallenges
    (content.afterFamilies buffers).outputsWithDelegation.proofOutput0.delegationChallenges
    content.delegations (content.beforeDelegations buffers)

/-- The challenges that the seed determines are those of the first buffers. -/
@[mk_iff]
structure AllowsChallenges (expected : ExternalChallenges) : Prop where
  memory : expected.memoryArgument =
    (content.proofs buffers).families.outputs.proofOutput0.memoryChallenges
  delegation : (content.proofs buffers).delegations.delegationUsed = true →
    expected.delegationArgument = some
      ((content.proofs buffers).families.outputsWithDelegation.proofOutput0.delegationChallenges.get
        0)
  machineState : expected.machineStatePermutationArgument = some
    ((content.proofs buffers).families.outputs.proofOutput0.machineStatePermutationChallenges.get 0)

/-- What all assertions of the statement ask for. -/
@[mk_iff]
structure Holds : Prop where
  setups : arguments.circuitsFamiliesSetups.length = arguments.circuitsFamiliesVerifiers.length
  proofs : content.AllowsProofs arguments buffers
  challenges : ∃ expected,
    ExternalChallenges.drawFromTranscriptSeedWithStatePermutation content.memorySeed
      arguments.memoryDelegationPowBits content.powChallenge = some expected ∧
    content.AllowsChallenges buffers expected
  balances : Balances content.finalState
    (content.proofs buffers).families.outputs.proofOutput0.memoryChallenges
    ((content.proofs buffers).families.outputs.proofOutput0.machineStatePermutationChallenges.get
      0)
    (content.proofs buffers).delegations.log
  chain : ChainHolds content.finalState content.preimage

/-- What the statement keeps and returns. -/
def run : StatementRun numSets where
  finalState := content.finalState
  proofCounts := content.counts
  accepted := content.accepted
  memorySeed := content.memorySeed
  powChallenge := content.powChallenge
  chainPreimage := content.preimage
  output := (content.finalState.outputRegisters,
    chainAfter content.finalState arguments.setups content.preimage)

end UnrolledContent

section Unrolled

variable {arguments : UnrolledArguments numSets} {content : UnrolledContent numSets}

/-- The verifiers of the statement are those of the content, and read their proofs. -/
structure UnrolledArguments.Fits (arguments : UnrolledArguments numSets)
    (content : UnrolledContent numSets) : Prop where
  families : arguments.families = content.families.map Prod.fst
  delegations : arguments.delegationCircuitsVerifiers = content.delegations.map Prod.fst
  preimage : content.preimage.isSome = !arguments.baseLayer
  readsFamilies : ∀ entry ∈ content.families, ∀ single ∈ entry.2, entry.1.1.Reads single
  readsInits : ∀ single ∈ content.initsAndTeardowns,
    single.ReadBy arguments.initsAndTeardownsVerifier.2
  readsDelegations : ∀ entry ∈ content.delegations, ∀ single ∈ entry.2,
    single.ReadBy entry.1.verificationFunction

/-- The log ends with the numbers and the proofs of the content. -/
theorem UnrolledContent.adds_proofs (content : UnrolledContent numSets)
    (buffers : UnrolledBuffers numSets) :
    (ProofLog.start content.finalState.transcript).Adds (content.proofs buffers).delegations.log
      content.counts content.accepted := by
  have families := ProofLog.Adds.passedKinds FamiliesState.log FamiliesState.adds_proofs 0
    content.families (.start buffers content.finalState)
  have inits := InitsAndTeardownsState.adds_proofs content.initsAndTeardowns
    buffers.initsAndTeardowns (content.afterFamilies buffers).log
  have delegations := ProofLog.Adds.passedKinds DelegationState.log DelegationState.adds_proofs 0
    content.delegations (content.beforeDelegations buffers)
  exact (families.trans inits).trans delegations

theorem UnrolledArguments.Fits.returnsIff_verifyProofs (fits : arguments.Fits content)
    (few : content.Few) (buffers : UnrolledBuffers numSets) :
    ReturnsIff (arguments.verifyProofs buffers) content.proofWords
      (content.AllowsProofs arguments buffers) (content.proofs buffers) := by
  have families : ReturnsIff
      (Reader.each FamiliesState.proofs (content.families.map Prod.fst)
        (.start buffers content.finalState))
      (content.families.flatMap fun entry => kindWords entry.2)
      (Allowed (fun _ entry state => FamiliesState.AllowsProofs entry state)
        (fun _ => FamiliesState.afterProofs) 0 content.families
        (.start buffers content.finalState))
      (content.afterFamilies buffers) :=
    ReturnsIff.each (fun _ => True)
      (fun _ entry state member _ => FamiliesState.returnsIff_proofs (few.families entry member)
        (fits.readsFamilies entry member) state)
      (fun _ _ _ _ _ _ => trivial) 0 trivial
  have inits := InitsAndTeardownsState.returnsIff_proofs few.initsAndTeardowns fits.readsInits
    arguments.initsAndTeardownsVerifier.1 buffers.initsAndTeardowns
    (content.afterFamilies buffers).log
  rw [UnrolledArguments.verifyProofs, fits.families, fits.delegations]
  refine ReturnsIff.congr ?_ (content.allowsProofs_iff arguments buffers).symm fun _ => rfl
  refine content.finalState.returnsIff_read.bind fun _ => ?_
  refine families.bind fun allowedFamilies => ?_
  refine inits.bind fun allowedInits => ?_
  have start : (FamiliesState.start buffers content.finalState).log.Tracks
      content.finalState.transcriptWords := content.finalState.tracks
  have familiesTrack := FamiliesState.tracks_each start (families.returns allowedFamilies [])
  obtain ⟨numCircuits, _, -, initsLoop⟩ :=
    InitsAndTeardownsState.proofs_cases (inits.returns allowedInits [])
  have initsTrack : (content.beforeDelegations buffers).log.Tracks
      content.finalState.transcriptWords :=
    familiesTrack.loop (InitsAndTeardownsState.acceptsNext _ _) rfl initsLoop
  refine ReturnsIff.met_bind initsTrack.fullBuffer ?_
  have delegations := DelegationState.returnsIff_run
    (content.afterFamilies buffers).outputs.proofOutput0.memoryChallenges
    (content.afterFamilies buffers).outputsWithDelegation.proofOutput0.delegationChallenges
    few.delegations fits.readsDelegations initsTrack
  exact delegations.map fun delegations : DelegationState numSets =>
    ({ finalState := content.finalState
       families := content.afterFamilies buffers
       initsAndTeardowns := content.afterInits buffers
       delegations := delegations } : UnrolledProofs numSets)

theorem UnrolledContent.returnsIff_checkChallenges (content : UnrolledContent numSets)
    (buffers : UnrolledBuffers numSets) (expected : ExternalChallenges) :
    ReturnsIff
      (UnrolledArguments.checkChallenges expected
        (content.proofs buffers).families.outputs.proofOutput0
        (content.proofs buffers).families.outputsWithDelegation.proofOutput0
        (content.proofs buffers).delegations.delegationUsed)
      [] (content.AllowsChallenges buffers expected) ⟨⟩ := by
  rw [UnrolledArguments.checkChallenges]
  refine ReturnsIff.congr ?_ (content.allowsChallenges_iff buffers expected).symm fun _ => rfl
  exact ReturnsIff.check_bind fun _ => ReturnsIff.check_bind fun _ => ReturnsIff.check _

/-- The unrolled statement reads exactly the words of the content where its assertions hold,
and keeps the content. -/
theorem UnrolledArguments.Fits.returnsIff (fits : arguments.Fits content) (few : content.Few)
    (buffers : UnrolledBuffers numSets) :
    ReturnsIff (verifyFullStatementForUnrolledCircuits arguments buffers) content.words
      (content.Holds arguments buffers) (content.run arguments) := by
  have proofs := fits.returnsIff_verifyProofs few buffers
  have adds := content.adds_proofs buffers
  have counts : (content.proofs buffers).delegations.log.proofCounts = content.counts :=
    adds.counts
  have accepted : (content.proofs buffers).delegations.log.accepted = content.accepted :=
    adds.accepted
  rw [verifyFullStatementForUnrolledCircuits, UnrolledContent.words]
  refine ReturnsIff.congr ?_ (content.holds_iff arguments buffers).symm fun _ => rfl
  refine ReturnsIff.check_bind fun _ => proofs.bind fun allowed => ?_
  have seed : (content.proofs buffers).memorySeed = content.memorySeed := by
    rw [UnrolledArguments.verifyProofs_memorySeed (proofs.returns allowed []), accepted]
    rfl
  have isFinal : (content.proofs buffers).finalState = content.finalState := rfl
  rw [UnrolledArguments.finish, seed, isFinal]
  refine ReturnsIff.returns_bind (returns_readPowChallenge content.powChallenge) ?_
  refine ReturnsIff.ofOption_bind_and fun expected _ => ?_
  refine (content.returnsIff_checkChallenges buffers expected).nil_bind fun _ => ?_
  have balanced := returnsIff_checkAccumulators content.finalState
    (content.proofs buffers).families.outputs.proofOutput0.memoryChallenges
    ((content.proofs buffers).families.outputs.proofOutput0.machineStatePermutationChallenges.get
      0)
    (content.proofs buffers).delegations.log
  refine ReturnsIff.nil_bind balanced fun _ => ?_
  have chained := returnsIff_chainOutput fits.preimage content.finalState arguments.setups
  refine (chained.map fun chain => ({
      finalState := content.finalState
      proofCounts := (content.proofs buffers).delegations.log.proofCounts
      accepted := (content.proofs buffers).delegations.log.accepted
      memorySeed := content.memorySeed
      powChallenge := content.powChallenge
      chainPreimage := chain.2
      output := (content.finalState.outputRegisters, chain.1) } : StatementRun numSets)).congr
    Iff.rfl fun _ => ?_
  rw [counts, accepted, UnrolledContent.run]

end Unrolled

/-! ## The unified statement -/

/-- What a program proof says to the unified statement. -/
structure UnifiedContent where
  finalState : FinalMachineState
  unified : UnifiedState.Entry
  delegations : List DelegationState.Entry
  powChallenge : U64
  preimage : Option ChainPreimage

namespace UnifiedContent

variable (content : UnifiedContent) (arguments : UnifiedArguments) (buffers : UnifiedBuffers)

/-- The words up to the last delegation proof: no inits and teardowns are counted. -/
def proofWords : List U32 :=
  content.finalState.words ++ (kindWords content.unified ++
    ([0] ++ content.delegations.flatMap fun entry => kindWords entry.2))

/-- All words in their order. -/
def words : List U32 :=
  content.proofWords ++
    (powChallengeWords content.powChallenge ++ preimageWords content.preimage)

/-- The numbers of proofs of all kinds. -/
def counts : List U32 :=
  [countWord content.unified, 0] ++ content.delegations.map fun entry => countWord entry.2

/-- All proofs, each under its kind and its number. -/
def accepted : List (AcceptedProof 1) :=
  content.unified.mapIdx UnifiedState.accepted ++
    content.delegations.flatMap fun entry => entry.2.mapIdx (DelegationState.accepted entry.1)

/-- A count fits in a word. -/
structure Few : Prop where
  unified : content.unified.length < 2 ^ 32
  delegations : ∀ entry ∈ content.delegations, entry.2.length < 2 ^ 32

/-- The seed of all challenges. -/
def memorySeed : Seed :=
  digest (content.finalState.transcriptWords ++
    content.accepted.flatMap AcceptedProof.transcriptWords)

def afterUnified : UnifiedState :=
  UnifiedState.afterProofs arguments.unifiedCircuitCapacity content.unified buffers.outputs
    content.finalState

/-- The log with the number of inits and teardowns. -/
def afterNoInits : ProofLog 1 :=
  { (content.afterUnified arguments buffers).log with
    proofCounts := (content.afterUnified arguments buffers).log.proofCounts ++ [0] }

/-- The state in which the delegation proofs start. -/
def beforeDelegations : DelegationState 1 :=
  .start (content.afterNoInits arguments buffers) buffers.delegation true

/-- The states in which the loops end. -/
def proofs : UnifiedProofs where
  finalState := content.finalState
  unified := content.afterUnified arguments buffers
  delegations := (content.beforeDelegations arguments buffers).afterAll content.delegations

/-- What the assertions between the proofs ask for. -/
@[mk_iff]
structure AllowsProofs : Prop where
  x0 : (content.finalState.registers.get 0).value = 0
  unified : UnifiedState.AllowsProofs arguments.unifiedCircuitSetup
    arguments.unifiedCircuitCapacity content.unified buffers.outputs content.finalState
  delegations : DelegationState.AllowsAll
    (content.afterUnified arguments buffers).outputs.proofOutput0.memoryChallenges
    (content.afterUnified arguments buffers).outputs.proofOutput0.delegationChallenges
    content.delegations (content.beforeDelegations arguments buffers)

/-- The challenges that the seed determines are those of the first buffer. -/
@[mk_iff]
structure AllowsChallenges (expected : ExternalChallenges) : Prop where
  memory : expected.memoryArgument =
    (content.proofs arguments buffers).unified.outputs.proofOutput0.memoryChallenges
  delegation : expected.delegationArgument = some
    ((content.proofs arguments buffers).unified.outputs.proofOutput0.delegationChallenges.get 0)

/-- What all assertions of the statement ask for. -/
@[mk_iff]
structure Holds : Prop where
  proofs : content.AllowsProofs arguments buffers
  challenges : ∃ expected,
    ExternalChallenges.drawFromTranscriptSeed content.memorySeed true
      arguments.memoryDelegationPowBits content.powChallenge = some expected ∧
    content.AllowsChallenges arguments buffers expected
  balances : Balances content.finalState
    (content.proofs arguments buffers).unified.outputs.proofOutput0.memoryChallenges
    ((content.proofs arguments buffers).unified.outputs.proofOutput0.machineStatePermutationChallenges.get
      0)
    (content.proofs arguments buffers).delegations.log
  chain : ChainHolds content.finalState content.preimage

/-- What the statement keeps and returns. -/
def run : StatementRun 1 where
  finalState := content.finalState
  proofCounts := content.counts
  accepted := content.accepted
  memorySeed := content.memorySeed
  powChallenge := content.powChallenge
  chainPreimage := content.preimage
  output := (content.finalState.outputRegisters,
    chainAfter content.finalState
      [(content.proofs arguments buffers).unified.outputs.proofOutput0.setupCaps]
      content.preimage)

end UnifiedContent

section Unified

variable {arguments : UnifiedArguments} {content : UnifiedContent}

/-- The verifiers of the statement are those of the content, and read their proofs. -/
structure UnifiedArguments.Fits (arguments : UnifiedArguments) (content : UnifiedContent) :
    Prop where
  delegations : arguments.delegationCircuitsVerifiers = content.delegations.map Prod.fst
  preimage : content.preimage.isSome = !arguments.baseLayer
  readsUnified : ∀ single ∈ content.unified, single.ReadBy arguments.unifiedCircuitVerifier
  readsDelegations : ∀ entry ∈ content.delegations, ∀ single ∈ entry.2,
    single.ReadBy entry.1.verificationFunction

/-- The log ends with the numbers and the proofs of the content. -/
theorem UnifiedContent.adds_proofs (content : UnifiedContent) (arguments : UnifiedArguments)
    (buffers : UnifiedBuffers) :
    (ProofLog.start content.finalState.transcript).Adds
      (content.proofs arguments buffers).delegations.log content.counts content.accepted := by
  have unified := UnifiedState.adds_proofs arguments.unifiedCircuitCapacity content.unified
    buffers.outputs content.finalState
  have noInits : (content.afterUnified arguments buffers).log.Adds
      (content.afterNoInits arguments buffers) [0] [] := ⟨rfl, (List.append_nil _).symm⟩
  have delegations := ProofLog.Adds.passedKinds DelegationState.log DelegationState.adds_proofs 0
    content.delegations (content.beforeDelegations arguments buffers)
  have all := (unified.trans noInits).trans delegations
  rw [List.append_nil] at all
  exact all

theorem returns_readNoInitsAndTeardowns (log : ProofLog 1) :
    Returns (UnifiedArguments.readNoInitsAndTeardowns log) [0]
      { log with proofCounts := log.proofCounts ++ [0] } := by
  intro rest
  rfl

theorem UnifiedArguments.Fits.returnsIff_verifyProofs (fits : arguments.Fits content)
    (few : content.Few) (buffers : UnifiedBuffers) :
    ReturnsIff (arguments.verifyProofs buffers) content.proofWords
      (content.AllowsProofs arguments buffers) (content.proofs arguments buffers) := by
  have unified := UnifiedState.returnsIff_proofs few.unified fits.readsUnified buffers
    content.finalState
  rw [UnifiedArguments.verifyProofs, fits.delegations]
  refine ReturnsIff.congr ?_ (content.allowsProofs_iff arguments buffers).symm fun _ => rfl
  refine content.finalState.returnsIff_read.bind fun _ => ?_
  refine unified.bind fun allowedUnified => ?_
  refine ReturnsIff.returns_bind (returns_readNoInitsAndTeardowns _) ?_
  obtain ⟨numCircuits, _, -, -, unifiedLoop⟩ :=
    UnifiedArguments.proofs_cases (unified.returns allowedUnified [])
  have tracks : (content.beforeDelegations arguments buffers).log.Tracks
      content.finalState.transcriptWords :=
    content.finalState.tracks.loop (UnifiedState.acceptsNext _ _ _) rfl unifiedLoop
  refine ReturnsIff.met_bind tracks.fullBuffer ?_
  have delegations := DelegationState.returnsIff_run
    (content.afterUnified arguments buffers).outputs.proofOutput0.memoryChallenges
    (content.afterUnified arguments buffers).outputs.proofOutput0.delegationChallenges
    few.delegations fits.readsDelegations tracks
  exact delegations.map fun delegations : DelegationState 1 =>
    ({ finalState := content.finalState
       unified := content.afterUnified arguments buffers
       delegations := delegations } : UnifiedProofs)

theorem UnifiedContent.returnsIff_checkChallenges (content : UnifiedContent)
    (arguments : UnifiedArguments) (buffers : UnifiedBuffers) (expected : ExternalChallenges) :
    ReturnsIff
      (UnifiedArguments.checkChallenges expected
        (content.proofs arguments buffers).unified.outputs.proofOutput0)
      [] (content.AllowsChallenges arguments buffers expected) ⟨⟩ := by
  rw [UnifiedArguments.checkChallenges]
  refine ReturnsIff.congr ?_ (content.allowsChallenges_iff arguments buffers expected).symm
    fun _ => rfl
  exact ReturnsIff.check_bind fun _ => ReturnsIff.check _

/-- The unified statement reads exactly the words of the content where its assertions hold,
and keeps the content. -/
theorem UnifiedArguments.Fits.returnsIff (fits : arguments.Fits content) (few : content.Few)
    (buffers : UnifiedBuffers) :
    ReturnsIff (verifyUnifiedCircuitStatement arguments buffers) content.words
      (content.Holds arguments buffers) (content.run arguments buffers) := by
  have proofs := fits.returnsIff_verifyProofs few buffers
  have adds := content.adds_proofs arguments buffers
  have counts : (content.proofs arguments buffers).delegations.log.proofCounts =
      content.counts := adds.counts
  have accepted : (content.proofs arguments buffers).delegations.log.accepted =
      content.accepted := adds.accepted
  rw [verifyUnifiedCircuitStatement, UnifiedContent.words]
  refine ReturnsIff.congr ?_ (content.holds_iff arguments buffers).symm fun _ => rfl
  refine proofs.bind fun allowed => ?_
  have seed : (content.proofs arguments buffers).memorySeed = content.memorySeed := by
    rw [UnifiedArguments.verifyProofs_memorySeed (proofs.returns allowed []), accepted]
    rfl
  have isFinal : (content.proofs arguments buffers).finalState = content.finalState := rfl
  rw [UnifiedArguments.finish, seed, isFinal]
  refine ReturnsIff.returns_bind (returns_readPowChallenge content.powChallenge) ?_
  refine ReturnsIff.ofOption_bind_and fun expected _ => ?_
  refine (content.returnsIff_checkChallenges arguments buffers expected).nil_bind fun _ => ?_
  let proofOutput0 := (content.proofs arguments buffers).unified.outputs.proofOutput0
  have balanced := returnsIff_checkAccumulators content.finalState proofOutput0.memoryChallenges
    (proofOutput0.machineStatePermutationChallenges.get 0)
    (content.proofs arguments buffers).delegations.log
  refine ReturnsIff.nil_bind balanced fun _ => ?_
  have chained := returnsIff_chainOutput fits.preimage content.finalState
    [(content.proofs arguments buffers).unified.outputs.proofOutput0.setupCaps]
  refine (chained.map fun chain => ({
      finalState := content.finalState
      proofCounts := (content.proofs arguments buffers).delegations.log.proofCounts
      accepted := (content.proofs arguments buffers).delegations.log.accepted
      memorySeed := content.memorySeed
      powChallenge := content.powChallenge
      chainPreimage := chain.2
      output := (content.finalState.outputRegisters, chain.1) } : StatementRun 1)).congr
    Iff.rfl fun _ => ?_
  rw [counts, accepted, UnifiedContent.run]

end Unified

end Airbender.Statement
