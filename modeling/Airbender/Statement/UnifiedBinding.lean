import Airbender.Statement.ChallengeBinding

/-!
# Which challenges unified proofs used

The unified statement draws no machine-state challenges from the transcript, and compares none.
-/

namespace Airbender.Statement

open StreamReader

/-! ## The unified statement -/

section Unified

variable {arguments : UnifiedArguments} {buffers : UnifiedBuffers} {stream rest : List U32}

/-- All unified proofs have one set of memory and delegation challenges, and so have the
buffers. -/
structure UnifiedState.Uniform (memoryChallenges : ExternalMemoryArgumentChallenges)
    (delegationChallenges : Vector ExternalDelegationArgumentChallenges 1)
    (circuitSequence : Nat) (state : UnifiedState) : Prop where
  accepted : ∀ proof ∈ state.log.accepted, proof.memoryChallenges = memoryChallenges ∧
    proof.delegationChallenges = delegationChallenges.toList
  memory0 : state.outputs.proofOutput0.memoryChallenges = memoryChallenges
  delegation0 : state.outputs.proofOutput0.delegationChallenges = delegationChallenges
  memoryPrevious :
    (state.outputs.previous circuitSequence).memoryChallenges = memoryChallenges
  delegationPrevious :
    (state.outputs.previous circuitSequence).delegationChallenges = delegationChallenges

/-- The first unified proof decides. -/
theorem UnifiedState.uniform_first {setup : MerkleTreeCaps} {capacity : U32}
    {verifierFn : VerifierFunctionPointer 1 1 1} {state next : UnifiedState}
    (nothing : state.log.accepted = [])
    (run : proof setup capacity verifierFn 0 state stream = some (next, rest)) :
    ∃ memoryChallenges delegationChallenges,
      next.Uniform memoryChallenges delegationChallenges 1 := by
  obtain ⟨current, -, -, rfl⟩ := proof_cases run
  refine ⟨current.memoryChallenges, current.delegationChallenges, ?_, rfl, rfl, rfl, rfl⟩
  intro proof member
  have only : proof ∈ [AcceptedProof.unified 0 current] := by
    change proof ∈ state.log.accepted ++ [AcceptedProof.unified 0 current] at member
    rwa [nothing] at member
  rw [List.mem_singleton.mp only]
  exact ⟨rfl, rfl⟩

theorem UnifiedState.Uniform.proof {setup : MerkleTreeCaps} {capacity : U32}
    {verifierFn : VerifierFunctionPointer 1 1 1} {circuitSequence : Nat}
    {state next : UnifiedState} {memoryChallenges : ExternalMemoryArgumentChallenges}
    {delegationChallenges : Vector ExternalDelegationArgumentChallenges 1}
    (uniform : state.Uniform memoryChallenges delegationChallenges circuitSequence)
    (later : 0 < circuitSequence)
    (run : proof setup capacity verifierFn circuitSequence state stream = some (next, rest)) :
    next.Uniform memoryChallenges delegationChallenges (circuitSequence + 1) := by
  obtain ⟨current, verified, -, rfl⟩ := proof_cases run
  obtain ⟨-, -, -, continues⟩ := nextProof_eq_some_iff.mp verified
  have memory : current.memoryChallenges = memoryChallenges :=
    (continues.memoryChallenges later).symm.trans uniform.memoryPrevious
  have delegation : current.delegationChallenges = delegationChallenges :=
    (continues.delegationChallenges later).symm.trans uniform.delegationPrevious
  refine ⟨?_, ?_, ?_, ?_, ?_⟩
  · intro proof member
    rcases List.mem_append.mp member with old | new
    · exact uniform.accepted proof old
    · rw [List.mem_singleton.mp new]
      exact ⟨memory, congrArg Vector.toList delegation⟩
  · change (state.outputs.write circuitSequence current).proofOutput0.memoryChallenges = _
    rw [ProofOutputs.proofOutput0_write]
    split
    · exact memory
    · exact uniform.memory0
  · change (state.outputs.write circuitSequence current).proofOutput0.delegationChallenges = _
    rw [ProofOutputs.proofOutput0_write]
    split
    · exact delegation
    · exact uniform.delegation0
  · change ((state.outputs.write circuitSequence current).previous _).memoryChallenges = _
    rw [ProofOutputs.previous_write_succ]
    exact memory
  · change ((state.outputs.write circuitSequence current).previous _).delegationChallenges = _
    rw [ProofOutputs.previous_write_succ]
    exact delegation

/-- There is at least one unified proof, and all agree with the first buffer. -/
theorem UnifiedArguments.proofs_uniform {finalState : FinalMachineState} {next : UnifiedState}
    (run : arguments.proofs buffers finalState stream = some (next, rest)) :
    ∀ proof ∈ next.log.accepted,
      proof.memoryChallenges = next.outputs.proofOutput0.memoryChallenges ∧
      proof.delegationChallenges =
        next.outputs.proofOutput0.delegationChallenges.toList := by
  obtain ⟨numCircuits, _, -, positive, loop⟩ := proofs_cases run
  obtain ⟨others, count⟩ : ∃ others, numCircuits.toNat = others + 1 :=
    Nat.exists_eq_succ_of_ne_zero (Nat.pos_iff_ne_zero.mp (BitVec.lt_def.mp positive))
  rw [count] at loop
  obtain ⟨state, _, first, loop⟩ := Reader.loop_succ.mp loop
  obtain ⟨memoryChallenges, delegationChallenges, uniform⟩ :=
    UnifiedState.uniform_first rfl first
  have final := Reader.loop_invariant
    (fun circuitSequence state => 0 < circuitSequence ∧
      UnifiedState.Uniform memoryChallenges delegationChallenges circuitSequence state)
    (fun _ _ _ _ _ invariant pass =>
      ⟨Nat.succ_pos _, invariant.2.proof invariant.1 pass⟩)
    ⟨Nat.one_pos, uniform⟩ loop
  intro proof member
  rw [final.2.memory0, final.2.delegation0]
  exact final.2.accepted proof member

/-- What a run compared in the end: nothing about the machine state. -/
theorem UnifiedArguments.finish_cases {proofs : UnifiedProofs} {run : StatementRun 1}
    (returns : arguments.finish proofs stream = some (run, rest)) :
    run.finalState = proofs.finalState ∧ run.accepted = proofs.delegations.log.accepted ∧
      run.memorySeed = proofs.memorySeed ∧
      ∃ challenges,
        ExternalChallenges.drawFromTranscriptSeed proofs.memorySeed true
          arguments.memoryDelegationPowBits run.powChallenge = some challenges ∧
        challenges.memoryArgument = proofs.unified.outputs.proofOutput0.memoryChallenges ∧
        challenges.delegationArgument =
          some (proofs.unified.outputs.proofOutput0.delegationChallenges.get 0) := by
  obtain ⟨powChallenge, _, -, returns⟩ := Reader.bind_eq_some_iff.mp returns
  obtain ⟨challenges, drawn, returns⟩ := Reader.ofOption_bind_eq_some_iff.mp returns
  obtain ⟨_, _, checked, returns⟩ := Reader.bind_eq_some_iff.mp returns
  obtain ⟨memory, checked⟩ := Reader.check_bind_eq_some_iff.mp checked
  obtain ⟨delegation, -⟩ := Reader.check_eq_some_iff.mp checked
  obtain ⟨_, _, -, returns⟩ := Reader.bind_eq_some_iff.mp returns
  obtain ⟨chain, _, -, returns⟩ := Reader.bind_eq_some_iff.mp returns
  obtain ⟨rfl, rfl⟩ := Reader.pure_eq_some_iff.mp returns
  exact ⟨rfl, rfl, rfl, challenges, drawn, memory, delegation⟩

/-- The memory and delegation challenges of all proofs are those of the transcript. -/
theorem verifyUnifiedCircuitStatement_links {run : StatementRun 1}
    (returns : verifyUnifiedCircuitStatement arguments buffers stream = some (run, rest)) :
    ∃ challenges, run.transcriptChallenges arguments.memoryDelegationPowBits = some challenges ∧
      ∀ proof ∈ run.accepted, proof.memoryChallenges = challenges.memoryArgument ∧
        ∀ delegation ∈ proof.delegationChallenges,
          challenges.delegationArgument = some delegation := by
  obtain ⟨proofs, middle, verified, finished⟩ := Reader.bind_eq_some_iff.mp returns
  obtain ⟨finalState, accepted, -, lessChallenges, drawnLess, memory, delegation⟩ :=
    UnifiedArguments.finish_cases finished
  have seed := UnifiedArguments.verifyProofs_memorySeed verified
  obtain ⟨_, _, -, readUnified, readDelegations⟩ :=
    UnifiedArguments.verifyProofs_cases verified
  have unified := UnifiedArguments.proofs_uniform readUnified
  have untouched : (DelegationState.start
      { proofs.unified.log with proofCounts := proofs.unified.log.proofCounts ++ [0] }
      buffers.delegation true).Extends
        proofs.unified.outputs.proofOutput0.memoryChallenges
        proofs.unified.outputs.proofOutput0.delegationChallenges
        proofs.unified.log.accepted true :=
    ⟨⟨[], (List.append_nil _).symm, fun _ member => absurd member List.not_mem_nil,
      fun nonempty => absurd rfl nonempty⟩, fun used => used⟩
  obtain ⟨⟨delegations, delegationsAccepted, delegationKinds, -⟩, -⟩ :=
    untouched.each readDelegations
  rw [ExternalChallenges.drawFromTranscriptSeed_eq] at drawnLess
  obtain ⟨challenges, drawn, rfl⟩ := Option.map_eq_some_iff.mp drawnLess
  refine ⟨challenges, ?_, ?_⟩
  · rw [StatementRun.transcriptChallenges, StatementRun.absorbedWords, finalState, accepted,
      ← seed]
    exact drawn
  · intro proof member
    have uniform : proof.memoryChallenges =
          proofs.unified.outputs.proofOutput0.memoryChallenges ∧
        proof.delegationChallenges =
          proofs.unified.outputs.proofOutput0.delegationChallenges.toList := by
      rw [accepted, delegationsAccepted] at member
      rcases List.mem_append.mp member with early | fromDelegations
      · exact unified proof early
      · obtain ⟨_, _, output, rfl, memory, delegation⟩ :=
          delegationKinds proof fromDelegations
        exact ⟨memory, congrArg Vector.toList delegation⟩
    refine ⟨uniform.1.trans memory.symm, ?_⟩
    intro carriedDelegation carried
    rw [uniform.2] at carried
    rw [eq_head_of_mem_toList carried]
    exact delegation

/-- The proofs of an accepted run used the challenges of the transcript exactly when the
unified proofs used its machine-state challenges, which nothing compares. -/
theorem verifyUnifiedCircuitStatement_bindsChallenges_iff {run : StatementRun 1}
    (returns : verifyUnifiedCircuitStatement arguments buffers stream = some (run, rest)) :
    run.BindsChallenges arguments.memoryDelegationPowBits ↔
      ∀ proof ∈ run.accepted, ∀ machineState ∈ proof.machineStatePermutationChallenges,
        (run.transcriptChallenges arguments.memoryDelegationPowBits).bind
          (fun challenges => challenges.machineStatePermutationArgument) = some machineState := by
  obtain ⟨challenges, drawn, bound⟩ := verifyUnifiedCircuitStatement_links returns
  rw [StatementRun.BindsChallenges, drawn, Option.bind_some]
  constructor
  · rintro ⟨transcriptChallenges, same, uses⟩ proof member machineState carried
    cases same
    exact (uses proof member).machineState machineState carried
  · intro machineStates
    refine ⟨challenges, rfl, ?_⟩
    intro proof member
    obtain ⟨memory, delegation⟩ := bound proof member
    exact ⟨memory, delegation, machineStates proof member⟩

end Unified

/-! ### Runs with one unified proof -/

section Samples

open Blake2s Blake2sBufferingTranscript

/-- The seed of such runs over zero registers and zero memory caps. -/
def unifiedSampleSeed : List Nat :=
  [3225913893, 3472013254, 1400015547, 1978354248, 1807895832, 1934598366, 2700792521, 418495800]

/-- A unified proof with the memory and delegation challenges of the transcript, and any for
the machine state. -/
def sampleUnifiedOutput (machineStateChallenges : ExternalMachineStateArgumentChallenges) :
    ProofOutput 1 1 1 :=
  sampleOutput 1 1 1 (ExternalChallenges.memoryOf (sampleElements unifiedSampleSeed))
    (ExternalChallenges.delegationOf (sampleElements unifiedSampleSeed)) machineStateChallenges

theorem sampleUnifiedOutput_memory
    (machineStateChallenges : ExternalMachineStateArgumentChallenges) :
    (sampleUnifiedOutput machineStateChallenges).memoryChallenges =
      (sampleChallenges unifiedSampleSeed).memoryArgument := rfl

def sampleUnifiedArguments (machineStateChallenges : ExternalMachineStateArgumentChallenges) :
    UnifiedArguments where
  baseLayer := true
  memoryDelegationPowBits := 0
  unifiedCircuitSetup := Vector.replicate numCosets .dummy
  unifiedCircuitCapacity := 1
  unifiedCircuitVerifier := sampleVerifier (sampleUnifiedOutput machineStateChallenges)
  delegationCircuitsVerifiers := []

/-- Buffers that hold no challenge of the transcript. -/
def sampleUnifiedBuffers : UnifiedBuffers where
  outputs :=
    { proofOutput0 := sampleOutput 1 1 1 (ExternalChallenges.memoryOf [])
        (ExternalChallenges.delegationOf []) (ExternalChallenges.machineStateOf [])
      proofOutput1 := sampleOutput 1 1 1 (ExternalChallenges.memoryOf [])
        (ExternalChallenges.delegationOf []) (ExternalChallenges.machineStateOf []) }
  delegation := sampleOutput 1 0 0 (ExternalChallenges.memoryOf [])
    (ExternalChallenges.delegationOf []) (ExternalChallenges.machineStateOf [])

/-- Final state, one unified proof, no inits and teardowns, and the nonce. -/
def sampleUnifiedStream : List U32 :=
  List.replicate 96 0 ++ [0, 4, 0] ++ [1] ++ [0] ++ [0, 0]

def sampleUnifiedAccepted
    (machineStateChallenges : ExternalMachineStateArgumentChallenges) :
    List (AcceptedProof 1) :=
  [.unified 0 (sampleUnifiedOutput machineStateChallenges)]

/-- The absorbed words in blocks. -/
def sampleUnifiedBlocks : List (List Nat) :=
  List.replicate 6 (List.replicate 16 0) ++ [0 :: 4 :: List.replicate 14 0] ++
    [128 :: List.replicate 15 0] ++ List.replicate 64 (List.replicate 16 0)

theorem sampleUnified_digest
    (machineStateChallenges : ExternalMachineStateArgumentChallenges) :
    digest (sampleState.transcriptWords ++
        (sampleUnifiedAccepted machineStateChallenges).flatMap
          AcceptedProof.transcriptWords) =
      wordsOfNat 8 unifiedSampleSeed := by
  have words : sampleState.transcriptWords ++
      (sampleUnifiedAccepted machineStateChallenges).flatMap AcceptedProof.transcriptWords =
        wordList sampleUnifiedBlocks.flatten := by
    change sampleState.transcriptWords ++ ((markerBuffer 128 ++ MerkleTreeCap.flatten
      (Vector.replicate numCosets .dummy)) ++ []) = _
    decide +kernel
  have whole : WholeBlocks sampleUnifiedBlocks := by
    apply wholeBlocks_of_forall
    · decide
    · decide +kernel
  have seed : digestBlocks configuredIvNat 0 sampleUnifiedBlocks = unifiedSampleSeed := by
    decide +kernel
  rw [words, digest_eq_digestBlocks whole, seed]

theorem sampleUnified_read : FinalMachineState.read sampleUnifiedStream =
    some (sampleState, [1] ++ [0] ++ [0, 0]) := by
  decide +kernel

theorem sampleUnified_verifyProofs
    (machineStateChallenges : ExternalMachineStateArgumentChallenges) :
    ∃ proofs, (sampleUnifiedArguments machineStateChallenges).verifyProofs
        sampleUnifiedBuffers sampleUnifiedStream = some (proofs, [0, 0]) ∧
      proofs.finalState = sampleState ∧
      proofs.delegations.log.accepted = sampleUnifiedAccepted machineStateChallenges ∧
      proofs.unified.outputs.proofOutput0 = sampleUnifiedOutput machineStateChallenges ∧
      proofs.delegations.log.grandProductAccumulator = 1 ∧
      proofs.delegations.log.delegationSetAccumulator = 0 := by
  let start : ProofLog 1 := .start sampleState.transcript
  let announced : UnifiedState :=
    { log := start.announce 1 reducedMachineCircuitFamilyIdx
      outputs := sampleUnifiedBuffers.outputs
      totalCycles := 0 }
  let unified : UnifiedState :=
    announced.after 1 0 (sampleUnifiedOutput machineStateChallenges)
  have readUnified : (sampleUnifiedArguments machineStateChallenges).proofs
      sampleUnifiedBuffers sampleState ([1] ++ [0] ++ [0, 0]) =
        some (unified, [0] ++ [0, 0]) := by
    have one : UnifiedState.proof (Vector.replicate numCosets .dummy) 1
        (sampleVerifier (sampleUnifiedOutput machineStateChallenges)) 0 announced
        ([0] ++ [0, 0]) = some (unified, [0] ++ [0, 0]) := by
      have few : (0 : Nat) + (1 : U32).toNat < maxCycles := by decide
      rw [UnifiedState.proof]
      apply Reader.check_bind_eq_some_iff.mpr
      refine ⟨few, ?_⟩
      apply Reader.bind_eq_some_iff.mpr
      refine ⟨sampleUnifiedOutput machineStateChallenges, _,
        nextProof_sample announced.outputs _, ?_⟩
      apply Reader.check_bind_eq_some_iff.mpr
      exact ⟨fun later => absurd later (Nat.lt_irrefl 0), rfl⟩
    rw [UnifiedArguments.proofs]
    apply Reader.token_bind_eq_some_iff.mpr
    refine ⟨1, _, rfl, ?_⟩
    apply Reader.check_bind_eq_some_iff.mpr
    refine ⟨by decide, ?_⟩
    exact Reader.loop_succ.mpr ⟨unified, _, one, Reader.loop_zero.mpr ⟨rfl, rfl⟩⟩
  let log : ProofLog 1 := { unified.log with proofCounts := unified.log.proofCounts ++ [0] }
  let delegations : DelegationState 1 := .start log sampleUnifiedBuffers.delegation true
  obtain ⟨numCircuits, _, -, -, unifiedLoop⟩ := UnifiedArguments.proofs_cases readUnified
  have tracks := sampleState.tracks.loop (UnifiedState.acceptsNext _ _ _) rfl unifiedLoop
  refine ⟨⟨sampleState, unified, delegations⟩, ?_, rfl, rfl, rfl, ?_, ?_⟩
  · rw [UnifiedArguments.verifyProofs]
    apply Reader.bind_eq_some_iff.mpr
    refine ⟨sampleState, _, sampleUnified_read, ?_⟩
    apply Reader.bind_eq_some_iff.mpr
    refine ⟨unified, _, readUnified, ?_⟩
    apply Reader.bind_eq_some_iff.mpr
    refine ⟨log, [0, 0], ?_, ?_⟩
    · apply Reader.token_bind_eq_some_iff.mpr
      exact ⟨0, _, rfl, Reader.check_bind_eq_some_iff.mpr ⟨rfl, rfl⟩⟩
    apply Reader.check_bind_eq_some_iff.mpr
    refine ⟨tracks.fullBuffer, ?_⟩
    apply Reader.bind_eq_some_iff.mpr
    refine ⟨delegations, _, ?_, rfl⟩
    rw [DelegationState.run]
    apply Reader.bind_eq_some_iff.mpr
    refine ⟨delegations, _, Reader.each_nil.mpr ⟨rfl, rfl⟩, ?_⟩
    have few : (0 : U64).toNat < mersenneCharacteristics := by decide
    exact Reader.check_bind_eq_some_iff.mpr ⟨few, rfl⟩
  · change (1 : Mersenne31Quartic) * 1 = 1
    decide +kernel
  · change (0 : Mersenne31Quartic) + 0 = 0
    decide +kernel

/-- Such a run returns if the machine-state contributions cancel. -/
theorem sampleUnified_returns {machineStateChallenges : ExternalMachineStateArgumentChallenges}
    (machineState : producePcIntoPermutationAccumulatorRaw initialPc initialTimestampPair
      sampleState.finalPc (sampleState.finalTsLow, sampleState.finalTsHigh)
      machineStateChallenges = some 1) :
    ∃ run, verifyUnifiedCircuitStatement (sampleUnifiedArguments machineStateChallenges)
        sampleUnifiedBuffers sampleUnifiedStream = some (run, []) ∧
      run.accepted = sampleUnifiedAccepted machineStateChallenges ∧
      run.transcriptChallenges 0 = some (sampleChallenges unifiedSampleSeed) := by
  obtain ⟨proofs, verified, finalState, accepted, proofOutput0, product, sum⟩ :=
    sampleUnified_verifyProofs machineStateChallenges
  have seed : proofs.memorySeed = wordsOfNat 8 unifiedSampleSeed := by
    rw [UnifiedArguments.verifyProofs_memorySeed verified, finalState, accepted,
      sampleUnified_digest]
  have registers : produceRegisterContributionIntoMemoryAccumulatorRaw
      (sampleChallenges unifiedSampleSeed).memoryArgument sampleState.registers = some 1 := by
    decide +kernel
  have contributions := sample_contributions registers machineState product sum []
  have machineState0 :
      (sampleUnifiedOutput machineStateChallenges).machineStatePermutationChallenges.get 0 =
        machineStateChallenges := rfl
  obtain ⟨chain, chained⟩ :=
    sample_chainOutput [(sampleUnifiedOutput machineStateChallenges).setupCaps]
  let run : StatementRun 1 :=
    { finalState := proofs.finalState
      proofCounts := proofs.delegations.log.proofCounts
      accepted := proofs.delegations.log.accepted
      memorySeed := proofs.memorySeed
      powChallenge := 0
      chainPreimage := none
      output := (proofs.finalState.outputRegisters, chain) }
  have finished : (sampleUnifiedArguments machineStateChallenges).finish proofs [0, 0] =
      some (run, []) := by
    apply Reader.bind_eq_some_iff.mpr
    refine ⟨0, [], sample_powChallenge, ?_⟩
    apply Reader.ofOption_bind_eq_some_iff.mpr
    refine ⟨{ sampleChallenges unifiedSampleSeed with machineStatePermutationArgument := none },
      ?_, ?_⟩
    · rw [seed, ExternalChallenges.drawFromTranscriptSeed_eq]
      exact Option.map_eq_some_iff.mpr ⟨_, draw_sampleSeed rfl, rfl⟩
    apply Reader.bind_eq_some_iff.mpr
    refine ⟨⟨⟩, [], ?_, ?_⟩
    · rw [proofOutput0]
      apply Reader.check_bind_eq_some_iff.mpr
      exact ⟨(sampleUnifiedOutput_memory machineStateChallenges).symm,
        Reader.check_eq_some_iff.mpr ⟨rfl, rfl⟩⟩
    apply Reader.bind_eq_some_iff.mpr
    refine ⟨⟨⟩, [], ?_, ?_⟩
    · rw [proofOutput0, finalState, sampleUnifiedOutput_memory, machineState0]
      exact contributions
    apply Reader.bind_eq_some_iff.mpr
    refine ⟨(chain, none), [], ?_, rfl⟩
    rw [proofOutput0, finalState]
    exact chained
  refine ⟨run, ?_, accepted, ?_⟩
  · rw [verifyUnifiedCircuitStatement]
    apply Reader.bind_eq_some_iff.mpr
    exact ⟨proofs, [0, 0], verified, finished⟩
  · have absorbed : digest run.absorbedWords = wordsOfNat 8 unifiedSampleSeed := by
      rw [← seed, UnifiedArguments.verifyProofs_memorySeed verified]
      rfl
    rw [StatementRun.transcriptChallenges, absorbed]
    exact draw_sampleSeed rfl

/-- A run that binds its challenges. -/
theorem verifyUnifiedCircuitStatement_bindsChallenges_sample :
    ∃ run, verifyUnifiedCircuitStatement
        (sampleUnifiedArguments
          (ExternalChallenges.machineStateOf (sampleElements unifiedSampleSeed)))
        sampleUnifiedBuffers sampleUnifiedStream = some (run, []) ∧ run.BindsChallenges 0 := by
  have machineState : producePcIntoPermutationAccumulatorRaw initialPc initialTimestampPair
      sampleState.finalPc (sampleState.finalTsLow, sampleState.finalTsHigh)
      (ExternalChallenges.machineStateOf (sampleElements unifiedSampleSeed)) = some 1 := by
    decide +kernel
  obtain ⟨run, returns, accepted, drawn⟩ := sampleUnified_returns machineState
  refine ⟨run, returns, (verifyUnifiedCircuitStatement_bindsChallenges_iff returns).mpr ?_⟩
  intro proof member state carried
  rw [accepted, sampleUnifiedAccepted, List.mem_singleton] at member
  subst member
  have only : state = ExternalChallenges.machineStateOf (sampleElements unifiedSampleSeed) :=
    List.mem_singleton.mp carried
  rw [only]
  exact congrArg (fun challenges : Option ExternalChallenges => challenges.bind fun challenges =>
    challenges.machineStatePermutationArgument) drawn

/-- Machine-state challenges that a prover may choose: every state has the contribution of its
low program counter half plus one. -/
def chosenMachineStateChallenges : ExternalMachineStateArgumentChallenges where
  linearizationChallenges := Vector.replicate _ 0
  additiveTerm := 1

/-- A run that accepts a proof over machine-state challenges of its prover's choice. -/
theorem verifyUnifiedCircuitStatement_accepts_unbound :
    ∃ run, verifyUnifiedCircuitStatement
        (sampleUnifiedArguments chosenMachineStateChallenges) sampleUnifiedBuffers
        sampleUnifiedStream = some (run, []) ∧ ¬ run.BindsChallenges 0 := by
  have machineState : producePcIntoPermutationAccumulatorRaw initialPc initialTimestampPair
      sampleState.finalPc (sampleState.finalTsLow, sampleState.finalTsHigh)
      chosenMachineStateChallenges = some 1 := by
    decide +kernel
  obtain ⟨run, returns, accepted, drawn⟩ := sampleUnified_returns machineState
  refine ⟨run, returns, ?_⟩
  rintro ⟨challenges, same, uses⟩
  rw [accepted] at uses
  obtain rfl : sampleChallenges unifiedSampleSeed = challenges :=
    Option.some.inj (drawn.symm.trans same)
  have bound := (uses (.unified 0 (sampleUnifiedOutput chosenMachineStateChallenges))
    (List.mem_singleton_self _)).machineState chosenMachineStateChallenges
      (List.mem_singleton_self _)
  have equal : ExternalChallenges.machineStateOf (sampleElements unifiedSampleSeed) =
      chosenMachineStateChallenges := Option.some.inj bound
  revert equal
  decide +kernel

end Samples

end Airbender.Statement
