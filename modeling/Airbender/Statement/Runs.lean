import Airbender.Statement.Unrolled
import Airbender.Statement.Unified

/-!
# Runs of the statement verifiers

What a successful pass of each loop does, said once, and what both statements keep along the
way: the transcript holds the final machine state and, for every accepted proof, its words.
-/

namespace Airbender.Statement

open StreamReader

variable {numSets : Nat}

/-! ## One pass of a loop -/

section Proofs

variable {numDelegationChallenges numAuxBoundaryValues numMachineStateChallenges : Nat}

theorem nextProof_eq_some_iff
    {verifierFn :
      VerifierFunctionPointer numDelegationChallenges numAuxBoundaryValues
        numMachineStateChallenges}
    {setup : MerkleTreeCaps} {circuitSequence : Nat}
    {outputs :
      ProofOutputs numDelegationChallenges numAuxBoundaryValues numMachineStateChallenges}
    {current :
      ProofOutput numDelegationChallenges numAuxBoundaryValues numMachineStateChallenges}
    {stream rest : List U32} :
    nextProof verifierFn setup circuitSequence outputs stream = some (current, rest) ↔
      verifierFn (outputs.current circuitSequence) stream = some (current, rest) ∧
        current.circuitSequence = 0 ∧ current.delegationType = 0 ∧
        Continues setup circuitSequence (outputs.previous circuitSequence) current := by
  simp only [nextProof, Reader.bind_eq_some_iff, Reader.check_eq_some_iff,
    checkContinuity_eq_some_iff, Reader.pure_eq_some_iff]
  constructor
  · rintro ⟨output, middle, verified, _, _, ⟨sequence, rfl⟩, _, _, ⟨type, rfl⟩, _, _,
      ⟨continues, rfl⟩, rfl, rfl⟩
    exact ⟨verified, sequence, type, continues⟩
  · rintro ⟨verified, sequence, type, continues⟩
    exact ⟨current, rest, verified, ⟨⟩, rest, ⟨sequence, rfl⟩, ⟨⟩, rest, ⟨type, rfl⟩, ⟨⟩, rest,
      ⟨continues, rfl⟩, rfl, rfl⟩

end Proofs

/-- The state after a proof of a family without delegations. -/
def FamiliesState.afterNoDelegation (state : FamiliesState numSets) (family : CircuitFamily)
    (circuitSequence : Nat) (current : ProofOutput 0 0 1) : FamiliesState numSets :=
  { state with
    log :=
      state.log.accept (.unrolledNoDelegation family.circuitFamily circuitSequence current)
        current.grandProductAccumulator state.log.delegationSetAccumulator
    outputs := state.outputs.write circuitSequence current
    totalCycles := state.totalCycles + family.capacity.toNat }

/-- The state after a proof of a family with delegations. -/
def FamiliesState.afterWithDelegation (state : FamiliesState numSets) (family : CircuitFamily)
    (circuitSequence : Nat) (current : ProofOutput 1 0 1) : FamiliesState numSets :=
  { state with
    log :=
      state.log.accept (.unrolledWithDelegation family.circuitFamily circuitSequence current)
        current.grandProductAccumulator
        (state.log.delegationSetAccumulator + current.delegationArgumentAccumulator.get 0)
    outputsWithDelegation := state.outputsWithDelegation.write circuitSequence current
    delegationUsed := true
    totalCycles := state.totalCycles + family.capacity.toNat }

/-- A proof of a family is of one kind or the other. -/
theorem FamiliesState.proof_cases {family : CircuitFamily} {setup : MerkleTreeCaps}
    {circuitSequence : Nat} {state next : FamiliesState numSets} {stream rest : List U32}
    (run : proof family setup circuitSequence state stream = some (next, rest)) :
    (∃ verifierFn current, family.verifierFn = .unrolledNoDelegation verifierFn ∧
      nextProof verifierFn setup circuitSequence state.outputs stream = some (current, rest) ∧
      next = state.afterNoDelegation family circuitSequence current) ∨
    (∃ verifierFn current, family.verifierFn = .unrolledWithDelegation verifierFn ∧
      nextProof verifierFn setup circuitSequence state.outputsWithDelegation stream =
        some (current, rest) ∧
      next = state.afterWithDelegation family circuitSequence current) := by
  obtain ⟨-, matched⟩ := Reader.check_bind_eq_some_iff.mp run
  cases kind : family.verifierFn with
  | unrolledNoDelegation verifierFn =>
      simp only [kind] at matched
      obtain ⟨current, middle, verified, finish⟩ := Reader.bind_eq_some_iff.mp matched
      obtain ⟨rfl, rfl⟩ := Reader.pure_eq_some_iff.mp finish
      exact Or.inl ⟨verifierFn, current, rfl, verified, rfl⟩
  | unrolledWithDelegation verifierFn =>
      simp only [kind] at matched
      obtain ⟨current, middle, verified, finish⟩ := Reader.bind_eq_some_iff.mp matched
      obtain ⟨rfl, rfl⟩ := Reader.pure_eq_some_iff.mp finish
      exact Or.inr ⟨verifierFn, current, rfl, verified, rfl⟩

/-- The state after an init and teardown proof. -/
def InitsAndTeardownsState.after (state : InitsAndTeardownsState numSets)
    (circuitSequence : Nat) (current : ProofOutput 0 numSets 0) :
    InitsAndTeardownsState numSets where
  log :=
    state.log.accept (.initAndTeardown circuitSequence current)
      current.grandProductAccumulator state.log.delegationSetAccumulator
  outputs := state.outputs.write circuitSequence current
  cellsInitialized :=
    state.cellsInitialized + BitVec.ofNat 32 numSets * initsAndTeardownsCapacityPerSet

theorem InitsAndTeardownsState.proof_cases {setup : MerkleTreeCaps}
    {verifierFn : VerifierFunctionPointer 0 numSets 0} {circuitSequence : Nat}
    {state next : InitsAndTeardownsState numSets} {stream rest : List U32}
    (run : proof setup verifierFn circuitSequence state stream = some (next, rest)) :
    ∃ current first last,
      nextProof verifierFn setup circuitSequence state.outputs stream = some (current, rest) ∧
      lastPrevious circuitSequence (state.outputs.previous circuitSequence) = some first ∧
      current.lazyInitBoundaryValues.toList.foldlM checkJunction first = some last ∧
      next = state.after circuitSequence current := by
  obtain ⟨-, run⟩ := Reader.check_bind_eq_some_iff.mp run
  obtain ⟨current, middle, verified, run⟩ := Reader.bind_eq_some_iff.mp run
  obtain ⟨first, firstEq, run⟩ := Reader.ofOption_bind_eq_some_iff.mp run
  obtain ⟨last, junctions, run⟩ := Reader.ofOption_bind_eq_some_iff.mp run
  obtain ⟨rfl, rfl⟩ := Reader.pure_eq_some_iff.mp run
  exact ⟨current, first, last, verified, firstEq, junctions, rfl⟩

/-- The state after a unified proof. -/
def UnifiedState.after (state : UnifiedState) (capacity : U32) (circuitSequence : Nat)
    (current : ProofOutput 1 1 1) : UnifiedState where
  log :=
    state.log.accept (.unified circuitSequence current) current.grandProductAccumulator
      (state.log.delegationSetAccumulator + current.delegationArgumentAccumulator.get 0)
  outputs := state.outputs.write circuitSequence current
  totalCycles := state.totalCycles + capacity.toNat

theorem UnifiedState.proof_cases {setup : MerkleTreeCaps} {capacity : U32}
    {verifierFn : VerifierFunctionPointer 1 1 1} {circuitSequence : Nat}
    {state next : UnifiedState} {stream rest : List U32}
    (run : proof setup capacity verifierFn circuitSequence state stream = some (next, rest)) :
    ∃ current,
      nextProof verifierFn setup circuitSequence state.outputs stream = some (current, rest) ∧
      (0 < circuitSequence →
        checkLazyInits ((state.outputs.previous circuitSequence).lazyInitBoundaryValues.get 0)
          (current.lazyInitBoundaryValues.get 0) = some ⟨⟩) ∧
      next = state.after capacity circuitSequence current := by
  obtain ⟨-, run⟩ := Reader.check_bind_eq_some_iff.mp run
  obtain ⟨current, middle, verified, run⟩ := Reader.bind_eq_some_iff.mp run
  obtain ⟨inits, run⟩ := Reader.check_bind_eq_some_iff.mp run
  obtain ⟨rfl, rfl⟩ := Reader.pure_eq_some_iff.mp run
  exact ⟨current, verified, inits, rfl⟩

/-- The state after a delegation proof. -/
def DelegationState.after (state : DelegationState numSets) (circuit : DelegationCircuit)
    (circuitSequence : Nat) (output : ProofOutput 1 0 0) : DelegationState numSets :=
  { state with
    log :=
      state.log.accept (.delegation circuit.delegationType circuitSequence output)
        output.grandProductAccumulator
        (state.log.delegationSetAccumulator - output.delegationArgumentAccumulator.get 0)
    delegationProofOutput := output
    totalDelegationRequests :=
      state.totalDelegationRequests + circuit.delegationRequestsPerCircuit.setWidth 64 }

theorem DelegationState.proof_cases {memoryChallenges : ExternalMemoryArgumentChallenges}
    {delegationChallenges : Vector ExternalDelegationArgumentChallenges 1}
    {circuit : DelegationCircuit} {circuitSequence : Nat} {state next : DelegationState numSets}
    {stream rest : List U32}
    (run : proof memoryChallenges delegationChallenges circuit circuitSequence state stream =
      some (next, rest)) :
    ∃ output,
      circuit.verificationFunction state.delegationProofOutput stream = some (output, rest) ∧
      output.memoryChallenges = memoryChallenges ∧
      output.delegationChallenges = delegationChallenges ∧
      next = state.after circuit circuitSequence output := by
  obtain ⟨output, middle, verified, run⟩ := Reader.bind_eq_some_iff.mp run
  obtain ⟨-, run⟩ := Reader.check_bind_eq_some_iff.mp run
  obtain ⟨-, run⟩ := Reader.check_bind_eq_some_iff.mp run
  obtain ⟨-, run⟩ := Reader.check_bind_eq_some_iff.mp run
  obtain ⟨memory, run⟩ := Reader.check_bind_eq_some_iff.mp run
  obtain ⟨delegation, run⟩ := Reader.check_bind_eq_some_iff.mp run
  obtain ⟨rfl, rfl⟩ := Reader.pure_eq_some_iff.mp run
  exact ⟨output, verified, memory, delegation, rfl⟩

/-! ## All proofs of a kind -/

theorem FamiliesState.proofs_cases {entry : CircuitFamily × MerkleTreeCaps}
    {state next : FamiliesState numSets} {stream rest : List U32}
    (run : proofs entry state stream = some (next, rest)) :
    ∃ numCircuits middle, stream = numCircuits :: middle ∧
      Reader.loop (proof entry.1 entry.2) 0 numCircuits.toNat
        { state with log := state.log.announce numCircuits entry.1.circuitFamily } middle =
          some (next, rest) :=
  Reader.token_bind_eq_some_iff.mp run

theorem InitsAndTeardownsState.proofs_cases
    {initsAndTeardownsVerifier : MerkleTreeCaps × VerifierFunctionPointer 0 numSets 0}
    {outputs : ProofOutputs 0 numSets 0} {log : ProofLog numSets}
    {next : InitsAndTeardownsState numSets} {stream rest : List U32}
    (run : proofs initsAndTeardownsVerifier outputs log stream = some (next, rest)) :
    ∃ numCircuits middle, stream = numCircuits :: middle ∧
      Reader.loop (proof initsAndTeardownsVerifier.1 initsAndTeardownsVerifier.2) 0
        numCircuits.toNat
        { log := log.announce numCircuits initsAndTeardownsFormalCircuitFamilyIdx
          outputs := outputs
          cellsInitialized := 0 } middle = some (next, rest) :=
  Reader.token_bind_eq_some_iff.mp run

theorem UnifiedArguments.proofs_cases {arguments : UnifiedArguments} {buffers : UnifiedBuffers}
    {finalState : FinalMachineState} {next : UnifiedState} {stream rest : List U32}
    (run : arguments.proofs buffers finalState stream = some (next, rest)) :
    ∃ numCircuits middle, stream = numCircuits :: middle ∧ 0 < numCircuits ∧
      Reader.loop
        (UnifiedState.proof arguments.unifiedCircuitSetup arguments.unifiedCircuitCapacity
          arguments.unifiedCircuitVerifier) 0 numCircuits.toNat
        { log := (ProofLog.start finalState.transcript).announce numCircuits
            reducedMachineCircuitFamilyIdx
          outputs := buffers.outputs
          totalCycles := 0 } middle = some (next, rest) := by
  obtain ⟨numCircuits, middle, front, run⟩ := Reader.token_bind_eq_some_iff.mp run
  obtain ⟨positive, run⟩ := Reader.check_bind_eq_some_iff.mp run
  exact ⟨numCircuits, middle, front, positive, run⟩

/-- The state in which the proofs of a delegation type start. -/
def DelegationState.announce (state : DelegationState numSets) (circuit : DelegationCircuit)
    (numCircuits : U32) : DelegationState numSets :=
  { state with
    log := state.log.announce numCircuits circuit.delegationType
    previousDelegationType := circuit.delegationType
    delegationUsed := state.delegationUsed || decide (0 < numCircuits) }

theorem DelegationState.proofs_cases {memoryChallenges : ExternalMemoryArgumentChallenges}
    {delegationChallenges : Vector ExternalDelegationArgumentChallenges 1}
    {circuit : DelegationCircuit} {state next : DelegationState numSets}
    {stream rest : List U32}
    (run : proofs memoryChallenges delegationChallenges circuit state stream =
      some (next, rest)) :
    ∃ numCircuits middle, stream = numCircuits :: middle ∧
      state.previousDelegationType < circuit.delegationType ∧
      Reader.loop (proof memoryChallenges delegationChallenges circuit) 0 numCircuits.toNat
        (state.announce circuit numCircuits) middle = some (next, rest) := by
  obtain ⟨order, run⟩ := Reader.check_bind_eq_some_iff.mp run
  obtain ⟨numCircuits, middle, front, run⟩ := Reader.token_bind_eq_some_iff.mp run
  obtain ⟨result, last, loop, run⟩ := Reader.bind_eq_some_iff.mp run
  obtain ⟨-, run⟩ := Reader.check_bind_eq_some_iff.mp run
  obtain ⟨rfl, rfl⟩ := Reader.pure_eq_some_iff.mp run
  exact ⟨numCircuits, middle, front, order, loop⟩

theorem DelegationState.run_cases {memoryChallenges : ExternalMemoryArgumentChallenges}
    {delegationChallenges : Vector ExternalDelegationArgumentChallenges 1}
    {circuits : List DelegationCircuit} {state next : DelegationState numSets}
    {stream rest : List U32}
    (run : DelegationState.run memoryChallenges delegationChallenges circuits state stream =
      some (next, rest)) :
    Reader.each (proofs memoryChallenges delegationChallenges) circuits state stream =
      some (next, rest) := by
  obtain ⟨result, middle, each, run⟩ := Reader.bind_eq_some_iff.mp run
  obtain ⟨-, run⟩ := Reader.check_bind_eq_some_iff.mp run
  obtain ⟨rfl, rfl⟩ := Reader.pure_eq_some_iff.mp run
  exact each

/-! ## What the transcript holds -/

/-- The transcript holds `words`, and after them the words of all accepted proofs. -/
def ProofLog.Tracks (log : ProofLog numSets) (words : List U32) : Prop :=
  log.transcript.Holds (words ++ log.accepted.flatMap AcceptedProof.transcriptWords)

/-- Before proof number `circuitSequence` of a kind: the kind was announced before the
first. -/
def ProofLog.TracksFrom (log : ProofLog numSets) (words : List U32) (circuitType : U32)
    (circuitSequence : Nat) : Prop :=
  log.transcript.Holds (words ++ log.accepted.flatMap AcceptedProof.transcriptWords ++
    if circuitSequence = 0 then markerBuffer circuitType else [])

/-- A pass of a loop over the proofs of a kind accepts the next proof of it. -/
def AcceptsNext {σ : Type} (logOf : σ → ProofLog numSets) (circuitType : U32)
    (body : Nat → σ → Verifier σ) : Prop :=
  ∀ circuitSequence state stream next rest,
    body circuitSequence state stream = some (next, rest) →
      ∃ proof grandProduct delegationSetAccumulator,
        proof.circuitType = circuitType ∧ proof.circuitSequence = circuitSequence ∧
          logOf next = (logOf state).accept proof grandProduct delegationSetAccumulator

theorem ProofLog.TracksFrom.accept {log : ProofLog numSets} {words : List U32}
    {proof : AcceptedProof numSets}
    (tracks : log.TracksFrom words proof.circuitType proof.circuitSequence)
    (grandProduct delegationSetAccumulator : Mersenne31Quartic) :
    (log.accept proof grandProduct delegationSetAccumulator).TracksFrom words
      proof.circuitType (proof.circuitSequence + 1) := by
  have absorbed := Blake2sBufferingTranscript.Holds.absorb tracks
    (MerkleTreeCap.flatten proof.memoryCaps)
  rw [TracksFrom, if_neg (Nat.succ_ne_zero _), List.append_nil]
  simp only [ProofLog.accept, List.flatMap_append, List.flatMap_singleton,
    AcceptedProof.transcriptWords]
  simp only [List.append_assoc] at absorbed ⊢
  exact absorbed

/-- The proofs of a kind go to the transcript in full. -/
theorem ProofLog.Tracks.loop {σ : Type} {logOf : σ → ProofLog numSets} {circuitType : U32}
    {body : Nat → σ → Verifier σ} (accepts : AcceptsNext logOf circuitType body)
    {before : ProofLog numSets} {words : List U32} (tracks : before.Tracks words)
    {numCircuits : U32} {state result : σ} {stream rest : List U32}
    (announced : logOf state = before.announce numCircuits circuitType)
    (run : Reader.loop body 0 numCircuits.toNat state stream = some (result, rest)) :
    (logOf result).Tracks words := by
  by_cases empty : numCircuits.toNat = 0
  · rw [empty] at run
    obtain ⟨rfl, -⟩ := Reader.loop_zero.mp run
    have zero : ¬ (0 : U32) < numCircuits := by
      intro positive
      have := BitVec.lt_def.mp positive
      omega
    rw [Tracks, announced, announce]
    simp only [if_neg zero]
    exact tracks
  · have positive : (0 : U32) < numCircuits := BitVec.lt_def.mpr (Nat.pos_of_ne_zero empty)
    have start : (logOf state).TracksFrom words circuitType 0 := by
      rw [TracksFrom, announced, announce, if_pos rfl]
      simp only [if_pos positive]
      exact tracks.absorb _
    have step : ∀ circuitSequence state stream next middle,
        (logOf state).TracksFrom words circuitType circuitSequence →
        body circuitSequence state stream = some (next, middle) →
        (logOf next).TracksFrom words circuitType (circuitSequence + 1) := by
      intro circuitSequence state stream next middle tracks pass
      obtain ⟨proof, grandProduct, delegationSet, rfl, rfl, accepted⟩ :=
        accepts _ _ _ _ _ pass
      rw [accepted]
      exact tracks.accept grandProduct delegationSet
    have final := Reader.loop_invariant
      (fun circuitSequence state => (logOf state).TracksFrom words circuitType circuitSequence)
      step start run
    rw [Nat.zero_add, TracksFrom, if_neg empty, List.append_nil] at final
    exact final

theorem FamiliesState.acceptsNext (family : CircuitFamily) (setup : MerkleTreeCaps) :
    AcceptsNext (fun state : FamiliesState numSets => state.log) family.circuitFamily
      (proof family setup) := by
  intro circuitSequence state stream next rest run
  rcases proof_cases run with ⟨_, current, -, -, rfl⟩ | ⟨_, current, -, -, rfl⟩
  · exact ⟨.unrolledNoDelegation _ _ _, _, _, rfl, rfl, rfl⟩
  · exact ⟨.unrolledWithDelegation _ _ _, _, _, rfl, rfl, rfl⟩

theorem InitsAndTeardownsState.acceptsNext (setup : MerkleTreeCaps)
    (verifierFn : VerifierFunctionPointer 0 numSets 0) :
    AcceptsNext InitsAndTeardownsState.log initsAndTeardownsFormalCircuitFamilyIdx
      (proof setup verifierFn) := by
  intro circuitSequence state stream next rest run
  obtain ⟨current, _, _, -, -, -, rfl⟩ := proof_cases run
  exact ⟨.initAndTeardown _ _, _, _, rfl, rfl, rfl⟩

theorem UnifiedState.acceptsNext (setup : MerkleTreeCaps) (capacity : U32)
    (verifierFn : VerifierFunctionPointer 1 1 1) :
    AcceptsNext UnifiedState.log reducedMachineCircuitFamilyIdx
      (proof setup capacity verifierFn) := by
  intro circuitSequence state stream next rest run
  obtain ⟨current, -, -, rfl⟩ := proof_cases run
  exact ⟨.unified _ _, _, _, rfl, rfl, rfl⟩

theorem DelegationState.acceptsNext (memoryChallenges : ExternalMemoryArgumentChallenges)
    (delegationChallenges : Vector ExternalDelegationArgumentChallenges 1)
    (circuit : DelegationCircuit) :
    AcceptsNext (fun state : DelegationState numSets => state.log) circuit.delegationType
      (proof memoryChallenges delegationChallenges circuit) := by
  intro circuitSequence state stream next rest run
  obtain ⟨output, -, -, -, rfl⟩ := proof_cases run
  exact ⟨.delegation _ _ _, _, _, rfl, rfl, rfl⟩

theorem FinalMachineState.tracks (finalState : FinalMachineState) :
    (ProofLog.start finalState.transcript : ProofLog numSets).Tracks
      finalState.transcriptWords := by
  have registers := Blake2sBufferingTranscript.holds_new.absorb
    (registerWords finalState.registers)
  have pc := registers.absorb finalState.finalPcBuffer
  rw [ProofLog.Tracks]
  simp only [ProofLog.start, List.flatMap_nil, List.append_nil]
  exact pc

theorem FamiliesState.tracks_each {entries : List (CircuitFamily × MerkleTreeCaps)}
    {state next : FamiliesState numSets} {words stream rest : List U32}
    (tracks : state.log.Tracks words)
    (run : Reader.each proofs entries state stream = some (next, rest)) :
    next.log.Tracks words := by
  apply Reader.each_invariant (fun state : FamiliesState numSets => state.log.Tracks words) ?_
    tracks run
  intro entry state stream next middle tracks pass
  obtain ⟨numCircuits, _, -, loop⟩ := proofs_cases pass
  exact tracks.loop (acceptsNext entry.1 entry.2) rfl loop

theorem DelegationState.tracks_each {memoryChallenges : ExternalMemoryArgumentChallenges}
    {delegationChallenges : Vector ExternalDelegationArgumentChallenges 1}
    {circuits : List DelegationCircuit} {state next : DelegationState numSets}
    {words stream rest : List U32} (tracks : state.log.Tracks words)
    (run : Reader.each (proofs memoryChallenges delegationChallenges) circuits state stream =
      some (next, rest)) : next.log.Tracks words := by
  apply Reader.each_invariant (fun state : DelegationState numSets => state.log.Tracks words) ?_
    tracks run
  intro circuit state stream next middle tracks pass
  obtain ⟨numCircuits, _, -, -, loop⟩ := proofs_cases pass
  exact tracks.loop (acceptsNext _ _ circuit) rfl loop

/-! ## Whole blocks -/

theorem FinalMachineState.length_transcriptWords (finalState : FinalMachineState) :
    finalState.transcriptWords.length = 112 := by
  rw [transcriptWords, List.length_append, length_registerWords]
  rfl

theorem AcceptedProof.dvd_length_transcriptWords (proof : AcceptedProof numSets) :
    16 ∣ proof.transcriptWords.length := by
  rw [transcriptWords, List.length_append, MerkleTreeCap.length_flatten]
  split
  · exact Nat.dvd_add (by decide : 16 ∣ 16) (by decide)
  · exact Nat.dvd_add (Nat.dvd_zero 16) (by decide)

theorem dvd_length_flatMap_transcriptWords (accepted : List (AcceptedProof numSets)) :
    16 ∣ (accepted.flatMap AcceptedProof.transcriptWords).length := by
  induction accepted with
  | nil => exact Nat.dvd_zero 16
  | cons proof accepted inductionHypothesis =>
      rw [List.flatMap_cons, List.length_append]
      exact Nat.dvd_add proof.dvd_length_transcriptWords inductionHypothesis

/-- "we will have full buffer (unflushed)". -/
theorem ProofLog.Tracks.fullBuffer {log : ProofLog numSets} {finalState : FinalMachineState}
    (tracks : log.Tracks finalState.transcriptWords) :
    log.transcript.getCurrentBufferOffset = Blake2s.blockSizeU32Words := by
  have length := finalState.length_transcriptWords
  apply Blake2sBufferingTranscript.Holds.offset_eq tracks
  · intro empty
    rw [List.append_eq_nil_iff] at empty
    rw [empty.1, List.length_nil] at length
    omega
  · rw [List.length_append, length]
    exact Nat.dvd_add (by decide) (dvd_length_flatMap_transcriptWords log.accepted)

/-! ## Whole statements -/

section Unrolled

variable {arguments : UnrolledArguments numSets} {buffers : UnrolledBuffers numSets}
  {proofs : UnrolledProofs numSets} {stream rest : List U32}

/-- The four loops of `verifyProofs`. -/
theorem UnrolledArguments.verifyProofs_cases
    (run : arguments.verifyProofs buffers stream = some (proofs, rest)) :
    ∃ afterState afterFamilies afterInits,
      FinalMachineState.read stream = some (proofs.finalState, afterState) ∧
      Reader.each FamiliesState.proofs arguments.families (.start buffers proofs.finalState)
        afterState = some (proofs.families, afterFamilies) ∧
      InitsAndTeardownsState.proofs arguments.initsAndTeardownsVerifier
        buffers.initsAndTeardowns proofs.families.log afterFamilies =
          some (proofs.initsAndTeardowns, afterInits) ∧
      Reader.each
        (DelegationState.proofs proofs.families.outputs.proofOutput0.memoryChallenges
          proofs.families.outputsWithDelegation.proofOutput0.delegationChallenges)
        arguments.delegationCircuitsVerifiers
        (.start proofs.initsAndTeardowns.log buffers.delegation proofs.families.delegationUsed)
        afterInits = some (proofs.delegations, rest) := by
  obtain ⟨finalState, afterState, readState, run⟩ := Reader.bind_eq_some_iff.mp run
  obtain ⟨families, afterFamilies, readFamilies, run⟩ := Reader.bind_eq_some_iff.mp run
  obtain ⟨inits, afterInits, readInits, run⟩ := Reader.bind_eq_some_iff.mp run
  obtain ⟨-, run⟩ := Reader.check_bind_eq_some_iff.mp run
  obtain ⟨delegations, _, readDelegations, run⟩ := Reader.bind_eq_some_iff.mp run
  obtain ⟨rfl, rfl⟩ := Reader.pure_eq_some_iff.mp run
  exact ⟨afterState, afterFamilies, afterInits, readState, readFamilies, readInits,
    DelegationState.run_cases readDelegations⟩

/-- The transcript holds the final machine state and all proofs. -/
theorem UnrolledArguments.verifyProofs_tracks
    (run : arguments.verifyProofs buffers stream = some (proofs, rest)) :
    proofs.delegations.log.Tracks proofs.finalState.transcriptWords := by
  obtain ⟨_, _, _, -, readFamilies, readInits, readDelegations⟩ := verifyProofs_cases run
  obtain ⟨numCircuits, _, -, initsLoop⟩ := InitsAndTeardownsState.proofs_cases readInits
  have start : (FamiliesState.start buffers proofs.finalState).log.Tracks
      proofs.finalState.transcriptWords := proofs.finalState.tracks
  have families := FamiliesState.tracks_each start readFamilies
  have inits := families.loop (InitsAndTeardownsState.acceptsNext _ _) rfl initsLoop
  exact DelegationState.tracks_each inits readDelegations

theorem UnrolledArguments.verifyProofs_memorySeed
    (run : arguments.verifyProofs buffers stream = some (proofs, rest)) :
    proofs.memorySeed = Blake2sBufferingTranscript.digest
      (proofs.finalState.transcriptWords ++
        proofs.delegations.log.accepted.flatMap AcceptedProof.transcriptWords) :=
  (verifyProofs_tracks run).finalizeReset_eq

end Unrolled

section Unified

variable {arguments : UnifiedArguments} {buffers : UnifiedBuffers} {proofs : UnifiedProofs}
  {stream rest : List U32}

theorem UnifiedArguments.readNoInitsAndTeardowns_cases {log next : ProofLog 1}
    (run : readNoInitsAndTeardowns log stream = some (next, rest)) :
    stream = 0 :: rest ∧ next = { log with proofCounts := log.proofCounts ++ [0] } := by
  obtain ⟨count, middle, rfl, run⟩ := Reader.token_bind_eq_some_iff.mp run
  obtain ⟨rfl, run⟩ := Reader.check_bind_eq_some_iff.mp run
  obtain ⟨rfl, rfl⟩ := Reader.pure_eq_some_iff.mp run
  exact ⟨rfl, rfl⟩

/-- The loops of `verifyProofs`. -/
theorem UnifiedArguments.verifyProofs_cases
    (run : arguments.verifyProofs buffers stream = some (proofs, rest)) :
    ∃ afterState afterUnified,
      FinalMachineState.read stream = some (proofs.finalState, afterState) ∧
      arguments.proofs buffers proofs.finalState afterState =
        some (proofs.unified, 0 :: afterUnified) ∧
      Reader.each
        (DelegationState.proofs proofs.unified.outputs.proofOutput0.memoryChallenges
          proofs.unified.outputs.proofOutput0.delegationChallenges)
        arguments.delegationCircuitsVerifiers
        (.start
          { proofs.unified.log with proofCounts := proofs.unified.log.proofCounts ++ [0] }
          buffers.delegation true)
        afterUnified = some (proofs.delegations, rest) := by
  obtain ⟨finalState, afterState, readState, run⟩ := Reader.bind_eq_some_iff.mp run
  obtain ⟨unified, afterUnified, readUnified, run⟩ := Reader.bind_eq_some_iff.mp run
  obtain ⟨log, afterInits, readInits, run⟩ := Reader.bind_eq_some_iff.mp run
  obtain ⟨rfl, rfl⟩ := readNoInitsAndTeardowns_cases readInits
  obtain ⟨-, run⟩ := Reader.check_bind_eq_some_iff.mp run
  obtain ⟨delegations, _, readDelegations, run⟩ := Reader.bind_eq_some_iff.mp run
  obtain ⟨rfl, rfl⟩ := Reader.pure_eq_some_iff.mp run
  exact ⟨afterState, afterInits, readState, readUnified,
    DelegationState.run_cases readDelegations⟩

theorem UnifiedArguments.verifyProofs_tracks
    (run : arguments.verifyProofs buffers stream = some (proofs, rest)) :
    proofs.delegations.log.Tracks proofs.finalState.transcriptWords := by
  obtain ⟨_, _, -, readUnified, readDelegations⟩ := verifyProofs_cases run
  obtain ⟨numCircuits, _, -, -, unifiedLoop⟩ := proofs_cases readUnified
  have unified := proofs.finalState.tracks.loop (UnifiedState.acceptsNext _ _ _) rfl unifiedLoop
  exact DelegationState.tracks_each unified readDelegations

theorem UnifiedArguments.verifyProofs_memorySeed
    (run : arguments.verifyProofs buffers stream = some (proofs, rest)) :
    proofs.memorySeed = Blake2sBufferingTranscript.digest
      (proofs.finalState.transcriptWords ++
        proofs.delegations.log.accepted.flatMap AcceptedProof.transcriptWords) :=
  (verifyProofs_tracks run).finalizeReset_eq

end Unified

end Airbender.Statement
