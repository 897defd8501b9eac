import Airbender.Statement.Runs
import Airbender.Transcript.Evaluation

/-!
# Which challenges the accepted proofs used

The statement verifiers compare challenges between consecutive proofs of a kind, of delegation
proofs with the first buffers, and of these buffers with the transcript.  This module says
which proofs are bound to the transcript by that.
-/

namespace Airbender.Statement

open StreamReader

variable {numSets : Nat}

theorem eq_head_of_mem_toList {α : Type} {single : Vector α 1} {element : α}
    (member : element ∈ single.toList) : element = single.get 0 := by
  obtain ⟨i, bound, rfl⟩ := List.mem_iff_getElem.mp member
  have zero : i = 0 := by
    rw [Vector.length_toList] at bound
    omega
  subst zero
  rfl

/-! ## Challenges of the transcript -/

/-- Every challenge that a proof carries is one of the given. -/
structure UsesChallenges (challenges : ExternalChallenges) (proof : AcceptedProof numSets) :
    Prop where
  memory : proof.memoryChallenges = challenges.memoryArgument
  delegation : ∀ delegation ∈ proof.delegationChallenges,
    challenges.delegationArgument = some delegation
  machineState : ∀ machineState ∈ proof.machineStatePermutationChallenges,
    challenges.machineStatePermutationArgument = some machineState

/-- All words that a run absorbed into the transcript. -/
def StatementRun.absorbedWords (run : StatementRun numSets) : List U32 :=
  run.finalState.transcriptWords ++ run.accepted.flatMap AcceptedProof.transcriptWords

/-- The challenges that the transcript and the nonce determine. -/
def StatementRun.transcriptChallenges (run : StatementRun numSets) (powBits : Nat) :
    Option ExternalChallenges :=
  ExternalChallenges.drawFromTranscriptSeedWithStatePermutation
    (Blake2sBufferingTranscript.digest run.absorbedWords) powBits run.powChallenge

/-- Every accepted proof used the challenges of the transcript. -/
def StatementRun.BindsChallenges (run : StatementRun numSets) (powBits : Nat) : Prop :=
  ∃ challenges, run.transcriptChallenges powBits = some challenges ∧
    ∀ proof ∈ run.accepted, UsesChallenges challenges proof

/-! ## First proofs of a kind -/

/-- A first proof of its kind has these challenges. -/
def HasRoot (accepted : List (AcceptedProof numSets))
    (memoryChallenges : ExternalMemoryArgumentChallenges)
    (delegationChallenges : List ExternalDelegationArgumentChallenges) : Prop :=
  ∃ first ∈ accepted, first.circuitSequence = 0 ∧
    first.memoryChallenges = memoryChallenges ∧
    first.delegationChallenges = delegationChallenges

/-- Every proof has the memory and delegation challenges of a first one. -/
def Rooted (accepted : List (AcceptedProof numSets)) : Prop :=
  ∀ proof ∈ accepted, HasRoot accepted proof.memoryChallenges proof.delegationChallenges

theorem HasRoot.append {accepted : List (AcceptedProof numSets)}
    {memoryChallenges : ExternalMemoryArgumentChallenges}
    {delegationChallenges : List ExternalDelegationArgumentChallenges}
    (root : HasRoot accepted memoryChallenges delegationChallenges)
    (more : List (AcceptedProof numSets)) :
    HasRoot (accepted ++ more) memoryChallenges delegationChallenges := by
  obtain ⟨first, member, properties⟩ := root
  exact ⟨first, List.mem_append_left more member, properties⟩

theorem Rooted.append {accepted : List (AcceptedProof numSets)} {proof : AcceptedProof numSets}
    (rooted : Rooted accepted)
    (root : HasRoot (accepted ++ [proof]) proof.memoryChallenges proof.delegationChallenges) :
    Rooted (accepted ++ [proof]) := by
  intro other member
  rcases List.mem_append.mp member with old | new
  · exact (rooted other old).append [proof]
  · rw [List.mem_singleton.mp new]
    exact root

section Proofs

variable {numDelegationChallenges numAuxBoundaryValues numMachineStateChallenges : Nat}
  {outputs :
    ProofOutputs numDelegationChallenges numAuxBoundaryValues numMachineStateChallenges}
  {current :
    ProofOutput numDelegationChallenges numAuxBoundaryValues numMachineStateChallenges}
  {setup : MerkleTreeCaps} {accepted : List (AcceptedProof numSets)}

/-- The previous output of a kind, if there is one, has a root. -/
def PreviousHasRoot (accepted : List (AcceptedProof numSets))
    (outputs :
      ProofOutputs numDelegationChallenges numAuxBoundaryValues numMachineStateChallenges)
    (circuitSequence : Nat) : Prop :=
  0 < circuitSequence →
    HasRoot accepted (outputs.previous circuitSequence).memoryChallenges
      (outputs.previous circuitSequence).delegationChallenges.toList

/-- The continuity checks give the next proof of a kind the root of the previous one. -/
theorem rooted_next {proof : AcceptedProof numSets}
    (memory : proof.memoryChallenges = current.memoryChallenges)
    (delegation : proof.delegationChallenges = current.delegationChallenges.toList)
    (continues :
      Continues setup proof.circuitSequence (outputs.previous proof.circuitSequence) current)
    (rooted : Rooted accepted)
    (previous : PreviousHasRoot accepted outputs proof.circuitSequence) :
    Rooted (accepted ++ [proof]) ∧
      PreviousHasRoot (accepted ++ [proof]) (outputs.write proof.circuitSequence current)
        (proof.circuitSequence + 1) := by
  have root : HasRoot (accepted ++ [proof]) proof.memoryChallenges
      proof.delegationChallenges := by
    by_cases first : proof.circuitSequence = 0
    · exact ⟨proof, List.mem_append_right accepted (List.mem_singleton_self proof), first, rfl,
        rfl⟩
    · have later := Nat.pos_of_ne_zero first
      have previousRoot := (previous later).append [proof]
      rw [continues.memoryChallenges later, continues.delegationChallenges later] at previousRoot
      rw [memory, delegation]
      exact previousRoot
  refine ⟨rooted.append root, ?_⟩
  intro _
  rw [ProofOutputs.previous_write_succ, ← memory, ← delegation]
  exact root

end Proofs

/-! ## The first buffers -/

/-- What `proof_output_0` holds after some proofs: the last one that was written to it. -/
def lastNoDelegation (initial : ProofOutput 0 0 1) (accepted : List (AcceptedProof numSets)) :
    ProofOutput 0 0 1 :=
  accepted.foldl
    (fun buffer proof =>
      match proof with
      | .unrolledNoDelegation _ circuitSequence output =>
          if circuitSequence % 2 = 0 then output else buffer
      | _ => buffer)
    initial

/-- What `proof_output_with_delegation_0` holds after some proofs. -/
def lastWithDelegation (initial : ProofOutput 1 0 1) (accepted : List (AcceptedProof numSets)) :
    ProofOutput 1 0 1 :=
  accepted.foldl
    (fun buffer proof =>
      match proof with
      | .unrolledWithDelegation _ circuitSequence output =>
          if circuitSequence % 2 = 0 then output else buffer
      | _ => buffer)
    initial

theorem lastNoDelegation_append (initial : ProofOutput 0 0 1)
    (accepted : List (AcceptedProof numSets)) (proof : AcceptedProof numSets) :
    lastNoDelegation initial (accepted ++ [proof]) =
      lastNoDelegation (lastNoDelegation initial accepted) [proof] :=
  List.foldl_append

theorem lastWithDelegation_append (initial : ProofOutput 1 0 1)
    (accepted : List (AcceptedProof numSets)) (proof : AcceptedProof numSets) :
    lastWithDelegation initial (accepted ++ [proof]) =
      lastWithDelegation (lastWithDelegation initial accepted) [proof] :=
  List.foldl_append

/-- A proof that is not of a circuit family. -/
def AcceptedProof.OutsideFamilies : AcceptedProof numSets → Prop
  | .initAndTeardown _ _ => True
  | .delegation _ _ _ => True
  | _ => False

/-- The first buffers of the families do not see other proofs. -/
theorem lastNoDelegation_of_outside (initial : ProofOutput 0 0 1)
    {others : List (AcceptedProof numSets)} (outside : ∀ proof ∈ others, proof.OutsideFamilies)
    (accepted : List (AcceptedProof numSets)) :
    lastNoDelegation initial (accepted ++ others) = lastNoDelegation initial accepted := by
  induction others using List.reverseRecOn with
  | nil => rw [List.append_nil]
  | append_singleton others proof inductionHypothesis =>
      have outsideProof := outside proof
        (List.mem_append_right others (List.mem_singleton_self proof))
      rw [← List.append_assoc, lastNoDelegation_append, inductionHypothesis fun proof member =>
        outside proof (List.mem_append_left _ member)]
      cases proof with
      | initAndTeardown | delegation => rfl
      | unrolledNoDelegation | unrolledWithDelegation | unified => exact outsideProof.elim

theorem lastWithDelegation_of_outside (initial : ProofOutput 1 0 1)
    {others : List (AcceptedProof numSets)} (outside : ∀ proof ∈ others, proof.OutsideFamilies)
    (accepted : List (AcceptedProof numSets)) :
    lastWithDelegation initial (accepted ++ others) = lastWithDelegation initial accepted := by
  induction others using List.reverseRecOn with
  | nil => rw [List.append_nil]
  | append_singleton others proof inductionHypothesis =>
      have outsideProof := outside proof
        (List.mem_append_right others (List.mem_singleton_self proof))
      rw [← List.append_assoc, lastWithDelegation_append, inductionHypothesis fun proof member =>
        outside proof (List.mem_append_left _ member)]
      cases proof with
      | initAndTeardown | delegation => rfl
      | unrolledNoDelegation | unrolledWithDelegation | unified => exact outsideProof.elim

/-! ## Families -/

/-- What the loops over the families know about the challenges. -/
structure FamiliesState.Linked (buffers : UnrolledBuffers numSets)
    (state : FamiliesState numSets) : Prop where
  rooted : Rooted state.log.accepted
  proofOutput0 : state.outputs.proofOutput0 =
    lastNoDelegation buffers.outputs.proofOutput0 state.log.accepted
  proofOutputWithDelegation0 : state.outputsWithDelegation.proofOutput0 =
    lastWithDelegation buffers.outputsWithDelegation.proofOutput0 state.log.accepted
  delegationUsed : ∀ proof ∈ state.log.accepted, proof.delegationChallenges ≠ [] →
    state.delegationUsed = true

/-- Inside a family also the previous proof is linked. -/
def FamiliesState.PreviousLinked (family : CircuitFamily) (circuitSequence : Nat)
    (state : FamiliesState numSets) : Prop :=
  match family.verifierFn with
  | .unrolledNoDelegation _ => PreviousHasRoot state.log.accepted state.outputs circuitSequence
  | .unrolledWithDelegation _ =>
      PreviousHasRoot state.log.accepted state.outputsWithDelegation circuitSequence

theorem FamiliesState.Linked.proof {buffers : UnrolledBuffers numSets} {family : CircuitFamily}
    {setup : MerkleTreeCaps} {circuitSequence : Nat} {state next : FamiliesState numSets}
    {stream rest : List U32} (linked : state.Linked buffers)
    (previous : state.PreviousLinked family circuitSequence)
    (run : proof family setup circuitSequence state stream = some (next, rest)) :
    next.Linked buffers ∧ next.PreviousLinked family (circuitSequence + 1) := by
  rcases proof_cases run with
    ⟨verifierFn, current, kind, verified, rfl⟩ | ⟨verifierFn, current, kind, verified, rfl⟩
  · obtain ⟨-, -, -, continues⟩ := nextProof_eq_some_iff.mp verified
    rw [PreviousLinked, kind] at previous
    let accepted : AcceptedProof numSets :=
      .unrolledNoDelegation family.circuitFamily circuitSequence current
    obtain ⟨rooted, nextPrevious⟩ :=
      @rooted_next _ _ _ _ _ _ _ _ accepted rfl rfl continues linked.rooted previous
    refine ⟨⟨rooted, ?_, ?_, ?_⟩, ?_⟩
    · change (state.outputs.write circuitSequence current).proofOutput0 =
        lastNoDelegation _ (state.log.accepted ++ [accepted])
      rw [lastNoDelegation_append, ← linked.proofOutput0, ProofOutputs.proofOutput0_write]
      rfl
    · change state.outputsWithDelegation.proofOutput0 =
        lastWithDelegation _ (state.log.accepted ++ [accepted])
      rw [lastWithDelegation_append, ← linked.proofOutputWithDelegation0]
      rfl
    · intro proof member delegates
      rcases List.mem_append.mp member with old | new
      · exact linked.delegationUsed proof old delegates
      · rw [List.mem_singleton.mp new] at delegates
        exact absurd (Vector.toList_eq_nil_iff.mpr rfl) delegates
    · rw [PreviousLinked, kind]
      exact nextPrevious
  · obtain ⟨-, -, -, continues⟩ := nextProof_eq_some_iff.mp verified
    rw [PreviousLinked, kind] at previous
    let accepted : AcceptedProof numSets :=
      .unrolledWithDelegation family.circuitFamily circuitSequence current
    obtain ⟨rooted, nextPrevious⟩ :=
      @rooted_next _ _ _ _ _ _ _ _ accepted rfl rfl continues linked.rooted previous
    refine ⟨⟨rooted, ?_, ?_, fun _ _ _ => rfl⟩, ?_⟩
    · change state.outputs.proofOutput0 =
        lastNoDelegation _ (state.log.accepted ++ [accepted])
      rw [lastNoDelegation_append, ← linked.proofOutput0]
      rfl
    · change (state.outputsWithDelegation.write circuitSequence current).proofOutput0 =
        lastWithDelegation _ (state.log.accepted ++ [accepted])
      rw [lastWithDelegation_append, ← linked.proofOutputWithDelegation0,
        ProofOutputs.proofOutput0_write]
      rfl
    · rw [PreviousLinked, kind]
      exact nextPrevious

theorem FamiliesState.Linked.each {buffers : UnrolledBuffers numSets}
    {entries : List (CircuitFamily × MerkleTreeCaps)} {state next : FamiliesState numSets}
    {stream rest : List U32} (linked : state.Linked buffers)
    (run : Reader.each proofs entries state stream = some (next, rest)) :
    next.Linked buffers := by
  apply Reader.each_invariant (fun state => state.Linked buffers) ?_ linked run
  intro entry state stream next middle linked pass
  obtain ⟨numCircuits, _, -, loop⟩ := proofs_cases pass
  have start : ∀ log : ProofLog numSets, log.accepted = state.log.accepted →
      FamiliesState.PreviousLinked entry.1 0 { state with log := log } := by
    intro log _
    rw [PreviousLinked]
    cases entry.1.verifierFn with
    | unrolledNoDelegation => exact fun later => absurd later (Nat.lt_irrefl 0)
    | unrolledWithDelegation => exact fun later => absurd later (Nat.lt_irrefl 0)
  have announced : FamiliesState.Linked buffers
      { state with log := state.log.announce numCircuits entry.1.circuitFamily } :=
    ⟨linked.rooted, linked.proofOutput0, linked.proofOutputWithDelegation0,
      linked.delegationUsed⟩
  have final := Reader.loop_invariant
    (fun circuitSequence (state : FamiliesState numSets) =>
      state.Linked buffers ∧ state.PreviousLinked entry.1 circuitSequence)
    (fun _ _ _ _ _ invariant pass => invariant.1.proof invariant.2 pass)
    ⟨announced, start _ rfl⟩ loop
  exact final.1

/-! ## Inits and teardowns -/

/-- Proofs of the init and teardown circuit only have memory challenges. -/
def AcceptedProof.IsInitAndTeardown (proof : AcceptedProof numSets) : Prop :=
  ∃ circuitSequence output, proof = .initAndTeardown circuitSequence output

theorem InitsAndTeardownsState.rooted_proofs
    {initsAndTeardownsVerifier : MerkleTreeCaps × VerifierFunctionPointer 0 numSets 0}
    {outputs : ProofOutputs 0 numSets 0} {log : ProofLog numSets}
    {next : InitsAndTeardownsState numSets} {stream rest : List U32}
    (rooted : Rooted log.accepted)
    (run : proofs initsAndTeardownsVerifier outputs log stream = some (next, rest)) :
    Rooted next.log.accepted ∧ ∃ inits, next.log.accepted = log.accepted ++ inits ∧
      ∀ proof ∈ inits, proof.IsInitAndTeardown := by
  obtain ⟨numCircuits, _, -, loop⟩ := proofs_cases run
  have final := Reader.loop_invariant
    (fun circuitSequence (state : InitsAndTeardownsState numSets) =>
      (Rooted state.log.accepted ∧
        PreviousHasRoot state.log.accepted state.outputs circuitSequence) ∧
      ∃ inits, state.log.accepted = log.accepted ++ inits ∧
        ∀ proof ∈ inits, proof.IsInitAndTeardown)
    (fun circuitSequence state stream next middle invariant pass => by
      obtain ⟨⟨rooted, previous⟩, inits, accepted, kinds⟩ := invariant
      obtain ⟨current, _, _, verified, -, -, rfl⟩ := proof_cases pass
      obtain ⟨-, -, -, continues⟩ := nextProof_eq_some_iff.mp verified
      let init : AcceptedProof numSets := .initAndTeardown circuitSequence current
      refine ⟨@rooted_next _ _ _ _ _ _ _ _ init rfl rfl continues rooted previous,
        inits ++ [init], ?_, ?_⟩
      · change state.log.accepted ++ [init] = _
        rw [accepted, List.append_assoc]
      · intro proof member
        rcases List.mem_append.mp member with old | new
        · exact kinds proof old
        · exact ⟨circuitSequence, current, List.mem_singleton.mp new⟩)
    ⟨⟨rooted, fun later => absurd later (Nat.lt_irrefl 0)⟩, [], (List.append_nil _).symm,
      fun _ member => absurd member List.not_mem_nil⟩
    loop
  exact ⟨final.1.1, final.2⟩

/-! ## Delegations -/

/-- A delegation proof with the challenges that all of them are compared with. -/
def AcceptedProof.IsDelegationWith (memoryChallenges : ExternalMemoryArgumentChallenges)
    (delegationChallenges : Vector ExternalDelegationArgumentChallenges 1)
    (proof : AcceptedProof numSets) : Prop :=
  ∃ delegationType circuitSequence output,
    proof = .delegation delegationType circuitSequence output ∧
      output.memoryChallenges = memoryChallenges ∧
      output.delegationChallenges = delegationChallenges

/-- The delegation proofs after those of `before`. -/
structure DelegationState.Extends (memoryChallenges : ExternalMemoryArgumentChallenges)
    (delegationChallenges : Vector ExternalDelegationArgumentChallenges 1)
    (before : List (AcceptedProof numSets)) (usedBefore : Bool)
    (state : DelegationState numSets) : Prop where
  accepted : ∃ delegations, state.log.accepted = before ++ delegations ∧
    (∀ proof ∈ delegations, proof.IsDelegationWith memoryChallenges delegationChallenges) ∧
    (delegations ≠ [] → state.delegationUsed = true)
  used : usedBefore = true → state.delegationUsed = true

theorem DelegationState.Extends.each {memoryChallenges : ExternalMemoryArgumentChallenges}
    {delegationChallenges : Vector ExternalDelegationArgumentChallenges 1}
    {before : List (AcceptedProof numSets)} {usedBefore : Bool}
    {circuits : List DelegationCircuit} {state next : DelegationState numSets}
    {stream rest : List U32}
    (extends_ : state.Extends memoryChallenges delegationChallenges before usedBefore)
    (run : Reader.each (proofs memoryChallenges delegationChallenges) circuits state stream =
      some (next, rest)) :
    next.Extends memoryChallenges delegationChallenges before usedBefore := by
  apply Reader.each_invariant
    (fun state => state.Extends memoryChallenges delegationChallenges before usedBefore) ?_
    extends_ run
  intro circuit state stream next middle initially pass
  obtain ⟨numCircuits, _, -, -, loop⟩ := proofs_cases pass
  obtain ⟨⟨delegations, accepted, kinds, usedByThem⟩, used⟩ := initially
  have announced : (state.announce circuit numCircuits).Extends memoryChallenges
      delegationChallenges before usedBefore := by
    refine ⟨⟨delegations, accepted, kinds, ?_⟩, ?_⟩
    · intro some
      rw [announce, usedByThem some, Bool.true_or]
    · intro usedFirst
      rw [announce, used usedFirst, Bool.true_or]
  by_cases empty : numCircuits.toNat = 0
  · rw [empty] at loop
    obtain ⟨rfl, -⟩ := Reader.loop_zero.mp loop
    exact announced
  · have positive : decide (0 < numCircuits) = true :=
      decide_eq_true (BitVec.lt_def.mpr (Nat.pos_of_ne_zero empty))
    have usedNow : (state.announce circuit numCircuits).delegationUsed = true := by
      rw [announce, positive, Bool.or_true]
    have final := Reader.loop_invariant
      (fun _ (state : DelegationState numSets) =>
        state.Extends memoryChallenges delegationChallenges before usedBefore ∧
          state.delegationUsed = true)
      (fun circuitSequence state stream next middle invariant pass => by
        obtain ⟨⟨⟨delegations, accepted, kinds, -⟩, -⟩, used⟩ := invariant
        obtain ⟨output, -, memory, delegation, rfl⟩ := proof_cases pass
        let last : AcceptedProof numSets :=
          .delegation circuit.delegationType circuitSequence output
        refine ⟨⟨⟨delegations ++ [last], ?_, ?_, fun _ => used⟩, fun _ => used⟩, used⟩
        · change state.log.accepted ++ [last] = _
          rw [accepted, List.append_assoc]
        · intro proof member
          rcases List.mem_append.mp member with old | new
          · exact kinds proof old
          · exact ⟨_, _, output, List.mem_singleton.mp new, memory, delegation⟩)
      ⟨announced, usedNow⟩ loop
    exact final.1

/-! ## The unrolled statement -/

section Unrolled

variable {arguments : UnrolledArguments numSets} {buffers : UnrolledBuffers numSets}
  {stream rest : List U32}

/-- What a run compared in the end. -/
theorem UnrolledArguments.finish_cases {proofs : UnrolledProofs numSets}
    {run : StatementRun numSets}
    (returns : arguments.finish proofs stream = some (run, rest)) :
    run.finalState = proofs.finalState ∧ run.accepted = proofs.delegations.log.accepted ∧
      run.memorySeed = proofs.memorySeed ∧
      ∃ challenges,
        ExternalChallenges.drawFromTranscriptSeedWithStatePermutation proofs.memorySeed
          arguments.memoryDelegationPowBits run.powChallenge = some challenges ∧
        challenges.memoryArgument = proofs.families.outputs.proofOutput0.memoryChallenges ∧
        (proofs.delegations.delegationUsed = true →
          challenges.delegationArgument = some
            (proofs.families.outputsWithDelegation.proofOutput0.delegationChallenges.get 0)) ∧
        challenges.machineStatePermutationArgument = some
          (proofs.families.outputs.proofOutput0.machineStatePermutationChallenges.get 0) := by
  obtain ⟨powChallenge, _, -, returns⟩ := Reader.bind_eq_some_iff.mp returns
  obtain ⟨challenges, drawn, returns⟩ := Reader.ofOption_bind_eq_some_iff.mp returns
  obtain ⟨_, _, checked, returns⟩ := Reader.bind_eq_some_iff.mp returns
  obtain ⟨memory, checked⟩ := Reader.check_bind_eq_some_iff.mp checked
  obtain ⟨delegation, checked⟩ := Reader.check_bind_eq_some_iff.mp checked
  obtain ⟨machineState, -⟩ := Reader.check_eq_some_iff.mp checked
  obtain ⟨_, _, -, returns⟩ := Reader.bind_eq_some_iff.mp returns
  obtain ⟨chain, _, -, returns⟩ := Reader.bind_eq_some_iff.mp returns
  obtain ⟨rfl, rfl⟩ := Reader.pure_eq_some_iff.mp returns
  exact ⟨rfl, rfl, rfl, challenges, drawn, memory, delegation, machineState⟩

/-- What the comparisons of a run reach: every proof has the challenges of a first proof or
those of the first buffers, and the first buffers have those of the transcript. -/
structure UnrolledLinks (arguments : UnrolledArguments numSets)
    (buffers : UnrolledBuffers numSets) (run : StatementRun numSets)
    (challenges : ExternalChallenges) : Prop where
  drawn : run.transcriptChallenges arguments.memoryDelegationPowBits = some challenges
  memory : challenges.memoryArgument =
    (lastNoDelegation buffers.outputs.proofOutput0 run.accepted).memoryChallenges
  delegation : ∀ proof ∈ run.accepted, proof.delegationChallenges ≠ [] →
    challenges.delegationArgument = some ((lastWithDelegation
      buffers.outputsWithDelegation.proofOutput0 run.accepted).delegationChallenges.get 0)
  machineState : challenges.machineStatePermutationArgument = some ((lastNoDelegation
    buffers.outputs.proofOutput0 run.accepted).machineStatePermutationChallenges.get 0)
  proofs : ∀ proof ∈ run.accepted,
    HasRoot run.accepted proof.memoryChallenges proof.delegationChallenges ∨
      proof.IsDelegationWith
        (lastNoDelegation buffers.outputs.proofOutput0 run.accepted).memoryChallenges
        (lastWithDelegation
          buffers.outputsWithDelegation.proofOutput0 run.accepted).delegationChallenges

theorem verifyFullStatement_links {run : StatementRun numSets}
    (returns : verifyFullStatementForUnrolledCircuits arguments buffers stream =
      some (run, rest)) :
    ∃ challenges, UnrolledLinks arguments buffers run challenges := by
  obtain ⟨-, returns⟩ := Reader.check_bind_eq_some_iff.mp returns
  obtain ⟨proofs, middle, verified, finished⟩ := Reader.bind_eq_some_iff.mp returns
  obtain ⟨finalState, accepted, -, challenges, drawn, memory, delegation, machineState⟩ :=
    UnrolledArguments.finish_cases finished
  have seed := UnrolledArguments.verifyProofs_memorySeed verified
  obtain ⟨_, _, _, -, readFamilies, readInits, readDelegations⟩ :=
    UnrolledArguments.verifyProofs_cases verified
  have start : (FamiliesState.start buffers proofs.finalState).Linked buffers :=
    ⟨fun _ member => absurd member List.not_mem_nil, rfl, rfl,
      fun _ member => absurd member List.not_mem_nil⟩
  have families := start.each readFamilies
  obtain ⟨rooted, inits, initsAccepted, initKinds⟩ :=
    InitsAndTeardownsState.rooted_proofs families.rooted readInits
  have untouched : (DelegationState.start proofs.initsAndTeardowns.log buffers.delegation
      proofs.families.delegationUsed).Extends
        proofs.families.outputs.proofOutput0.memoryChallenges
        proofs.families.outputsWithDelegation.proofOutput0.delegationChallenges
        proofs.initsAndTeardowns.log.accepted proofs.families.delegationUsed :=
    ⟨⟨[], (List.append_nil _).symm, fun _ member => absurd member List.not_mem_nil,
      fun nonempty => absurd rfl nonempty⟩, fun used => used⟩
  obtain ⟨⟨delegations, delegationsAccepted, delegationKinds, usedByThem⟩, used⟩ :=
    untouched.each readDelegations
  have all : run.accepted = proofs.families.log.accepted ++ (inits ++ delegations) := by
    rw [accepted, delegationsAccepted, initsAccepted, List.append_assoc]
  have outside : ∀ proof ∈ inits ++ delegations, proof.OutsideFamilies := by
    intro proof member
    rcases List.mem_append.mp member with init | delegation
    · obtain ⟨_, _, rfl⟩ := initKinds proof init
      trivial
    · obtain ⟨_, _, _, rfl, -, -⟩ := delegationKinds proof delegation
      trivial
  have proofOutput0 : proofs.families.outputs.proofOutput0 =
      lastNoDelegation buffers.outputs.proofOutput0 run.accepted := by
    rw [all, lastNoDelegation_of_outside _ outside, families.proofOutput0]
  have proofOutputWithDelegation0 : proofs.families.outputsWithDelegation.proofOutput0 =
      lastWithDelegation buffers.outputsWithDelegation.proofOutput0 run.accepted := by
    rw [all, lastWithDelegation_of_outside _ outside, families.proofOutputWithDelegation0]
  rw [proofOutput0] at memory machineState
  rw [proofOutputWithDelegation0] at delegation
  rw [proofOutput0, proofOutputWithDelegation0] at delegationKinds
  refine ⟨challenges, ?_, memory, ?_, machineState, ?_⟩
  · rw [StatementRun.transcriptChallenges, StatementRun.absorbedWords, finalState, accepted,
      ← seed]
    exact drawn
  · intro proof member delegates
    apply delegation
    rw [all] at member
    rcases List.mem_append.mp member with family | other
    · exact used (families.delegationUsed proof family delegates)
    · rcases List.mem_append.mp other with init | fromDelegations
      · obtain ⟨_, _, rfl⟩ := initKinds proof init
        exact absurd (Vector.toList_eq_nil_iff.mpr rfl) delegates
      · exact usedByThem (List.ne_nil_of_mem fromDelegations)
  · intro proof member
    rw [all, ← List.append_assoc, ← initsAccepted] at member
    rcases List.mem_append.mp member with early | fromDelegations
    · rw [all, ← List.append_assoc, ← initsAccepted]
      exact Or.inl ((rooted proof early).append delegations)
    · exact Or.inr (delegationKinds proof fromDelegations)

/-- Which proofs must agree for the comparisons to reach all of them: first proofs of a kind
with the first buffers, and every proof of a family in its machine-state challenges. -/
structure FirstProofsAgree (buffers : UnrolledBuffers numSets)
    (accepted : List (AcceptedProof numSets)) : Prop where
  memory : ∀ proof ∈ accepted, proof.circuitSequence = 0 →
    proof.memoryChallenges =
      (lastNoDelegation buffers.outputs.proofOutput0 accepted).memoryChallenges
  delegation : ∀ proof ∈ accepted, proof.circuitSequence = 0 →
    ∀ delegation ∈ proof.delegationChallenges, delegation = (lastWithDelegation
      buffers.outputsWithDelegation.proofOutput0 accepted).delegationChallenges.get 0
  machineState : ∀ proof ∈ accepted, ∀ machineState ∈ proof.machineStatePermutationChallenges,
    machineState = (lastNoDelegation
      buffers.outputs.proofOutput0 accepted).machineStatePermutationChallenges.get 0

/-- The proofs of an accepted run used the challenges of the transcript exactly when the first
proofs of all kinds, which nothing compares, agree. -/
theorem verifyFullStatement_bindsChallenges_iff {run : StatementRun numSets}
    (returns : verifyFullStatementForUnrolledCircuits arguments buffers stream =
      some (run, rest)) :
    run.BindsChallenges arguments.memoryDelegationPowBits ↔
      FirstProofsAgree buffers run.accepted := by
  obtain ⟨challenges, links⟩ := verifyFullStatement_links returns
  constructor
  · rintro ⟨transcriptChallenges, drawn, uses⟩
    obtain rfl : challenges = transcriptChallenges :=
      Option.some.inj (links.drawn.symm.trans drawn)
    refine ⟨?_, ?_, ?_⟩
    · intro proof member _
      rw [← links.memory]
      exact (uses proof member).memory
    · intro proof member _ delegation carried
      have drawnDelegation := (uses proof member).delegation delegation carried
      have bound := links.delegation proof member (List.ne_nil_of_mem carried)
      exact Option.some.inj (drawnDelegation.symm.trans bound)
    · intro proof member machineState carried
      have drawnState := (uses proof member).machineState machineState carried
      exact Option.some.inj (drawnState.symm.trans links.machineState)
  · intro agree
    refine ⟨challenges, links.drawn, ?_⟩
    intro proof member
    refine ⟨?_, ?_, ?_⟩
    · rcases links.proofs proof member with ⟨first, firstMember, isFirst, memory, -⟩ | delegation
      · rw [← memory, agree.memory first firstMember isFirst, links.memory]
      · obtain ⟨_, _, output, rfl, memory, -⟩ := delegation
        exact memory.trans links.memory.symm
    · intro delegation carried
      rw [links.delegation proof member (List.ne_nil_of_mem carried)]
      apply congrArg some
      rcases links.proofs proof member with
        ⟨first, firstMember, isFirst, -, delegations⟩ | fromDelegations
      · rw [← delegations] at carried
        exact (agree.delegation first firstMember isFirst delegation carried).symm
      · obtain ⟨_, _, output, rfl, -, delegations⟩ := fromDelegations
        have single : delegation ∈ output.delegationChallenges.toList := carried
        rw [delegations] at single
        exact (eq_head_of_mem_toList single).symm
    · intro machineState carried
      rw [links.machineState]
      exact congrArg some (agree.machineState proof member machineState carried).symm

end Unrolled

/-! ### Runs with one family proof and one init and teardown proof -/

section Samples

open Blake2s Blake2sBufferingTranscript

/-- The seed of such runs over zero registers and zero memory caps. -/
def unrolledSampleSeed : List Nat :=
  [2283434151, 2127960734, 3399888822, 2308289280, 76097549, 2721942051, 2678607582, 4179902803]

/-- The elements drawn from the seed. -/
def sampleElements (seed : List Nat) : List Mersenne31Quartic :=
  quarticsOfWords (wordList (seed ++ Blake2sTranscript.drawRoundsNat 7 seed))

/-- A proof over zero caps that contributes nothing to the accumulators. -/
def sampleOutput (numDelegationChallenges numAuxBoundaryValues numMachineStateChallenges : Nat)
    (memoryChallenges : ExternalMemoryArgumentChallenges)
    (delegationChallenges : ExternalDelegationArgumentChallenges)
    (machineStateChallenges : ExternalMachineStateArgumentChallenges) :
    ProofOutput numDelegationChallenges numAuxBoundaryValues numMachineStateChallenges where
  setupCaps := Vector.replicate numCosets .dummy
  memoryCaps := Vector.replicate numCosets .dummy
  memoryChallenges := memoryChallenges
  delegationChallenges := Vector.replicate numDelegationChallenges delegationChallenges
  machineStatePermutationChallenges :=
    Vector.replicate numMachineStateChallenges machineStateChallenges
  lazyInitBoundaryValues := Vector.replicate numAuxBoundaryValues
    { lazyInitFirstRow := Vector.replicate 2 0
      teardownValueFirstRow := Vector.replicate 2 0
      teardownTimestampFirstRow := Vector.replicate 2 0
      lazyInitOneBeforeLastRow := Vector.replicate 2 0
      teardownValueOneBeforeLastRow := Vector.replicate 2 0
      teardownTimestampOneBeforeLastRow := Vector.replicate 2 0 }
  grandProductAccumulator := 1
  delegationArgumentAccumulator := Vector.replicate numDelegationChallenges 0
  circuitSequence := 0
  delegationType := 0

/-- A verifier that reads nothing. -/
def sampleVerifier {numDelegationChallenges numAuxBoundaryValues numMachineStateChallenges : Nat}
    (output :
      ProofOutput numDelegationChallenges numAuxBoundaryValues numMachineStateChallenges) :
    VerifierFunctionPointer numDelegationChallenges numAuxBoundaryValues
      numMachineStateChallenges :=
  fun _ => pure output

/-- The machine has not moved from its first state. -/
def sampleState : FinalMachineState where
  registers := Vector.replicate 32 { value := 0, timestampLow := 0, timestampHigh := 0 }
  finalPc := 0
  finalTsLow := 4
  finalTsHigh := 0

/-- The challenges that a seed determines without proof of work. -/
def sampleChallenges (seed : List Nat) : ExternalChallenges where
  memoryArgument := ExternalChallenges.memoryOf (sampleElements seed)
  delegationArgument := some (ExternalChallenges.delegationOf (sampleElements seed))
  machineStatePermutationArgument :=
    some (ExternalChallenges.machineStateOf (sampleElements seed))

theorem draw_sampleSeed {seed : List Nat} (length : seed.length = 8) :
    ExternalChallenges.drawFromTranscriptSeedWithStatePermutation (wordsOfNat 8 seed) 0 0 =
      some (sampleChallenges seed) := by
  have elements : ExternalChallenges.drawElements (wordsOfNat 8 seed) 15 0 =
      sampleElements seed := by
    rw [ExternalChallenges.drawElements, Blake2sTranscript.drawRandomness_words length]
    rfl
  rw [sampleChallenges, ← elements]
  rfl

/-- A family proof with the challenges of the transcript. -/
def sampleFamilyOutput : ProofOutput 0 0 1 :=
  sampleOutput 0 0 1 (ExternalChallenges.memoryOf (sampleElements unrolledSampleSeed))
    (ExternalChallenges.delegationOf []) 
    (ExternalChallenges.machineStateOf (sampleElements unrolledSampleSeed))

theorem sampleFamilyOutput_memory : sampleFamilyOutput.memoryChallenges =
    (sampleChallenges unrolledSampleSeed).memoryArgument := rfl

theorem sampleFamilyOutput_machineState :
    sampleFamilyOutput.machineStatePermutationChallenges.get 0 =
      ExternalChallenges.machineStateOf (sampleElements unrolledSampleSeed) := rfl

/-- An init and teardown proof with any memory challenges. -/
def sampleInitOutput (memoryChallenges : ExternalMemoryArgumentChallenges) :
    ProofOutput 0 1 0 :=
  sampleOutput 0 1 0 memoryChallenges (ExternalChallenges.delegationOf [])
    (ExternalChallenges.machineStateOf [])

def sampleArguments (initChallenges : ExternalMemoryArgumentChallenges) :
    UnrolledArguments 1 where
  baseLayer := true
  memoryDelegationPowBits := 0
  circuitsFamiliesSetups := [Vector.replicate numCosets .dummy]
  circuitsFamiliesVerifiers :=
    [{ circuitFamily := 1
       capacity := 1
       verifierFn := .unrolledNoDelegation (sampleVerifier sampleFamilyOutput) }]
  initsAndTeardownsVerifier :=
    (Vector.replicate numCosets .dummy, sampleVerifier (sampleInitOutput initChallenges))
  delegationCircuitsVerifiers := []

/-- Buffers that hold no challenge of the transcript. -/
def sampleBuffers : UnrolledBuffers 1 where
  outputs :=
    { proofOutput0 := sampleOutput 0 0 1 (ExternalChallenges.memoryOf [])
        (ExternalChallenges.delegationOf []) (ExternalChallenges.machineStateOf [])
      proofOutput1 := sampleOutput 0 0 1 (ExternalChallenges.memoryOf [])
        (ExternalChallenges.delegationOf []) (ExternalChallenges.machineStateOf []) }
  outputsWithDelegation :=
    { proofOutput0 := sampleOutput 1 0 1 (ExternalChallenges.memoryOf [])
        (ExternalChallenges.delegationOf []) (ExternalChallenges.machineStateOf [])
      proofOutput1 := sampleOutput 1 0 1 (ExternalChallenges.memoryOf [])
        (ExternalChallenges.delegationOf []) (ExternalChallenges.machineStateOf []) }
  initsAndTeardowns :=
    { proofOutput0 := sampleOutput 0 1 0 (ExternalChallenges.memoryOf [])
        (ExternalChallenges.delegationOf []) (ExternalChallenges.machineStateOf [])
      proofOutput1 := sampleOutput 0 1 0 (ExternalChallenges.memoryOf [])
        (ExternalChallenges.delegationOf []) (ExternalChallenges.machineStateOf []) }
  delegation := sampleOutput 1 0 0 (ExternalChallenges.memoryOf [])
    (ExternalChallenges.delegationOf []) (ExternalChallenges.machineStateOf [])

/-- Final state, one family proof, one init and teardown proof, and the nonce. -/
def sampleStream : List U32 :=
  List.replicate 96 0 ++ [0, 4, 0] ++ [1] ++ [1] ++ [0, 0]

/-- What such a run accepts. -/
def sampleAccepted (initChallenges : ExternalMemoryArgumentChallenges) :
    List (AcceptedProof 1) :=
  [.unrolledNoDelegation 1 0 sampleFamilyOutput,
    .initAndTeardown 0 (sampleInitOutput initChallenges)]

/-- The absorbed words in blocks. -/
def sampleBlocks : List (List Nat) :=
  List.replicate 6 (List.replicate 16 0) ++ [0 :: 4 :: List.replicate 14 0] ++
    [1 :: List.replicate 15 0] ++ List.replicate 64 (List.replicate 16 0) ++
    [255 :: List.replicate 15 0] ++ List.replicate 64 (List.replicate 16 0)

theorem wholeBlocks_of_forall {blocks : List (List Nat)} (nonempty : blocks ≠ [])
    (full : ∀ block ∈ blocks, block.length = 16) : WholeBlocks blocks := by
  induction blocks with
  | nil => exact absurd rfl nonempty
  | cons block blocks inductionHypothesis =>
      have first := full block (List.mem_cons_self ..)
      cases blocks with
      | nil => exact .last (List.ne_nil_of_length_pos (by omega)) (by omega)
      | cons next others =>
          exact .cons first (inductionHypothesis (List.cons_ne_nil _ _) fun block member =>
            full block (List.mem_cons_of_mem _ member))

theorem sample_digest (initChallenges : ExternalMemoryArgumentChallenges) :
    digest (sampleState.transcriptWords ++
        (sampleAccepted initChallenges).flatMap AcceptedProof.transcriptWords) =
      wordsOfNat 8 unrolledSampleSeed := by
  have words : sampleState.transcriptWords ++
      (sampleAccepted initChallenges).flatMap AcceptedProof.transcriptWords =
        wordList sampleBlocks.flatten := by
    change sampleState.transcriptWords ++ ((markerBuffer 1 ++ MerkleTreeCap.flatten
      (Vector.replicate numCosets .dummy)) ++ ((markerBuffer 255 ++ MerkleTreeCap.flatten
      (Vector.replicate numCosets .dummy)) ++ [])) = _
    decide +kernel
  have whole : WholeBlocks sampleBlocks := by
    apply wholeBlocks_of_forall
    · decide
    · decide +kernel
  have seed : digestBlocks configuredIvNat 0 sampleBlocks = unrolledSampleSeed := by
    decide +kernel
  rw [words, digest_eq_digestBlocks whole, seed]

theorem sample_read : FinalMachineState.read sampleStream =
    some (sampleState, [1] ++ [1] ++ [0, 0]) := by
  decide +kernel

/-- A first proof over zero caps passes the checks of its kind. -/
theorem nextProof_sample
    {numDelegationChallenges numAuxBoundaryValues numMachineStateChallenges : Nat}
    {memoryChallenges : ExternalMemoryArgumentChallenges}
    {delegationChallenges : ExternalDelegationArgumentChallenges}
    {machineStateChallenges : ExternalMachineStateArgumentChallenges}
    (outputs :
      ProofOutputs numDelegationChallenges numAuxBoundaryValues numMachineStateChallenges)
    (stream : List U32) :
    nextProof
        (sampleVerifier (sampleOutput numDelegationChallenges numAuxBoundaryValues
          numMachineStateChallenges memoryChallenges delegationChallenges
          machineStateChallenges))
        (Vector.replicate numCosets .dummy) 0 outputs stream =
      some (sampleOutput _ _ _ memoryChallenges delegationChallenges machineStateChallenges,
        stream) :=
  nextProof_eq_some_iff.mpr ⟨rfl, rfl, rfl, fun later => absurd later (Nat.lt_irrefl 0),
    fun later => absurd later (Nat.lt_irrefl 0), fun later => absurd later (Nat.lt_irrefl 0),
    fun _ => rfl⟩

/-- The contributions of the first machine state cancel. -/
theorem sample_contributions {seed : List Nat}
    {machineStateChallenges : ExternalMachineStateArgumentChallenges}
    (registers : produceRegisterContributionIntoMemoryAccumulatorRaw
      (sampleChallenges seed).memoryArgument sampleState.registers = some 1)
    (machineState : producePcIntoPermutationAccumulatorRaw initialPc initialTimestampPair
      sampleState.finalPc (sampleState.finalTsLow, sampleState.finalTsHigh)
      machineStateChallenges = some 1)
    {log : ProofLog 1} (product : log.grandProductAccumulator = 1)
    (sum : log.delegationSetAccumulator = 0) (stream : List U32) :
    checkAccumulators sampleState (sampleChallenges seed).memoryArgument
        machineStateChallenges log stream =
      some (⟨⟩, stream) := by
  rw [checkAccumulators]
  apply Reader.ofOption_bind_eq_some_iff.mpr
  refine ⟨1, registers, ?_⟩
  apply Reader.ofOption_bind_eq_some_iff.mpr
  refine ⟨1, machineState, ?_⟩
  apply Reader.check_bind_eq_some_iff.mpr
  refine ⟨?_, Reader.check_eq_some_iff.mpr ⟨sum, rfl⟩⟩
  rw [product]
  decide +kernel

theorem sample_verifyProofs (initChallenges : ExternalMemoryArgumentChallenges) :
    ∃ proofs, (sampleArguments initChallenges).verifyProofs sampleBuffers sampleStream =
        some (proofs, [0, 0]) ∧
      proofs.finalState = sampleState ∧
      proofs.delegations.log.accepted = sampleAccepted initChallenges ∧
      proofs.families.outputs.proofOutput0 = sampleFamilyOutput ∧
      proofs.delegations.delegationUsed = false ∧
      proofs.delegations.log.grandProductAccumulator = 1 ∧
      proofs.delegations.log.delegationSetAccumulator = 0 := by
  let start : FamiliesState 1 := .start sampleBuffers sampleState
  let family : CircuitFamily :=
    { circuitFamily := 1
      capacity := 1
      verifierFn := .unrolledNoDelegation (sampleVerifier sampleFamilyOutput) }
  let announced : FamiliesState 1 := { start with log := start.log.announce 1 1 }
  let families : FamiliesState 1 := announced.afterNoDelegation family 0 sampleFamilyOutput
  have readFamilies : Reader.each FamiliesState.proofs
      (sampleArguments initChallenges).families start ([1] ++ [1] ++ [0, 0]) =
        some (families, [1] ++ [0, 0]) := by
    have one : FamiliesState.proof family (Vector.replicate numCosets .dummy) 0 announced
        ([1] ++ [0, 0]) = some (families, [1] ++ [0, 0]) := by
      rw [FamiliesState.proof]
      apply Reader.check_bind_eq_some_iff.mpr
      refine ⟨by decide, ?_⟩
      exact Reader.bind_eq_some_iff.mpr
        ⟨sampleFamilyOutput, _, nextProof_sample announced.outputs _, rfl⟩
    apply Reader.each_cons.mpr
    refine ⟨families, _, ?_, Reader.each_nil.mpr ⟨rfl, rfl⟩⟩
    rw [FamiliesState.proofs]
    apply Reader.token_bind_eq_some_iff.mpr
    exact ⟨1, _, rfl, Reader.loop_succ.mpr ⟨families, _, one, Reader.loop_zero.mpr ⟨rfl, rfl⟩⟩⟩
  let initsStart : InitsAndTeardownsState 1 :=
    { log := families.log.announce 1 initsAndTeardownsFormalCircuitFamilyIdx
      outputs := sampleBuffers.initsAndTeardowns
      cellsInitialized := 0 }
  let inits : InitsAndTeardownsState 1 := initsStart.after 0 (sampleInitOutput initChallenges)
  have readInits : InitsAndTeardownsState.proofs
      (sampleArguments initChallenges).initsAndTeardownsVerifier
      sampleBuffers.initsAndTeardowns families.log ([1] ++ [0, 0]) = some (inits, [0, 0]) := by
    have one : InitsAndTeardownsState.proof (Vector.replicate numCosets .dummy)
        (sampleVerifier (sampleInitOutput initChallenges)) 0 initsStart [0, 0] =
          some (inits, [0, 0]) := by
      rw [InitsAndTeardownsState.proof]
      apply Reader.check_bind_eq_some_iff.mpr
      refine ⟨by decide, ?_⟩
      apply Reader.bind_eq_some_iff.mpr
      refine ⟨sampleInitOutput initChallenges, _, nextProof_sample initsStart.outputs _, ?_⟩
      apply Reader.ofOption_bind_eq_some_iff.mpr
      refine ⟨InitAndTeardownTuple.zero, rfl, ?_⟩
      apply Reader.ofOption_bind_eq_some_iff.mpr
      refine ⟨InitAndTeardownTuple.zero, ?_, rfl⟩
      have boundary : (sampleInitOutput initChallenges).lazyInitBoundaryValues =
          (sampleInitOutput (ExternalChallenges.memoryOf [])).lazyInitBoundaryValues := rfl
      rw [boundary]
      decide +kernel
    rw [InitsAndTeardownsState.proofs]
    apply Reader.token_bind_eq_some_iff.mpr
    exact ⟨1, _, rfl, Reader.loop_succ.mpr ⟨inits, _, one, Reader.loop_zero.mpr ⟨rfl, rfl⟩⟩⟩
  let delegations : DelegationState 1 :=
    .start inits.log sampleBuffers.delegation families.delegationUsed
  have startTracks : start.log.Tracks sampleState.transcriptWords := sampleState.tracks
  have familiesTrack := FamiliesState.tracks_each startTracks readFamilies
  obtain ⟨numCircuits, _, -, initsLoop⟩ := InitsAndTeardownsState.proofs_cases readInits
  have initsTrack := familiesTrack.loop (InitsAndTeardownsState.acceptsNext _ _) rfl initsLoop
  refine ⟨⟨sampleState, families, inits, delegations⟩, ?_, rfl, rfl, rfl, rfl, ?_, rfl⟩
  · rw [UnrolledArguments.verifyProofs]
    apply Reader.bind_eq_some_iff.mpr
    refine ⟨sampleState, _, sample_read, ?_⟩
    apply Reader.bind_eq_some_iff.mpr
    refine ⟨families, _, readFamilies, ?_⟩
    apply Reader.bind_eq_some_iff.mpr
    refine ⟨inits, _, readInits, ?_⟩
    apply Reader.check_bind_eq_some_iff.mpr
    refine ⟨initsTrack.fullBuffer, ?_⟩
    apply Reader.bind_eq_some_iff.mpr
    refine ⟨delegations, _, ?_, rfl⟩
    rw [DelegationState.run]
    apply Reader.bind_eq_some_iff.mpr
    refine ⟨delegations, _, Reader.each_nil.mpr ⟨rfl, rfl⟩, ?_⟩
    have few : (0 : U64).toNat < mersenneCharacteristics := by decide
    exact Reader.check_bind_eq_some_iff.mpr ⟨few, rfl⟩
  · change (1 * 1 : Mersenne31Quartic) * 1 = 1
    decide +kernel

theorem sample_powChallenge : readPowChallenge [0, 0] = some (0, []) := rfl

/-- A base layer over zero registers starts a chain. -/
theorem sample_chainOutput (setups : List MerkleTreeCaps) :
    ∃ chain, chainOutput true sampleState setups [] = some ((chain, none), []) := by
  have zero : auxRegisters sampleState.registers = Vector.replicate 8 0 := by
    decide +kernel
  rw [chainOutput, zero]
  generalize endParamsOutput sampleState.finalPc setups = hashed
  let buffer := ChainPreimage.concat (Vector.replicate 8 0) hashed.1
  let chain : Seed := (hashed.2.absorb buffer.toList).finalizeReset.1
  have started : baseLayerOutput hashed.2 (Vector.replicate 8 0) hashed.1 [] =
      some (chain, []) := Reader.check_bind_eq_some_iff.mpr ⟨rfl, rfl⟩
  exact ⟨chain, Reader.bind_eq_some_iff.mpr ⟨chain, [], started, rfl⟩⟩

/-- Such a run returns, whatever the challenges of its init and teardown proof are. -/
theorem sample_returns (initChallenges : ExternalMemoryArgumentChallenges) :
    ∃ run, verifyFullStatementForUnrolledCircuits (sampleArguments initChallenges)
        sampleBuffers sampleStream = some (run, []) ∧
      run.accepted = sampleAccepted initChallenges := by
  obtain ⟨proofs, verified, finalState, accepted, proofOutput0, used, product, sum⟩ :=
    sample_verifyProofs initChallenges
  have seed : proofs.memorySeed = wordsOfNat 8 unrolledSampleSeed := by
    rw [UnrolledArguments.verifyProofs_memorySeed verified, finalState, accepted,
      sample_digest]
  have registers : produceRegisterContributionIntoMemoryAccumulatorRaw
      (sampleChallenges unrolledSampleSeed).memoryArgument sampleState.registers = some 1 := by
    decide +kernel
  have machineState : producePcIntoPermutationAccumulatorRaw initialPc initialTimestampPair
      sampleState.finalPc (sampleState.finalTsLow, sampleState.finalTsHigh)
      (ExternalChallenges.machineStateOf (sampleElements unrolledSampleSeed)) = some 1 := by
    decide +kernel
  have contributions := sample_contributions registers machineState product sum []
  obtain ⟨chain, chained⟩ := sample_chainOutput (sampleArguments initChallenges).setups
  let run : StatementRun 1 :=
    { finalState := proofs.finalState
      proofCounts := proofs.delegations.log.proofCounts
      accepted := proofs.delegations.log.accepted
      memorySeed := proofs.memorySeed
      powChallenge := 0
      chainPreimage := none
      output := (proofs.finalState.outputRegisters, chain) }
  have finished : (sampleArguments initChallenges).finish proofs [0, 0] = some (run, []) := by
    apply Reader.bind_eq_some_iff.mpr
    refine ⟨0, [], sample_powChallenge, ?_⟩
    apply Reader.ofOption_bind_eq_some_iff.mpr
    refine ⟨sampleChallenges unrolledSampleSeed, ?_, ?_⟩
    · rw [seed]
      exact draw_sampleSeed rfl
    apply Reader.bind_eq_some_iff.mpr
    refine ⟨⟨⟩, [], ?_, ?_⟩
    · rw [proofOutput0, used]
      apply Reader.check_bind_eq_some_iff.mpr
      refine ⟨sampleFamilyOutput_memory.symm, Reader.check_bind_eq_some_iff.mpr
        ⟨fun used => absurd used Bool.false_ne_true, Reader.check_eq_some_iff.mpr ⟨?_, rfl⟩⟩⟩
      rw [sampleFamilyOutput_machineState]
      rfl
    apply Reader.bind_eq_some_iff.mpr
    refine ⟨⟨⟩, [], ?_, ?_⟩
    · rw [proofOutput0, finalState, sampleFamilyOutput_memory, sampleFamilyOutput_machineState]
      exact contributions
    apply Reader.bind_eq_some_iff.mpr
    refine ⟨(chain, none), [], ?_, rfl⟩
    rw [finalState]
    exact chained
  have lengths : (sampleArguments initChallenges).circuitsFamiliesSetups.length =
      (sampleArguments initChallenges).circuitsFamiliesVerifiers.length := rfl
  refine ⟨run, ?_, accepted⟩
  rw [verifyFullStatementForUnrolledCircuits]
  apply Reader.check_bind_eq_some_iff.mpr
  refine ⟨lengths, ?_⟩
  apply Reader.bind_eq_some_iff.mpr
  exact ⟨proofs, [0, 0], verified, finished⟩

/-- A run that binds its challenges. -/
theorem verifyFullStatement_bindsChallenges_sample :
    ∃ run, verifyFullStatementForUnrolledCircuits
        (sampleArguments (ExternalChallenges.memoryOf (sampleElements unrolledSampleSeed)))
        sampleBuffers sampleStream = some (run, []) ∧ run.BindsChallenges 0 := by
  obtain ⟨run, returns, accepted⟩ :=
    sample_returns (ExternalChallenges.memoryOf (sampleElements unrolledSampleSeed))
  refine ⟨run, returns, (verifyFullStatement_bindsChallenges_iff returns).mpr ?_⟩
  rw [accepted]
  refine ⟨?_, ?_, ?_⟩
  · intro proof member _
    simp only [sampleAccepted, List.mem_cons, List.not_mem_nil, or_false] at member
    rcases member with rfl | rfl <;> rfl
  · intro proof member _ delegation carried
    simp only [sampleAccepted, List.mem_cons, List.not_mem_nil, or_false] at member
    rcases member with rfl | rfl <;> exact absurd carried List.not_mem_nil
  · intro proof member machineState carried
    simp only [sampleAccepted, List.mem_cons, List.not_mem_nil, or_false] at member
    rcases member with rfl | rfl
    · exact List.mem_singleton.mp carried
    · exact absurd carried List.not_mem_nil

/-- A run that accepts an init and teardown proof over challenges of its prover's choice. -/
theorem verifyFullStatement_accepts_unbound :
    ∃ run, verifyFullStatementForUnrolledCircuits
        (sampleArguments (ExternalChallenges.memoryOf [])) sampleBuffers sampleStream =
          some (run, []) ∧ ¬ run.BindsChallenges 0 := by
  obtain ⟨run, returns, accepted⟩ := sample_returns (ExternalChallenges.memoryOf [])
  refine ⟨run, returns, ?_⟩
  rintro ⟨challenges, -, uses⟩
  rw [accepted] at uses
  have family := (uses (.unrolledNoDelegation 1 0 sampleFamilyOutput) (List.mem_cons_self ..)).memory
  have init := (uses (.initAndTeardown 0 (sampleInitOutput (ExternalChallenges.memoryOf [])))
    (List.mem_cons_of_mem _ (List.mem_cons_self ..))).memory
  have same : ExternalChallenges.memoryOf (sampleElements unrolledSampleSeed) =
      ExternalChallenges.memoryOf [] := family.trans init.symm
  revert same
  decide +kernel

end Samples

end Airbender.Statement
