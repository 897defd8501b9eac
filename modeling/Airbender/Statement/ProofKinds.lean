import Airbender.Statement.Layers
import Airbender.Statement.Runs

/-!
# The proofs of one kind

Each loop of the statement verifiers over the words of the proofs of its kind: what its
assertions say of the values that the proofs carry, and the state it reaches where they hold.
-/

namespace Airbender.Statement

open StreamReader Reader

variable {numSets : Nat}

/-! ## Single proofs -/

/-- A single proof: its words, and what its verifier makes of them. -/
structure SingleProof (Output : Type) where
  words : List U32
  output : Output

section SingleProofs

variable {numDelegationChallenges numAuxBoundaryValues numMachineStateChallenges : Nat}
  {single : SingleProof
    (ProofOutput numDelegationChallenges numAuxBoundaryValues numMachineStateChallenges)}
  {verifierFn :
    VerifierFunctionPointer numDelegationChallenges numAuxBoundaryValues
      numMachineStateChallenges}

/-- The verifier reads exactly the words of the proof, and writes its output over the buffer. -/
def SingleProof.ReadBy
    (single : SingleProof
      (ProofOutput numDelegationChallenges numAuxBoundaryValues numMachineStateChallenges))
    (verifierFn :
      VerifierFunctionPointer numDelegationChallenges numAuxBoundaryValues
        numMachineStateChallenges) : Prop :=
  ∀ buffer, Returns (verifierFn buffer) single.words single.output

theorem returnsIff_checkContinuity (setup : MerkleTreeCaps) (circuitSequence : Nat)
    (previous current :
      ProofOutput numDelegationChallenges numAuxBoundaryValues numMachineStateChallenges) :
    ReturnsIff (checkContinuity setup circuitSequence previous current) []
      (Continues setup circuitSequence previous current) ⟨⟩ := by
  rintro rest ⟨outcome, left⟩
  rw [List.nil_append, checkContinuity_eq_some_iff]
  constructor
  · rintro ⟨continues, rfl⟩
    exact ⟨continues, rfl⟩
  · rintro ⟨continues, pair⟩
    cases pair
    exact ⟨continues, rfl⟩

/-- What the statements ask of a proof and the one before it. -/
structure FollowsProof (setup : MerkleTreeCaps) (circuitSequence : Nat)
    (previous current :
      ProofOutput numDelegationChallenges numAuxBoundaryValues numMachineStateChallenges) :
    Prop where
  noSequence : current.circuitSequence = 0
  noDelegationType : current.delegationType = 0
  continues : Continues setup circuitSequence previous current

theorem SingleProof.ReadBy.nextProof (reads : single.ReadBy verifierFn) (setup : MerkleTreeCaps)
    (circuitSequence : Nat)
    (outputs :
      ProofOutputs numDelegationChallenges numAuxBoundaryValues numMachineStateChallenges) :
    ReturnsIff (nextProof verifierFn setup circuitSequence outputs) single.words
      (FollowsProof setup circuitSequence (outputs.previous circuitSequence) single.output)
      single.output := by
  have first := ReturnsIff.of_returns (reads (outputs.current circuitSequence))
  refine (first.bind_nil fun _ => ReturnsIff.check_bind fun _ => ReturnsIff.check_bind fun _ =>
    (returnsIff_checkContinuity setup circuitSequence _ _).map fun _ => single.output).congr ?_
      fun _ => rfl
  constructor
  · rintro ⟨-, sequence, type, continues⟩
    exact ⟨sequence, type, continues⟩
  · rintro ⟨sequence, type, continues⟩
    exact ⟨trivial, sequence, type, continues⟩

end SingleProofs

/-- The number of proofs, and then the proofs. -/
def kindWords {Output : Type} (proofs : List (SingleProof Output)) : List U32 :=
  countWord proofs :: proofs.flatMap SingleProof.words

theorem toNat_countWord {α : Type} {proofs : List α} (few : proofs.length < 2 ^ 32) :
    (countWord proofs).toNat = proofs.length := by
  rw [countWord, BitVec.toNat_ofNat, Nat.mod_eq_of_lt few]

/-- What the proofs of a kind add to the log. -/
structure ProofLog.Adds (before after : ProofLog numSets) (counts : List U32)
    (accepted : List (AcceptedProof numSets)) : Prop where
  counts : after.proofCounts = before.proofCounts ++ counts
  accepted : after.accepted = before.accepted ++ accepted

namespace ProofLog.Adds

variable {before middle after : ProofLog numSets} {counts counts' : List U32}
  {accepted accepted' : List (AcceptedProof numSets)}

theorem refl (log : ProofLog numSets) : log.Adds log [] [] :=
  ⟨(List.append_nil _).symm, (List.append_nil _).symm⟩

theorem trans (first : before.Adds middle counts accepted)
    (second : middle.Adds after counts' accepted') :
    before.Adds after (counts ++ counts') (accepted ++ accepted') := by
  refine ⟨?_, ?_⟩
  · rw [second.counts, first.counts, List.append_assoc]
  · rw [second.accepted, first.accepted, List.append_assoc]

theorem announce (log : ProofLog numSets) (numCircuits circuitType : U32) :
    log.Adds (log.announce numCircuits circuitType) [numCircuits] [] :=
  ⟨rfl, (List.append_nil _).symm⟩

/-- Passes that each accept a proof. -/
theorem passed {σ Item : Type} (logOf : σ → ProofLog numSets) {next : Nat → Item → σ → σ}
    {proofOf : Nat → Item → AcceptedProof numSets}
    (step : ∀ index item state,
      (logOf state).Adds (logOf (next index item state)) [] [proofOf index item])
    (index : Nat) (items : List Item) (state : σ) :
    (logOf state).Adds (logOf (passed next index items state)) []
      (items.mapIdx fun later => proofOf (index + later)) := by
  induction items generalizing index state with
  | nil => exact refl _
  | cons item items inductionHypothesis =>
      have first := (step index item state).trans
        (inductionHypothesis (index + 1) (next index item state))
      rw [List.mapIdx_cons]
      simp only [Nat.add_right_comm index 1] at first
      exact first

/-- Kinds that each add their number and their proofs. -/
theorem passedKinds {σ Item : Type} (logOf : σ → ProofLog numSets) {next : Item → σ → σ}
    {countOf : Item → U32} {proofsOf : Item → List (AcceptedProof numSets)}
    (step : ∀ item state,
      (logOf state).Adds (logOf (next item state)) [countOf item] (proofsOf item))
    (index : Nat) (items : List Item) (state : σ) :
    (logOf state).Adds (logOf (Reader.passed (fun _ => next) index items state))
      (items.map countOf) (items.flatMap proofsOf) := by
  induction items generalizing index state with
  | nil => exact refl _
  | cons item items inductionHypothesis =>
      exact (step item state).trans (inductionHypothesis (index + 1) (next item state))

end ProofLog.Adds

/-! ## Families -/

/-- What the verifier of a family makes of one of its proofs. -/
inductive FamilyOutput where
  | noDelegation (output : ProofOutput 0 0 1)
  | withDelegation (output : ProofOutput 1 0 1)

/-- The verifier of the family reads exactly the words of the proof. -/
inductive CircuitFamily.Reads (family : CircuitFamily) : SingleProof FamilyOutput → Prop where
  | noDelegation {verifierFn : VerifierFunctionPointer 0 0 1} {words : List U32}
      {output : ProofOutput 0 0 1}
      (kind : family.verifierFn = .unrolledNoDelegation verifierFn)
      (reads : SingleProof.ReadBy ⟨words, output⟩ verifierFn) :
      Reads family ⟨words, .noDelegation output⟩
  | withDelegation {verifierFn : VerifierFunctionPointer 1 0 1} {words : List U32}
      {output : ProofOutput 1 0 1}
      (kind : family.verifierFn = .unrolledWithDelegation verifierFn)
      (reads : SingleProof.ReadBy ⟨words, output⟩ verifierFn) :
      Reads family ⟨words, .withDelegation output⟩

def CircuitFamily.accepted (family : CircuitFamily) (circuitSequence : Nat)
    (single : SingleProof FamilyOutput) : AcceptedProof numSets :=
  match single.output with
  | .noDelegation output => .unrolledNoDelegation family.circuitFamily circuitSequence output
  | .withDelegation output => .unrolledWithDelegation family.circuitFamily circuitSequence output

namespace FamiliesState

/-- The state after a proof of a family. -/
def after (family : CircuitFamily) (circuitSequence : Nat) (single : SingleProof FamilyOutput)
    (state : FamiliesState numSets) : FamiliesState numSets :=
  match single.output with
  | .noDelegation output => state.afterNoDelegation family circuitSequence output
  | .withDelegation output => state.afterWithDelegation family circuitSequence output

/-- What the statement asks of the next proof of a family. -/
structure Allows (family : CircuitFamily) (setup : MerkleTreeCaps) (circuitSequence : Nat)
    (single : SingleProof FamilyOutput) (state : FamiliesState numSets) : Prop where
  totalCycles : state.totalCycles + family.capacity.toNat < maxCycles
  noDelegation : ∀ output, single.output = .noDelegation output →
    FollowsProof setup circuitSequence (state.outputs.previous circuitSequence) output
  withDelegation : ∀ output, single.output = .withDelegation output →
    FollowsProof setup circuitSequence (state.outputsWithDelegation.previous circuitSequence) output

theorem returnsIff_proof {family : CircuitFamily} {single : SingleProof FamilyOutput}
    (reads : family.Reads single) (setup : MerkleTreeCaps) (circuitSequence : Nat)
    (state : FamiliesState numSets) :
    ReturnsIff (proof family setup circuitSequence state) single.words
      (Allows family setup circuitSequence single state)
      (after family circuitSequence single state) := by
  rw [proof]
  cases reads with
  | @noDelegation verifierFn words output kind reads =>
      rw [kind]
      refine (ReturnsIff.check_bind fun _ =>
        (reads.nextProof setup circuitSequence state.outputs).map
          (state.afterNoDelegation family circuitSequence)).congr ?_ fun _ => rfl
      constructor
      · rintro ⟨cycles, follows⟩
        refine ⟨cycles, ?_, ?_⟩
        · intro other same
          cases same
          exact follows
        · intro other same
          cases same
      · intro allows
        exact ⟨allows.totalCycles, allows.noDelegation output rfl⟩
  | @withDelegation verifierFn words output kind reads =>
      rw [kind]
      refine (ReturnsIff.check_bind fun _ =>
        (reads.nextProof setup circuitSequence state.outputsWithDelegation).map
          (state.afterWithDelegation family circuitSequence)).congr ?_ fun _ => rfl
      constructor
      · rintro ⟨cycles, follows⟩
        refine ⟨cycles, ?_, ?_⟩
        · intro other same
          cases same
        · intro other same
          cases same
          exact follows
      · intro allows
        exact ⟨allows.totalCycles, allows.withDelegation output rfl⟩

/-- A family with its setup, and its proofs. -/
abbrev Entry : Type := (CircuitFamily × MerkleTreeCaps) × List (SingleProof FamilyOutput)

/-- The state in which the proofs of a family start. -/
def announce (entry : Entry) (state : FamiliesState numSets) : FamiliesState numSets :=
  { state with log := state.log.announce (countWord entry.2) entry.1.1.circuitFamily }

/-- The state after all proofs of a family. -/
def afterProofs (entry : Entry) (state : FamiliesState numSets) : FamiliesState numSets :=
  passed (after entry.1.1) 0 entry.2 (state.announce entry)

/-- What the statement asks of all proofs of a family. -/
def AllowsProofs (entry : Entry) (state : FamiliesState numSets) : Prop :=
  Allowed (Allows entry.1.1 entry.1.2) (after entry.1.1) 0 entry.2 (state.announce entry)

theorem returnsIff_proofs {entry : Entry} (few : entry.2.length < 2 ^ 32)
    (reads : ∀ single ∈ entry.2, entry.1.1.Reads single) (state : FamiliesState numSets) :
    ReturnsIff (proofs entry.1 state) (kindWords entry.2) (state.AllowsProofs entry)
      (state.afterProofs entry) := by
  rw [proofs, kindWords]
  refine ReturnsIff.token_bind ?_
  rw [toNat_countWord few]
  refine ReturnsIff.loop ?_ 0 (state.announce entry)
  intro circuitSequence single state member
  exact returnsIff_proof (reads single member) entry.1.2 circuitSequence state

theorem adds_proofs (entry : Entry) (state : FamiliesState numSets) :
    state.log.Adds (state.afterProofs entry).log [countWord entry.2]
      (entry.2.mapIdx entry.1.1.accepted) := by
  have announced := ProofLog.Adds.announce state.log (countWord entry.2) entry.1.1.circuitFamily
  have step : ∀ circuitSequence single (state : FamiliesState numSets),
      state.log.Adds (after entry.1.1 circuitSequence single state).log []
        [entry.1.1.accepted circuitSequence single] := by
    rintro circuitSequence ⟨words, output⟩ state
    cases output with
    | noDelegation output => exact ⟨(List.append_nil _).symm, rfl⟩
    | withDelegation output => exact ⟨(List.append_nil _).symm, rfl⟩
  have passes := ProofLog.Adds.passed FamiliesState.log step 0 entry.2 (state.announce entry)
  simp only [Nat.zero_add] at passes
  exact announced.trans passes

end FamiliesState

/-! ## Inits and teardowns -/

namespace InitsAndTeardownsState

/-- The proofs of inits and teardowns. -/
abbrev Entry (numSets : Nat) : Type := List (SingleProof (ProofOutput 0 numSets 0))

def next (circuitSequence : Nat) (single : SingleProof (ProofOutput 0 numSets 0))
    (state : InitsAndTeardownsState numSets) : InitsAndTeardownsState numSets :=
  state.after circuitSequence single.output

/-- What the statement asks of the next proof: room for its cells, and addresses that go on
from those of the proof before it. -/
structure Allows (setup : MerkleTreeCaps) (circuitSequence : Nat)
    (single : SingleProof (ProofOutput 0 numSets 0)) (state : InitsAndTeardownsState numSets) :
    Prop where
  cellsInitialized : state.cellsInitialized < maxMemoryCellsToInit
  follows : FollowsProof setup circuitSequence (state.outputs.previous circuitSequence) single.output
  junctions : ∃ first,
    lastPrevious circuitSequence (state.outputs.previous circuitSequence) = some first ∧
      ∃ last, single.output.lazyInitBoundaryValues.toList.foldlM checkJunction first = some last

theorem returnsIff_proof {single : SingleProof (ProofOutput 0 numSets 0)}
    {verifierFn : VerifierFunctionPointer 0 numSets 0} (reads : single.ReadBy verifierFn)
    (setup : MerkleTreeCaps) (circuitSequence : Nat) (state : InitsAndTeardownsState numSets) :
    ReturnsIff (proof setup verifierFn circuitSequence state) single.words
      (Allows setup circuitSequence single state) (next circuitSequence single state) := by
  rw [proof]
  refine (ReturnsIff.check_bind fun _ =>
    (reads.nextProof setup circuitSequence state.outputs).bind_nil fun _ =>
      ReturnsIff.ofOption_bind fun first _ => ReturnsIff.ofOption_bind fun _ _ =>
        ReturnsIff.pure (next circuitSequence single state)).congr ?_ fun _ => rfl
  constructor
  · rintro ⟨cells, follows, first, isFirst, last, isLast, -⟩
    exact ⟨cells, follows, first, isFirst, last, isLast⟩
  · rintro ⟨cells, follows, first, isFirst, last, isLast⟩
    exact ⟨cells, follows, first, isFirst, last, isLast, trivial⟩

/-- The state in which the proofs start. -/
def announced (proofs : Entry numSets) (outputs : ProofOutputs 0 numSets 0)
    (log : ProofLog numSets) : InitsAndTeardownsState numSets where
  log := log.announce (countWord proofs) initsAndTeardownsFormalCircuitFamilyIdx
  outputs := outputs
  cellsInitialized := 0

def afterProofs (proofs : Entry numSets) (outputs : ProofOutputs 0 numSets 0)
    (log : ProofLog numSets) : InitsAndTeardownsState numSets :=
  passed next 0 proofs (announced proofs outputs log)

def AllowsProofs (setup : MerkleTreeCaps) (proofs : Entry numSets)
    (outputs : ProofOutputs 0 numSets 0) (log : ProofLog numSets) : Prop :=
  Allowed (Allows setup) next 0 proofs (announced proofs outputs log)

theorem returnsIff_proofs {entry : Entry numSets} (few : entry.length < 2 ^ 32)
    {verifierFn : VerifierFunctionPointer 0 numSets 0}
    (reads : ∀ single ∈ entry, single.ReadBy verifierFn) (setup : MerkleTreeCaps)
    (outputs : ProofOutputs 0 numSets 0) (log : ProofLog numSets) :
    ReturnsIff (proofs (setup, verifierFn) outputs log) (kindWords entry)
      (AllowsProofs setup entry outputs log) (afterProofs entry outputs log) := by
  rw [proofs, kindWords]
  refine ReturnsIff.token_bind ?_
  rw [toNat_countWord few]
  refine ReturnsIff.loop ?_ 0 (announced entry outputs log)
  intro circuitSequence single state member
  exact returnsIff_proof (reads single member) setup circuitSequence state

def accepted (circuitSequence : Nat) (single : SingleProof (ProofOutput 0 numSets 0)) :
    AcceptedProof numSets :=
  .initAndTeardown circuitSequence single.output

theorem adds_proofs (entry : Entry numSets) (outputs : ProofOutputs 0 numSets 0)
    (log : ProofLog numSets) :
    log.Adds (afterProofs entry outputs log).log [countWord entry] (entry.mapIdx accepted) := by
  have start := ProofLog.Adds.announce log (countWord entry)
    initsAndTeardownsFormalCircuitFamilyIdx
  have step : ∀ circuitSequence single (state : InitsAndTeardownsState numSets),
      state.log.Adds (next circuitSequence single state).log []
        [accepted circuitSequence single] :=
    fun _ _ _ => ⟨(List.append_nil _).symm, rfl⟩
  have passes := ProofLog.Adds.passed InitsAndTeardownsState.log step 0 entry
    (announced entry outputs log)
  simp only [Nat.zero_add] at passes
  exact start.trans passes

/-- Each proof takes the cells of all its sets. -/
theorem cellsInitialized_passed (entry : Entry numSets) (index : Nat)
    (state : InitsAndTeardownsState numSets) :
    (passed next index entry state).cellsInitialized =
      state.cellsInitialized + BitVec.ofNat 32 entry.length *
        (BitVec.ofNat 32 numSets * initsAndTeardownsCapacityPerSet) := by
  induction entry generalizing index state with
  | nil => rw [List.length_nil, BitVec.zero_mul, BitVec.add_zero, passed]
  | cons single entry inductionHypothesis =>
      rw [passed, inductionHypothesis, next, after, List.length_cons, BitVec.ofNat_add,
        BitVec.add_mul, BitVec.one_mul, BitVec.add_assoc, BitVec.add_comm (_ * _)]

end InitsAndTeardownsState

/-! ## Unified proofs -/

namespace UnifiedState

abbrev Entry : Type := List (SingleProof (ProofOutput 1 1 1))

def next (capacity : U32) (circuitSequence : Nat) (single : SingleProof (ProofOutput 1 1 1))
    (state : UnifiedState) : UnifiedState :=
  state.after capacity circuitSequence single.output

/-- What the statement asks of the next unified proof. -/
structure Allows (setup : MerkleTreeCaps) (capacity : U32) (circuitSequence : Nat)
    (single : SingleProof (ProofOutput 1 1 1)) (state : UnifiedState) : Prop where
  totalCycles : state.totalCycles + capacity.toNat < maxCycles
  follows : FollowsProof setup circuitSequence (state.outputs.previous circuitSequence) single.output
  lazyInits : 0 < circuitSequence →
    checkLazyInits ((state.outputs.previous circuitSequence).lazyInitBoundaryValues.get 0)
      (single.output.lazyInitBoundaryValues.get 0) = some ⟨⟩

theorem returnsIff_proof {single : SingleProof (ProofOutput 1 1 1)}
    {verifierFn : VerifierFunctionPointer 1 1 1} (reads : single.ReadBy verifierFn)
    (setup : MerkleTreeCaps) (capacity : U32) (circuitSequence : Nat) (state : UnifiedState) :
    ReturnsIff (proof setup capacity verifierFn circuitSequence state) single.words
      (Allows setup capacity circuitSequence single state)
      (next capacity circuitSequence single state) := by
  rw [proof]
  refine (ReturnsIff.check_bind fun _ =>
    (reads.nextProof setup circuitSequence state.outputs).bind_nil fun _ =>
      ReturnsIff.check_bind fun _ =>
        ReturnsIff.pure (next capacity circuitSequence single state)).congr ?_ fun _ => rfl
  constructor
  · rintro ⟨cycles, follows, inits, -⟩
    exact ⟨cycles, follows, inits⟩
  · rintro ⟨cycles, follows, inits⟩
    exact ⟨cycles, follows, inits, trivial⟩

def accepted (circuitSequence : Nat) (single : SingleProof (ProofOutput 1 1 1)) :
    AcceptedProof 1 :=
  .unified circuitSequence single.output

/-- The state in which the unified proofs start. -/
def announced (entry : Entry) (outputs : ProofOutputs 1 1 1) (finalState : FinalMachineState) :
    UnifiedState where
  log := (ProofLog.start finalState.transcript).announce (countWord entry)
    reducedMachineCircuitFamilyIdx
  outputs := outputs
  totalCycles := 0

def afterProofs (capacity : U32) (entry : Entry) (outputs : ProofOutputs 1 1 1)
    (finalState : FinalMachineState) : UnifiedState :=
  passed (next capacity) 0 entry (announced entry outputs finalState)

/-- There is at least one unified proof. -/
structure AllowsProofs (setup : MerkleTreeCaps) (capacity : U32) (entry : Entry)
    (outputs : ProofOutputs 1 1 1) (finalState : FinalMachineState) : Prop where
  nonempty : 0 < entry.length
  each : Allowed (Allows setup capacity) (next capacity) 0 entry
    (announced entry outputs finalState)

theorem returnsIff_proofs {arguments : UnifiedArguments} {entry : Entry}
    (few : entry.length < 2 ^ 32)
    (reads : ∀ single ∈ entry, single.ReadBy arguments.unifiedCircuitVerifier)
    (buffers : UnifiedBuffers) (finalState : FinalMachineState) :
    ReturnsIff (arguments.proofs buffers finalState) (kindWords entry)
      (AllowsProofs arguments.unifiedCircuitSetup arguments.unifiedCircuitCapacity entry
        buffers.outputs finalState)
      (afterProofs arguments.unifiedCircuitCapacity entry buffers.outputs finalState) := by
  have positive : 0 < countWord entry ↔ 0 < entry.length := by
    rw [BitVec.lt_def, toNat_countWord few]
    rfl
  have loop : ReturnsIff
      (Reader.loop
        (proof arguments.unifiedCircuitSetup arguments.unifiedCircuitCapacity
          arguments.unifiedCircuitVerifier) 0 entry.length
        (announced entry buffers.outputs finalState)) (entry.flatMap SingleProof.words)
      (Allowed (Allows arguments.unifiedCircuitSetup arguments.unifiedCircuitCapacity)
        (next arguments.unifiedCircuitCapacity) 0 entry
        (announced entry buffers.outputs finalState))
      (afterProofs arguments.unifiedCircuitCapacity entry buffers.outputs finalState) := by
    refine ReturnsIff.loop ?_ 0 (announced entry buffers.outputs finalState)
    intro circuitSequence single state member
    exact returnsIff_proof (reads single member) _ _ circuitSequence state
  rw [UnifiedArguments.proofs, kindWords]
  refine ReturnsIff.token_bind ?_
  rw [toNat_countWord few]
  refine (ReturnsIff.check_bind fun _ => loop).congr ?_ fun _ => rfl
  constructor
  · rintro ⟨some, allowed⟩
    exact ⟨positive.mp some, allowed⟩
  · rintro ⟨some, allowed⟩
    exact ⟨positive.mpr some, allowed⟩

theorem adds_proofs (capacity : U32) (entry : Entry) (outputs : ProofOutputs 1 1 1)
    (finalState : FinalMachineState) :
    (ProofLog.start finalState.transcript).Adds
      (afterProofs capacity entry outputs finalState).log [countWord entry]
      (entry.mapIdx accepted) := by
  have start : (ProofLog.start finalState.transcript).Adds
      (announced entry outputs finalState).log [countWord entry] [] :=
    ProofLog.Adds.announce _ _ _
  have step : ∀ circuitSequence single (state : UnifiedState),
      state.log.Adds (next capacity circuitSequence single state).log []
        [accepted circuitSequence single] :=
    fun _ _ _ => ⟨(List.append_nil _).symm, rfl⟩
  have passes := ProofLog.Adds.passed UnifiedState.log step 0 entry
    (announced entry outputs finalState)
  simp only [Nat.zero_add] at passes
  exact start.trans passes

end UnifiedState

/-! ## Delegations -/

namespace DelegationState

/-- A delegation circuit, and its proofs. -/
abbrev Entry : Type := DelegationCircuit × List (SingleProof (ProofOutput 1 0 0))

def next (circuit : DelegationCircuit) (circuitSequence : Nat)
    (single : SingleProof (ProofOutput 1 0 0)) (state : DelegationState numSets) :
    DelegationState numSets :=
  state.after circuit circuitSequence single.output

/-- What the statement asks of a delegation proof. -/
structure Allows (memoryChallenges : ExternalMemoryArgumentChallenges)
    (delegationChallenges : Vector ExternalDelegationArgumentChallenges 1)
    (circuit : DelegationCircuit) (output : ProofOutput 1 0 0) : Prop where
  noSequence : output.circuitSequence = 0
  delegationType : output.delegationType = circuit.delegationType
  setupCaps : output.setupCaps = circuit.setupCaps
  memoryChallenges : output.memoryChallenges = memoryChallenges
  delegationChallenges : output.delegationChallenges = delegationChallenges

variable {memoryChallenges : ExternalMemoryArgumentChallenges}
  {delegationChallenges : Vector ExternalDelegationArgumentChallenges 1}

theorem returnsIff_proof {circuit : DelegationCircuit}
    {single : SingleProof (ProofOutput 1 0 0)}
    (reads : single.ReadBy circuit.verificationFunction) (circuitSequence : Nat)
    (state : DelegationState numSets) :
    ReturnsIff (proof memoryChallenges delegationChallenges circuit circuitSequence state)
      single.words (Allows memoryChallenges delegationChallenges circuit single.output)
      (next circuit circuitSequence single state) := by
  have first := ReturnsIff.of_returns (reads state.delegationProofOutput)
  refine (first.bind_nil fun _ => ReturnsIff.check_bind fun _ => ReturnsIff.check_bind fun _ =>
    ReturnsIff.check_bind fun _ => ReturnsIff.check_bind fun _ => ReturnsIff.check_bind fun _ =>
      ReturnsIff.pure (next circuit circuitSequence single state)).congr ?_ fun _ => rfl
  constructor
  · rintro ⟨-, sequence, type, setup, memory, delegation, -⟩
    exact ⟨sequence, type, MerkleTreeCap.compare_iff.mp setup, memory, delegation⟩
  · rintro ⟨sequence, type, setup, memory, delegation⟩
    exact ⟨trivial, sequence, type, MerkleTreeCap.compare_iff.mpr setup, memory, delegation,
      trivial⟩

/-- The state after all proofs of a delegation type. -/
def afterProofs (entry : Entry) (state : DelegationState numSets) : DelegationState numSets :=
  passed (next entry.1) 0 entry.2 (state.announce entry.1 (countWord entry.2))

/-- What the statement asks of a delegation type: the types grow. -/
structure AllowsProofs (memoryChallenges : ExternalMemoryArgumentChallenges)
    (delegationChallenges : Vector ExternalDelegationArgumentChallenges 1) (entry : Entry)
    (state : DelegationState numSets) : Prop where
  order : state.previousDelegationType < entry.1.delegationType
  each : Allowed
    (fun _ single _ => Allows memoryChallenges delegationChallenges entry.1 single.output)
    (next entry.1) 0 entry.2 (state.announce entry.1 (countWord entry.2))

theorem and_allowsProofs (memoryChallenges : ExternalMemoryArgumentChallenges)
    (delegationChallenges : Vector ExternalDelegationArgumentChallenges 1) (entry : Entry)
    (state : DelegationState numSets) :
    state.previousDelegationType < entry.1.delegationType ∧
        Allowed
          (fun _ single _ => Allows memoryChallenges delegationChallenges entry.1 single.output)
          (next entry.1) 0 entry.2 (state.announce entry.1 (countWord entry.2)) ↔
      AllowsProofs memoryChallenges delegationChallenges entry state :=
  ⟨fun both => ⟨both.1, both.2⟩, fun allows => ⟨allows.order, allows.each⟩⟩

theorem returnsIff_loop {entry : Entry}
    (reads : ∀ single ∈ entry.2, single.ReadBy entry.1.verificationFunction)
    (state : DelegationState numSets) :
    ReturnsIff
      (Reader.loop (proof memoryChallenges delegationChallenges entry.1) 0 entry.2.length state)
      (entry.2.flatMap SingleProof.words)
      (Allowed
        (fun _ single _ => Allows memoryChallenges delegationChallenges entry.1 single.output)
        (next entry.1) 0 entry.2 state)
      (passed (next entry.1) 0 entry.2 state) := by
  refine ReturnsIff.loop ?_ 0 state
  intro circuitSequence single state member
  exact returnsIff_proof (reads single member) circuitSequence state

/-- The transcript goes on to hold all accepted proofs. -/
theorem tracks_afterProofs {entry : Entry} (few : entry.2.length < 2 ^ 32)
    (reads : ∀ single ∈ entry.2, single.ReadBy entry.1.verificationFunction)
    {state : DelegationState numSets}
    (allows : AllowsProofs memoryChallenges delegationChallenges entry state)
    {words : List U32} (tracks : state.log.Tracks words) :
    (state.afterProofs entry).log.Tracks words := by
  have run := (returnsIff_loop reads (state.announce entry.1 (countWord entry.2))).returns
    allows.each []
  rw [← toNat_countWord few] at run
  exact tracks.loop (acceptsNext memoryChallenges delegationChallenges entry.1) rfl run

theorem returnsIff_proofs {entry : Entry} (few : entry.2.length < 2 ^ 32)
    (reads : ∀ single ∈ entry.2, single.ReadBy entry.1.verificationFunction)
    {state : DelegationState numSets} {finalState : FinalMachineState}
    (tracks : state.log.Tracks finalState.transcriptWords) :
    ReturnsIff (proofs memoryChallenges delegationChallenges entry.1 state)
      (kindWords entry.2) (AllowsProofs memoryChallenges delegationChallenges entry state)
      (state.afterProofs entry) := by
  rw [proofs, kindWords]
  refine ReturnsIff.congr ?_ (and_allowsProofs memoryChallenges delegationChallenges entry state)
    fun _ => rfl
  refine ReturnsIff.check_bind fun order => ReturnsIff.token_bind ?_
  rw [toNat_countWord few]
  refine ReturnsIff.congr ?_ (and_iff_left trivial) fun _ => rfl
  refine ReturnsIff.bind_nil (returnsIff_loop reads _) fun each => ?_
  have full := (tracks_afterProofs few reads ⟨order, each⟩ tracks).fullBuffer
  exact ReturnsIff.met_bind full (ReturnsIff.pure (state.afterProofs entry))

/-- The state after all delegation proofs. -/
def afterAll (entries : List Entry) (state : DelegationState numSets) : DelegationState numSets :=
  passed (fun _ => afterProofs) 0 entries state

/-- What the statement asks of all delegation proofs: the field has room for their requests. -/
structure AllowsAll (memoryChallenges : ExternalMemoryArgumentChallenges)
    (delegationChallenges : Vector ExternalDelegationArgumentChallenges 1) (entries : List Entry)
    (state : DelegationState numSets) : Prop where
  each : Allowed (fun _ => AllowsProofs memoryChallenges delegationChallenges)
    (fun _ => afterProofs) 0 entries state
  requests : (state.afterAll entries).totalDelegationRequests.toNat < mersenneCharacteristics

theorem returnsIff_run (memoryChallenges : ExternalMemoryArgumentChallenges)
    (delegationChallenges : Vector ExternalDelegationArgumentChallenges 1)
    {entries : List Entry} (few : ∀ entry ∈ entries, entry.2.length < 2 ^ 32)
    (reads : ∀ entry ∈ entries, ∀ single ∈ entry.2,
      single.ReadBy entry.1.verificationFunction)
    {state : DelegationState numSets} {finalState : FinalMachineState}
    (tracks : state.log.Tracks finalState.transcriptWords) :
    ReturnsIff (run memoryChallenges delegationChallenges (entries.map Prod.fst) state)
      (entries.flatMap fun entry => kindWords entry.2)
      (AllowsAll memoryChallenges delegationChallenges entries state)
      (state.afterAll entries) := by
  have each : ReturnsIff
      (Reader.each (proofs memoryChallenges delegationChallenges) (entries.map Prod.fst) state)
      (entries.flatMap fun entry => kindWords entry.2)
      (Allowed (fun _ => AllowsProofs memoryChallenges delegationChallenges)
        (fun _ => afterProofs) 0 entries state)
      (state.afterAll entries) :=
    ReturnsIff.each (fun state => state.log.Tracks finalState.transcriptWords)
      (fun _ entry _ member tracks => returnsIff_proofs (few entry member) (reads entry member)
        tracks)
      (fun _ entry _ member tracks allows => tracks_afterProofs (few entry member)
        (reads entry member) allows tracks)
      0 tracks
  refine (each.bind_nil fun _ => ReturnsIff.check_bind fun _ =>
    ReturnsIff.pure (state.afterAll entries)).congr ?_ fun _ => rfl
  constructor
  · rintro ⟨each, requests, -⟩
    exact ⟨each, requests⟩
  · rintro ⟨each, requests⟩
    exact ⟨each, requests, trivial⟩

def accepted (circuit : DelegationCircuit) (circuitSequence : Nat)
    (single : SingleProof (ProofOutput 1 0 0)) : AcceptedProof numSets :=
  .delegation circuit.delegationType circuitSequence single.output

theorem adds_proofs (entry : Entry) (state : DelegationState numSets) :
    state.log.Adds (state.afterProofs entry).log [countWord entry.2]
      (entry.2.mapIdx (accepted entry.1)) := by
  have start := ProofLog.Adds.announce state.log (countWord entry.2) entry.1.delegationType
  have step : ∀ circuitSequence single (state : DelegationState numSets),
      state.log.Adds (next entry.1 circuitSequence single state).log []
        [accepted entry.1 circuitSequence single] :=
    fun _ _ _ => ⟨(List.append_nil _).symm, rfl⟩
  have passes := ProofLog.Adds.passed DelegationState.log step 0 entry.2
    (state.announce entry.1 (countWord entry.2))
  simp only [Nat.zero_add] at passes
  exact start.trans passes

end DelegationState

end Airbender.Statement
