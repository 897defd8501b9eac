import Mathlib.Data.List.Forall2
import Airbender.Statement.ChallengeBinding
import Airbender.Statement.RoundTrip

/-!
# Whole program proofs

The entry points of the verifiers read back what the host wrote for them: operation, setups and
program proof, for the base layer, the recursion layers and the unified circuit.
-/

namespace Airbender.Statement

open StreamReader Reader

variable {numSets : Nat} {UnrolledModeProof Proof Artifact : Type}

/-! ## What a program proof says -/

/-- What the verifiers make of single proofs: of those of a family and of a delegation type,
under their keys, of inits and teardowns, and of the unified circuit. -/
structure ProofReadings (numSets : Nat) (UnrolledModeProof Proof : Type) where
  family : U8 → UnrolledModeProof → FamilyOutput
  initsAndTeardowns : UnrolledModeProof → ProofOutput 0 numSets 0
  unified : UnrolledModeProof → ProofOutput 1 1 1
  delegation : U32 → Proof → ProofOutput 1 0 0

section SingleProofs

variable {Single Output : Type}

def singleProofs (wordsOf : Single → List U32) (read : Single → Output) (singles : List Single) :
    List (SingleProof Output) :=
  singles.map fun single => { words := wordsOf single, output := read single }

theorem length_singleProofs (wordsOf : Single → List U32) (read : Single → Output)
    (singles : List Single) : (singleProofs wordsOf read singles).length = singles.length :=
  List.length_map _

theorem countWord_singleProofs (wordsOf : Single → List U32) (read : Single → Output)
    (singles : List Single) : countWord (singleProofs wordsOf read singles) = countWord singles := by
  rw [countWord, countWord, length_singleProofs]

theorem kindWords_singleProofs (wordsOf : Single → List U32) (read : Single → Output)
    (singles : List Single) :
    kindWords (singleProofs wordsOf read singles) =
      countWord singles :: singles.flatMap wordsOf := by
  rw [kindWords, countWord_singleProofs, singleProofs, List.flatMap_map]

end SingleProofs

section Content

variable (flattener : ProofFlattener UnrolledModeProof Proof Artifact)
  (compiledLayouts : CompiledCircuitsSet Artifact)
  (readings : ProofReadings numSets UnrolledModeProof Proof)

/-- The words of a single proof of a family. -/
def familyWords (key : U8) (single : UnrolledModeProof) : List U32 :=
  ((compiledLayouts.compiledCircuitFamilies.get key).map
    (flattener.flattenFullUnrolledProof single)).getD []

def initsAndTeardownsWords (single : UnrolledModeProof) : List U32 :=
  (compiledLayouts.compiledInitsAndTeardowns.map
    (flattener.flattenFullUnrolledProof single)).getD []

/-- The proofs of a delegation type, which may be absent. -/
def delegationEntry (delegationProofs : BTreeMap U32 (List Proof)) (circuit : DelegationCircuit) :
    DelegationState.Entry :=
  (circuit, singleProofs flattener.flattenFullProof (readings.delegation circuit.delegationType)
    ((delegationProofs.get circuit.delegationType).getD []))

namespace UnrolledProgramProof

variable (proof : UnrolledProgramProof UnrolledModeProof Proof)

/-- The final machine state in the words of the verifier. -/
def finalMachineState : FinalMachineState where
  registers := proof.registerFinalValues.map fun register =>
    { value := register.value
      timestampLow := (splitTimestamp register.lastAccessTimestamp).1
      timestampHigh := (splitTimestamp register.lastAccessTimestamp).2 }
  finalPc := proof.finalPc
  finalTsLow := (splitTimestamp proof.finalTimestamp).1
  finalTsHigh := (splitTimestamp proof.finalTimestamp).2

/-- The proof, next to what verifies each kind of it. -/
def unrolledContent (kinds : List (CircuitFamily × MerkleTreeCaps))
    (delegations : List DelegationCircuit) : UnrolledContent numSets where
  finalState := proof.finalMachineState
  families :=
    (kinds.zip proof.circuitFamiliesProofs.entries).map fun item =>
      (item.1, singleProofs (familyWords flattener compiledLayouts item.2.1)
        (readings.family item.2.1) item.2.2)
  initsAndTeardowns :=
    singleProofs (initsAndTeardownsWords flattener compiledLayouts) readings.initsAndTeardowns
      proof.initsAndTeardownsProofs
  delegations := delegations.map (delegationEntry flattener readings proof.delegationProofs)
  powChallenge := proof.powChallenge
  preimage := proof.recursionChainPreimage

/-- A proof of the unified circuit. -/
def unifiedContent (unified : List UnrolledModeProof) (delegations : List DelegationCircuit) :
    UnifiedContent where
  finalState := proof.finalMachineState
  unified :=
    singleProofs (familyWords flattener compiledLayouts reducedMachineFamily) readings.unified
      unified
  delegations := delegations.map (delegationEntry flattener readings proof.delegationProofs)
  powChallenge := proof.powChallenge
  preimage := proof.recursionChainPreimage

/-- The number of proofs of each list fits in a word. -/
structure Few : Prop where
  families : ∀ entry ∈ proof.circuitFamiliesProofs.entries, entry.2.length < 2 ^ 32
  initsAndTeardowns : proof.initsAndTeardownsProofs.length < 2 ^ 32
  delegations : ∀ entry ∈ proof.delegationProofs.entries, entry.2.length < 2 ^ 32

theorem Few.delegationEntry {proof : UnrolledProgramProof UnrolledModeProof Proof}
    (few : proof.Few) (circuit : DelegationCircuit) :
    (delegationEntry flattener readings proof.delegationProofs circuit).2.length < 2 ^ 32 := by
  rw [Statement.delegationEntry, length_singleProofs]
  cases found : proof.delegationProofs.get circuit.delegationType with
  | none => exact Nat.two_pow_pos 32
  | some proofs =>
      exact few.delegations (circuit.delegationType, proofs) (BTreeMap.mem_of_get found)

theorem words_finalMachineState : proof.finalMachineState.words =
    proof.registerFinalValues.toList.flatMap FinalRegisterValue.words ++
      [proof.finalPc, (splitTimestamp proof.finalTimestamp).1,
        (splitTimestamp proof.finalTimestamp).2] := by
  rw [FinalMachineState.words, finalMachineState, registerWords, Vector.toList_map,
    List.flatMap_map]
  rfl

end UnrolledProgramProof

/-! ## The words of each kind -/

theorem eq_map_of_mapM_eq_some {α β : Type} {f : α → Option β} {g : α → β}
    (value : ∀ a b, f a = some b → b = g a) {items : List α} {results : List β}
    (mapped : items.mapM f = some results) : results = items.map g := by
  induction items generalizing results with
  | nil =>
      rw [List.mapM_nil] at mapped
      exact (Option.some.inj mapped).symm
  | cons item items inductionHypothesis =>
      rw [List.mapM_cons, Option.bind_eq_bind, Option.bind_eq_some_iff] at mapped
      obtain ⟨first, isFirst, mapped⟩ := mapped
      rw [Option.bind_eq_bind, Option.bind_eq_some_iff] at mapped
      obtain ⟨others, areOthers, mapped⟩ := mapped
      rw [← Option.some.inj mapped, value item first isFirst, inductionHypothesis areOthers,
        List.map_cons]

/-- The number and the words of the proofs of a family. -/
def familyKindWords (entry : U8 × List UnrolledModeProof) : List U32 :=
  countWord entry.2 :: entry.2.flatMap (familyWords flattener compiledLayouts entry.1)

variable {flattener compiledLayouts}

theorem flattenFamily_eq {entry : U8 × List UnrolledModeProof} {words : List U32}
    (flattened : flattenFamily flattener compiledLayouts entry = some words) :
    words = familyKindWords flattener compiledLayouts entry := by
  rw [flattenFamily, Option.bind_eq_bind, Option.bind_eq_some_iff] at flattened
  obtain ⟨proofs, mapped, flattened⟩ := flattened
  have proofsEq : proofs = entry.2.map (familyWords flattener compiledLayouts entry.1) := by
    refine eq_map_of_mapM_eq_some ?_ mapped
    intro single words found
    rw [Option.bind_eq_bind, Option.bind_eq_some_iff] at found
    obtain ⟨artifact, isArtifact, found⟩ := found
    rw [familyWords, isArtifact, ← Option.some.inj found]
    rfl
  rw [← Option.some.inj flattened, familyKindWords, proofsEq, List.flatMap_def]

theorem flattenInitsAndTeardowns_eq (proofs : List UnrolledModeProof)
    (compiled : compiledLayouts.compiledInitsAndTeardowns.isSome = true) :
    flattenInitsAndTeardowns flattener compiledLayouts proofs =
      countWord proofs :: proofs.flatMap (initsAndTeardownsWords flattener compiledLayouts) := by
  obtain ⟨artifact, isCompiled⟩ := Option.isSome_iff_exists.mp compiled
  have wordsOf : initsAndTeardownsWords flattener compiledLayouts =
      fun single => flattener.flattenFullUnrolledProof single artifact := by
    funext single
    rw [initsAndTeardownsWords, isCompiled]
    rfl
  rw [flattenInitsAndTeardowns, isCompiled, wordsOf]

theorem flattenInitsAndTeardowns_nil :
    flattenInitsAndTeardowns flattener compiledLayouts [] = [0] := by
  rw [flattenInitsAndTeardowns]
  cases compiledLayouts.compiledInitsAndTeardowns with
  | some artifact => rfl
  | none => rfl

theorem flattenDelegations_eq (delegationProofs : BTreeMap U32 (List Proof))
    {circuit : DelegationCircuit} (isDelegation : circuit.delegationType ≠ nonDeterminismCsr) :
    flattenDelegations flattener delegationProofs circuit.delegationType =
      kindWords (delegationEntry flattener readings delegationProofs circuit).2 := by
  rw [delegationEntry, kindWords_singleProofs, flattenDelegations, if_neg isDelegation]
  cases delegationProofs.get circuit.delegationType with
  | some proofs => rfl
  | none => rfl

/-- The words of a program proof, kind by kind. -/
theorem flattenIntoResponses_eq {proof : UnrolledProgramProof UnrolledModeProof Proof}
    {delegations : List DelegationCircuit} {words : List U32}
    (isDelegation : ∀ circuit ∈ delegations, circuit.delegationType ≠ nonDeterminismCsr)
    (flattened : proof.flattenIntoResponses flattener compiledLayouts
      (delegations.map DelegationCircuit.delegationType) = some words) :
    words = proof.finalMachineState.words ++
      (proof.circuitFamiliesProofs.entries.flatMap (familyKindWords flattener compiledLayouts) ++
        (flattenInitsAndTeardowns flattener compiledLayouts proof.initsAndTeardownsProofs ++
          ((delegations.map (delegationEntry flattener readings proof.delegationProofs)).flatMap
            fun entry => kindWords entry.2))) ++
      (powChallengeWords proof.powChallenge ++ preimageWords proof.recursionChainPreimage) := by
  rw [UnrolledProgramProof.flattenIntoResponses] at flattened
  simp only [Option.bind_eq_bind, Option.bind_eq_some_iff] at flattened
  obtain ⟨families, mapped, flattened⟩ := flattened
  have familiesEq := eq_map_of_mapM_eq_some (fun _ _ => flattenFamily_eq) mapped
  have written : ((delegations.map
      (delegationEntry flattener readings proof.delegationProofs)).flatMap
        fun entry => kindWords entry.2) =
      (delegations.map DelegationCircuit.delegationType).flatMap
        (flattenDelegations flattener proof.delegationProofs) := by
    rw [List.flatMap_map, List.flatMap_map]
    apply List.flatMap_congr
    intro circuit member
    exact (flattenDelegations_eq readings proof.delegationProofs
      (isDelegation circuit member)).symm
  rw [← Option.some.inj flattened, familiesEq, ← List.flatMap_def, written,
    UnrolledProgramProof.words_finalMachineState]
  simp only [powChallengeWords, preimageWords, List.append_assoc]

end Content

/-! ## Setups -/

/-- Setups are read whatever comes after them. -/
theorem returns_readSetups {count : Nat} {setups : List MerkleTreeCaps}
    (length : setups.length = count) :
    ∃ read : Vector MerkleTreeCaps count, read.toList = setups ∧
      Returns (readSetups count) (setups.flatMap MerkleTreeCap.flatten) read := by
  induction count generalizing setups with
  | zero =>
      obtain rfl := List.length_eq_zero_iff.mp length
      exact ⟨#v[], rfl, fun _ => rfl⟩
  | succ count inductionHypothesis =>
      rcases List.eq_nil_or_concat' setups with rfl | ⟨initial, last, rfl⟩
      · exact absurd length (Nat.succ_ne_zero count).symm
      · rw [List.length_append, List.length_singleton, Nat.succ_inj] at length
        obtain ⟨read, isRead, run⟩ := inductionHypothesis length
        refine ⟨read.push last, ?_, ?_⟩
        · rw [Vector.toList_push, isRead]
        · intro rest
          have caps : MerkleTreeCap.readCaps (MerkleTreeCap.flatten last ++ rest) =
              some (last, rest) := by
            have taken := Reader.tokens_eq_some_iff.mpr
              ⟨MerkleTreeCap.length_flatten last, (rfl : MerkleTreeCap.flatten last ++ rest = _)⟩
            have whole : 8 * capSize * numCosets = 1024 := rfl
            rw [MerkleTreeCap.readCaps, whole, Reader.bind_of_run taken,
              MerkleTreeCap.ofWords_flatten]
            rfl
          rw [List.flatMap_append, List.flatMap_singleton, List.append_assoc, readSetups,
            Reader.bind_of_run (run _), Reader.bind_of_run caps]
          rfl

theorem returns_readSetups_one (caps : MerkleTreeCaps) :
    Returns (readSetups 1) (MerkleTreeCap.flatten caps) #v[caps] := by
  obtain ⟨read, isRead, run⟩ := returns_readSetups (List.length_singleton (a := caps))
  have isOne : read = #v[caps] := Vector.toList_inj.mp isRead
  rw [List.flatMap_singleton, isOne] at run
  exact run

/-! ## Layers -/

section Layers

variable {flattener : ProofFlattener UnrolledModeProof Proof Artifact}
  {compiledLayouts : CompiledCircuitsSet Artifact}
  {readings : ProofReadings numSets UnrolledModeProof Proof}
  {proof : UnrolledProgramProof UnrolledModeProof Proof} {setup : UnrolledProgramSetup}
  {verifiers : CircuitVerifiers numSets}

/-- Kinds and entries that are listed by the same keys, one after the other. -/
theorem circuitFamily_of_mem_zip {Kind Value : Type} {circuitFamily : Kind → U32}
    {kinds : List Kind} {keys : List U8}
    (listed : kinds.map circuitFamily = keys.map (BitVec.setWidth 32))
    {entries : List (U8 × Value)} (sameKeys : entries.map Prod.fst = keys)
    {item : Kind × (U8 × Value)} (member : item ∈ kinds.zip entries) :
    circuitFamily item.1 = item.2.1.setWidth 32 := by
  have related : List.Forall₂
      (fun (kind : Kind) (entry : U8 × Value) => circuitFamily kind = entry.1.setWidth 32)
      kinds entries := by
    rw [← sameKeys, List.map_map, ← List.forall₂_eq_eq_eq, List.forall₂_map_left_iff,
      List.forall₂_map_right_iff] at listed
    exact listed
  exact List.forall₂_zip related member

section Unrolled

variable (verifiers)

/-- The families of the machine that an unrolled layer is about. -/
def CircuitVerifiers.families (isBaseLayer : Bool) : List CircuitFamily :=
  if isBaseLayer then verifiers.fullUnsignedMachine
  else verifiers.recursionWordOnlyUnsignedMachine

def CircuitVerifiers.delegations (isBaseLayer : Bool) : List DelegationCircuit :=
  if isBaseLayer then verifiers.baseLayerDelegations
  else verifiers.recursionLayerDelegations

/-- The keys of these families. -/
def familyKeys (isBaseLayer : Bool) : List U8 :=
  if isBaseLayer then
    [addSubLuiAuipcMopCircuitFamilyIdx, jumpBranchSltCircuitFamilyIdx,
      shiftBinaryCsrCircuitFamilyIdx, mulDivCircuitFamilyIdx, loadStoreWordOnlyCircuitFamilyIdx,
      loadStoreSubwordOnlyCircuitFamilyIdx]
  else
    [addSubLuiAuipcMopCircuitFamilyIdx, jumpBranchSltCircuitFamilyIdx,
      shiftBinaryCsrCircuitFamilyIdx, loadStoreWordOnlyCircuitFamilyIdx]

theorem sorted_familyKeys (isBaseLayer : Bool) : (familyKeys isBaseLayer).Pairwise (· < ·) := by
  cases isBaseLayer <;> decide

theorem circuitFamily_families (isBaseLayer : Bool) :
    (verifiers.families isBaseLayer).map CircuitFamily.circuitFamily =
      (familyKeys isBaseLayer).map (BitVec.setWidth 32) := by
  cases isBaseLayer <;> rfl

theorem delegationType_delegations (isBaseLayer : Bool) :
    (verifiers.delegations isBaseLayer).map DelegationCircuit.delegationType =
      if isBaseLayer then baseLayerDelegationTypes else recursionLayerDelegationTypes := by
  cases isBaseLayer <;> rfl

theorem isDelegation_delegations {isBaseLayer : Bool} {circuit : DelegationCircuit}
    (member : circuit ∈ verifiers.delegations isBaseLayer) :
    circuit.delegationType ≠ nonDeterminismCsr := by
  have isType : circuit.delegationType ∈
      (verifiers.delegations isBaseLayer).map DelegationCircuit.delegationType :=
    List.mem_map_of_mem member
  rw [delegationType_delegations] at isType
  intro csr
  rw [csr] at isType
  revert isType
  cases isBaseLayer <;> decide

/-- The kinds of proofs of an unrolled layer: a family and its setup. -/
def CircuitVerifiers.kinds (isBaseLayer : Bool) (setup : UnrolledProgramSetup) :
    List (CircuitFamily × MerkleTreeCaps) :=
  (verifiers.families isBaseLayer).zip setup.circuitFamiliesSetups.values

/-- What an unrolled layer calls its statement with. -/
def CircuitVerifiers.unrolledArguments (isBaseLayer : Bool) (setup : UnrolledProgramSetup) :
    UnrolledArguments numSets where
  baseLayer := isBaseLayer
  memoryDelegationPowBits := verifiers.memoryDelegationPowBits
  circuitsFamiliesSetups := setup.circuitFamiliesSetups.values
  circuitsFamiliesVerifiers := verifiers.families isBaseLayer
  initsAndTeardownsVerifier := (setup.initsAndTeardownsSetup, verifiers.initsAndTeardowns)
  delegationCircuitsVerifiers := verifiers.delegations isBaseLayer

/-- The content of an unrolled program proof. -/
abbrev unrolledContent (flattener : ProofFlattener UnrolledModeProof Proof Artifact)
    (compiledLayouts : CompiledCircuitsSet Artifact)
    (readings : ProofReadings numSets UnrolledModeProof Proof)
    (proof : UnrolledProgramProof UnrolledModeProof Proof) (setup : UnrolledProgramSetup)
    (verifiers : CircuitVerifiers numSets) (isBaseLayer : Bool) : UnrolledContent numSets :=
  proof.unrolledContent flattener compiledLayouts readings (verifiers.kinds isBaseLayer setup)
    (verifiers.delegations isBaseLayer)

/-- A program proof and setup of an unrolled layer: one entry for each family, a circuit for
inits and teardowns, and a preimage except at the base.  The verifiers read exactly the words of
its single proofs. -/
structure OfUnrolledLayer (flattener : ProofFlattener UnrolledModeProof Proof Artifact)
    (compiledLayouts : CompiledCircuitsSet Artifact)
    (readings : ProofReadings numSets UnrolledModeProof Proof)
    (proof : UnrolledProgramProof UnrolledModeProof Proof) (setup : UnrolledProgramSetup)
    (verifiers : CircuitVerifiers numSets) (isBaseLayer : Bool) : Prop where
  proofKeys : ∀ key, key ∈ proof.circuitFamiliesProofs.keys ↔ key ∈ familyKeys isBaseLayer
  setupKeys : ∀ key, key ∈ setup.circuitFamiliesSetups.keys ↔ key ∈ familyKeys isBaseLayer
  compiled : compiledLayouts.compiledInitsAndTeardowns.isSome = true
  preimage : proof.recursionChainPreimage.isSome = !isBaseLayer
  readsFamilies : ∀ family ∈ verifiers.families isBaseLayer,
    ∀ entry ∈ proof.circuitFamiliesProofs.entries,
      family.circuitFamily = entry.1.setWidth 32 → ∀ single ∈ entry.2,
        family.Reads
          { words := familyWords flattener compiledLayouts entry.1 single
            output := readings.family entry.1 single }
  readsInits : ∀ single ∈ proof.initsAndTeardownsProofs,
    SingleProof.ReadBy
      { words := initsAndTeardownsWords flattener compiledLayouts single
        output := readings.initsAndTeardowns single }
      verifiers.initsAndTeardowns
  readsDelegations : ∀ circuit ∈ verifiers.delegations isBaseLayer,
    ∀ proofs, proof.delegationProofs.get circuit.delegationType = some proofs →
      ∀ single ∈ proofs,
        SingleProof.ReadBy
          { words := flattener.flattenFullProof single
            output := readings.delegation circuit.delegationType single }
          circuit.verificationFunction

variable {verifiers} {isBaseLayer : Bool}

namespace OfUnrolledLayer

theorem length_setups
    (layer : OfUnrolledLayer flattener compiledLayouts readings proof setup verifiers
      isBaseLayer) :
    setup.circuitFamiliesSetups.values.length = (verifiers.families isBaseLayer).length := by
  have keys := setup.circuitFamiliesSetups.keys_eq (sorted_familyKeys isBaseLayer)
    layer.setupKeys
  have listed := congrArg List.length (circuitFamily_families verifiers isBaseLayer)
  rw [List.length_map, List.length_map, ← keys, BTreeMap.length_keys] at listed
  rw [listed, BTreeMap.values, List.length_map]

theorem fst_kinds
    (layer : OfUnrolledLayer flattener compiledLayouts readings proof setup verifiers
      isBaseLayer) :
    (verifiers.kinds isBaseLayer setup).map Prod.fst = verifiers.families isBaseLayer :=
  List.map_fst_zip layer.length_setups.ge

theorem length_kinds
    (layer : OfUnrolledLayer flattener compiledLayouts readings proof setup verifiers
      isBaseLayer) :
    (verifiers.kinds isBaseLayer setup).length = proof.circuitFamiliesProofs.entries.length := by
  have keys := proof.circuitFamiliesProofs.keys_eq (sorted_familyKeys isBaseLayer)
    layer.proofKeys
  have listed := congrArg List.length (circuitFamily_families verifiers isBaseLayer)
  have kinds := congrArg List.length layer.fst_kinds
  rw [List.length_map, List.length_map, ← keys, BTreeMap.length_keys] at listed
  rw [List.length_map] at kinds
  rw [kinds, listed]

theorem few_content (few : proof.Few) (kinds : List (CircuitFamily × MerkleTreeCaps))
    (delegations : List DelegationCircuit) :
    (proof.unrolledContent flattener compiledLayouts readings kinds delegations).Few := by
  refine ⟨?_, ?_, ?_⟩
  · intro item member
    obtain ⟨⟨kind, entry⟩, inZip, rfl⟩ := List.mem_map.mp member
    rw [length_singleProofs]
    exact few.families entry (List.of_mem_zip inZip).2
  · rw [UnrolledProgramProof.unrolledContent, length_singleProofs]
    exact few.initsAndTeardowns
  · intro item member
    obtain ⟨circuit, -, rfl⟩ := List.mem_map.mp member
    exact few.delegationEntry flattener readings circuit

theorem fits
    (layer : OfUnrolledLayer flattener compiledLayouts readings proof setup verifiers
      isBaseLayer) :
    (verifiers.unrolledArguments isBaseLayer setup).Fits
      (unrolledContent flattener compiledLayouts readings proof setup verifiers isBaseLayer) := by
  have keys := proof.circuitFamiliesProofs.keys_eq (sorted_familyKeys isBaseLayer)
    layer.proofKeys
  constructor
  case families =>
    have firsts : ((verifiers.kinds isBaseLayer setup).zip
        proof.circuitFamiliesProofs.entries).map Prod.fst = verifiers.kinds isBaseLayer setup :=
      List.map_fst_zip layer.length_kinds.le
    rw [unrolledContent, UnrolledProgramProof.unrolledContent, List.map_map]
    exact firsts.symm
  case delegations =>
    rw [unrolledContent, UnrolledProgramProof.unrolledContent, List.map_map]
    exact (List.map_id _).symm
  case preimage => exact layer.preimage
  case readsFamilies =>
    intro item member single isSingle
    obtain ⟨⟨kind, entry⟩, inZip, rfl⟩ := List.mem_map.mp member
    obtain ⟨modeProof, isProof, rfl⟩ := List.mem_map.mp isSingle
    have listed : (verifiers.kinds isBaseLayer setup).map (fun kind => kind.1.circuitFamily) =
        (familyKeys isBaseLayer).map (BitVec.setWidth 32) := by
      rw [← circuitFamily_families verifiers, ← layer.fst_kinds, List.map_map]
      rfl
    have inKinds := List.of_mem_zip inZip
    have isFamily : kind.1 ∈ verifiers.families isBaseLayer := by
      rw [← layer.fst_kinds]
      exact List.mem_map_of_mem inKinds.1
    exact layer.readsFamilies kind.1 isFamily entry inKinds.2
      (circuitFamily_of_mem_zip listed keys inZip) modeProof isProof
  case readsInits =>
    intro single isSingle
    obtain ⟨modeProof, isProof, rfl⟩ := List.mem_map.mp isSingle
    exact layer.readsInits modeProof isProof
  case readsDelegations =>
    intro item member single isSingle
    obtain ⟨circuit, isCircuit, rfl⟩ := List.mem_map.mp member
    obtain ⟨delegationProof, isProof, rfl⟩ := List.mem_map.mp isSingle
    cases found : proof.delegationProofs.get circuit.delegationType with
    | none =>
        rw [found] at isProof
        exact absurd isProof List.not_mem_nil
    | some proofs =>
        rw [found] at isProof
        exact layer.readsDelegations circuit isCircuit proofs found delegationProof isProof

/-- An unrolled layer reads the setups and the program proof. -/
theorem returnsIff_verifyUnrolledLayer
    (layer : OfUnrolledLayer flattener compiledLayouts readings proof setup verifiers
      isBaseLayer) (few : proof.Few) (buffers : UnrolledBuffers numSets) :
    ReturnsIff
      (verifyUnrolledLayer verifiers buffers isBaseLayer (verifiers.families isBaseLayer)
        (verifiers.delegations isBaseLayer))
      (setup.flattenForRecursion ++
        (unrolledContent flattener compiledLayouts readings proof setup verifiers
          isBaseLayer).words)
      ((unrolledContent flattener compiledLayouts readings proof setup verifiers
        isBaseLayer).Holds (verifiers.unrolledArguments isBaseLayer setup) buffers)
      { setups := setup.circuitFamiliesSetups.values ++ [setup.initsAndTeardownsSetup]
        statement :=
          (unrolledContent flattener compiledLayouts readings proof setup verifiers
            isBaseLayer).run (verifiers.unrolledArguments isBaseLayer setup) } := by
  obtain ⟨setups, areSetups, readSetups⟩ := returns_readSetups layer.length_setups
  have read := layer.fits.returnsIff (few_content few _ _) buffers
  rw [verifyUnrolledLayer, UnrolledProgramSetup.flattenForRecursion, List.append_assoc]
  refine ReturnsIff.returns_bind readSetups ?_
  refine ReturnsIff.returns_bind (returns_readSetups_one setup.initsAndTeardownsSetup) ?_
  rw [areSetups]
  exact read.map fun statement : StatementRun numSets =>
    ({ setups := setup.circuitFamiliesSetups.values ++ [setup.initsAndTeardownsSetup]
       statement := statement } : LayerRun numSets)

/-- What `flatten_into_responses` makes of such a proof. -/
theorem flattenIntoResponses_eq
    (layer : OfUnrolledLayer flattener compiledLayouts readings proof setup verifiers
      isBaseLayer) {words : List U32}
    (flattened : proof.flattenIntoResponses flattener compiledLayouts
      (if isBaseLayer then baseLayerDelegationTypes else recursionLayerDelegationTypes) =
        some words) :
    words =
      (unrolledContent flattener compiledLayouts readings proof setup verifiers
        isBaseLayer).words := by
  rw [← delegationType_delegations verifiers] at flattened
  have families : ((verifiers.kinds isBaseLayer setup).zip
      proof.circuitFamiliesProofs.entries).flatMap
        (fun item => familyKindWords flattener compiledLayouts item.2) =
      proof.circuitFamiliesProofs.entries.flatMap (familyKindWords flattener compiledLayouts) := by
    have seconds : ((verifiers.kinds isBaseLayer setup).zip
        proof.circuitFamiliesProofs.entries).map Prod.snd = proof.circuitFamiliesProofs.entries :=
      List.map_snd_zip layer.length_kinds.ge
    rw [← seconds, List.flatMap_map, seconds]
  rw [Statement.flattenIntoResponses_eq readings
    (fun circuit member => isDelegation_delegations verifiers member) flattened,
    flattenInitsAndTeardowns_eq _ layer.compiled, UnrolledContent.words,
    UnrolledContent.proofWords, unrolledContent, UnrolledProgramProof.unrolledContent]
  simp only [List.flatMap_map, kindWords_singleProofs, ← families]
  rfl

end OfUnrolledLayer

end Unrolled

section Unified

/-- What the unified layer calls its statement with. -/
def CircuitVerifiers.unifiedArguments (verifiers : CircuitVerifiers numSets)
    (caps : MerkleTreeCaps) : UnifiedArguments where
  baseLayer := false
  memoryDelegationPowBits := verifiers.memoryDelegationPowBits
  unifiedCircuitSetup := caps
  unifiedCircuitCapacity := verifiers.unifiedReducedMachine.capacity
  unifiedCircuitVerifier := verifiers.unifiedReducedMachine.verify
  delegationCircuitsVerifiers := verifiers.recursionLayerDelegations

/-- The content of a program proof of the unified circuit. -/
abbrev unifiedContent (flattener : ProofFlattener UnrolledModeProof Proof Artifact)
    (compiledLayouts : CompiledCircuitsSet Artifact)
    (readings : ProofReadings numSets UnrolledModeProof Proof)
    (proof : UnrolledProgramProof UnrolledModeProof Proof) (unified : List UnrolledModeProof)
    (verifiers : CircuitVerifiers numSets) : UnifiedContent :=
  proof.unifiedContent flattener compiledLayouts readings unified
    verifiers.recursionLayerDelegations

/-- A program proof and setup of the unified circuit, whose verifier reads exactly the words of
the proofs. -/
structure OfUnifiedLayer (flattener : ProofFlattener UnrolledModeProof Proof Artifact)
    (compiledLayouts : CompiledCircuitsSet Artifact)
    (readings : ProofReadings numSets UnrolledModeProof Proof)
    (proof : UnrolledProgramProof UnrolledModeProof Proof) (setup : UnrolledProgramSetup)
    (unified : List UnrolledModeProof) (caps : MerkleTreeCaps)
    (verifiers : CircuitVerifiers numSets) : Prop where
  proofEntries : proof.circuitFamiliesProofs.entries = [(reducedMachineFamily, unified)]
  setupEntries : setup.circuitFamiliesSetups.entries = [(reducedMachineFamily, caps)]
  preimage : proof.recursionChainPreimage.isSome = true
  readsUnified : ∀ single ∈ unified,
    SingleProof.ReadBy
      { words := familyWords flattener compiledLayouts reducedMachineFamily single
        output := readings.unified single }
      verifiers.unifiedReducedMachine.verify
  readsDelegations : ∀ circuit ∈ verifiers.recursionLayerDelegations,
    ∀ proofs, proof.delegationProofs.get circuit.delegationType = some proofs →
      ∀ single ∈ proofs,
        SingleProof.ReadBy
          { words := flattener.flattenFullProof single
            output := readings.delegation circuit.delegationType single }
          circuit.verificationFunction

namespace OfUnifiedLayer

variable {unified : List UnrolledModeProof} {caps : MerkleTreeCaps}

theorem fits
    (layer : OfUnifiedLayer flattener compiledLayouts readings proof setup unified caps
      verifiers) :
    (verifiers.unifiedArguments caps).Fits
      (unifiedContent flattener compiledLayouts readings proof unified verifiers) := by
  constructor
  case delegations =>
    rw [unifiedContent, UnrolledProgramProof.unifiedContent, List.map_map]
    exact (List.map_id _).symm
  case preimage => exact layer.preimage
  case readsUnified =>
    intro single isSingle
    obtain ⟨modeProof, isProof, rfl⟩ := List.mem_map.mp isSingle
    exact layer.readsUnified modeProof isProof
  case readsDelegations =>
    intro item member single isSingle
    obtain ⟨circuit, isCircuit, rfl⟩ := List.mem_map.mp member
    obtain ⟨delegationProof, isProof, rfl⟩ := List.mem_map.mp isSingle
    cases found : proof.delegationProofs.get circuit.delegationType with
    | none =>
        rw [found] at isProof
        exact absurd isProof List.not_mem_nil
    | some proofs =>
        rw [found] at isProof
        exact layer.readsDelegations circuit isCircuit proofs found delegationProof isProof

theorem few_content
    (layer : OfUnifiedLayer flattener compiledLayouts readings proof setup unified caps
      verifiers) (few : proof.Few) :
    (unifiedContent flattener compiledLayouts readings proof unified verifiers).Few := by
  refine ⟨?_, ?_⟩
  · rw [unifiedContent, UnrolledProgramProof.unifiedContent, length_singleProofs]
    refine few.families (reducedMachineFamily, unified) ?_
    rw [layer.proofEntries]
    exact List.mem_singleton_self _
  · intro item member
    obtain ⟨circuit, -, rfl⟩ := List.mem_map.mp member
    exact few.delegationEntry flattener readings circuit

/-- The unified layer reads its setup and the program proof. -/
theorem returnsIff_verifyUnifiedCircuitRecursionLayer
    (layer : OfUnifiedLayer flattener compiledLayouts readings proof setup unified caps
      verifiers) (few : proof.Few) (buffers : UnifiedBuffers) :
    ReturnsIff (verifyUnifiedCircuitRecursionLayer verifiers buffers)
      (setup.circuitFamiliesSetups.values.flatMap MerkleTreeCap.flatten ++
        (unifiedContent flattener compiledLayouts readings proof unified verifiers).words)
      ((unifiedContent flattener compiledLayouts readings proof unified verifiers).Holds
        (verifiers.unifiedArguments caps) buffers)
      { setups := [caps]
        statement :=
          (unifiedContent flattener compiledLayouts readings proof unified verifiers).run
            (verifiers.unifiedArguments caps) buffers } := by
  have values : setup.circuitFamiliesSetups.values = [caps] := by
    rw [BTreeMap.values, layer.setupEntries]
    rfl
  have read := layer.fits.returnsIff (layer.few_content few) buffers
  rw [verifyUnifiedCircuitRecursionLayer, values, List.flatMap_singleton]
  refine ReturnsIff.returns_bind (returns_readSetups_one caps) ?_
  exact read.map fun statement : StatementRun 1 =>
    ({ setups := [caps]
       statement := statement } : LayerRun 1)

theorem flattenIntoResponses_eq
    (layer : OfUnifiedLayer flattener compiledLayouts readings proof setup unified caps
      verifiers) (noInits : proof.initsAndTeardownsProofs = []) {words : List U32}
    (flattened : proof.flattenIntoResponses flattener compiledLayouts
      recursionLayerDelegationTypes = some words) :
    words =
      (unifiedContent flattener compiledLayouts readings proof unified verifiers).words := by
  have types := delegationType_delegations verifiers false
  rw [if_neg Bool.false_ne_true] at types
  rw [← types] at flattened
  rw [Statement.flattenIntoResponses_eq readings
    (fun circuit member => isDelegation_delegations verifiers member) flattened, noInits,
    flattenInitsAndTeardowns_nil, layer.proofEntries, UnifiedContent.words,
    UnifiedContent.proofWords, unifiedContent, UnrolledProgramProof.unifiedContent,
    List.flatMap_singleton, kindWords_singleProofs]
  rfl

end OfUnifiedLayer

end Unified

/-! ## Entry points -/

/-- What an unrolled layer keeps and returns. -/
def unrolledRun (flattener : ProofFlattener UnrolledModeProof Proof Artifact)
    (compiledLayouts : CompiledCircuitsSet Artifact)
    (readings : ProofReadings numSets UnrolledModeProof Proof)
    (proof : UnrolledProgramProof UnrolledModeProof Proof) (setup : UnrolledProgramSetup)
    (verifiers : CircuitVerifiers numSets) (isBaseLayer : Bool) : LayerRun numSets where
  setups := setup.circuitFamiliesSetups.values ++ [setup.initsAndTeardownsSetup]
  statement :=
    (unrolledContent flattener compiledLayouts readings proof setup verifiers isBaseLayer).run
      (verifiers.unrolledArguments isBaseLayer setup)

/-- What the unified layer keeps and returns. -/
def unifiedRun (flattener : ProofFlattener UnrolledModeProof Proof Artifact)
    (compiledLayouts : CompiledCircuitsSet Artifact)
    (readings : ProofReadings numSets UnrolledModeProof Proof)
    (proof : UnrolledProgramProof UnrolledModeProof Proof) (unified : List UnrolledModeProof)
    (caps : MerkleTreeCaps) (verifiers : CircuitVerifiers numSets) (buffers : UnifiedBuffers) :
    LayerRun 1 where
  setups := [caps]
  statement :=
    (unifiedContent flattener compiledLayouts readings proof unified verifiers).run
      (verifiers.unifiedArguments caps) buffers

theorem OfUnrolledLayer.returnsIff_verifyBaseOrRecursion {isBaseLayer : Bool}
    (layer : OfUnrolledLayer flattener compiledLayouts readings proof setup verifiers
      isBaseLayer) (few : proof.Few) (buffers : UnrolledBuffers numSets) {words : List U32}
    (flattened : flattenProofIntoResponsesForUnrolledRecursion flattener compiledLayouts proof
      setup isBaseLayer = some words) :
    ReturnsIff (verifyBaseOrRecursionUnrolledCircuits verifiers buffers) words
      ((unrolledContent flattener compiledLayouts readings proof setup verifiers
        isBaseLayer).Holds (verifiers.unrolledArguments isBaseLayer setup) buffers)
      (unrolledRun flattener compiledLayouts readings proof setup verifiers isBaseLayer) := by
  rw [flattenProofIntoResponsesForUnrolledRecursion, Option.bind_eq_bind,
    Option.bind_eq_some_iff] at flattened
  obtain ⟨responses, areResponses, flattened⟩ := flattened
  obtain rfl := Option.some.inj flattened
  rw [layer.flattenIntoResponses_eq areResponses, List.append_assoc, List.singleton_append,
    verifyBaseOrRecursionUnrolledCircuits]
  refine ReturnsIff.token_bind ?_
  have read := layer.returnsIff_verifyUnrolledLayer few buffers
  have different : opVerifyRecursiveLayerInUnrolledCircuits ≠
      opVerifyBaseLayerInUnrolledCircuits := by
    decide
  cases isBaseLayer with
  | true =>
      rw [if_pos rfl, if_pos rfl]
      exact read
  | false =>
      rw [if_neg Bool.false_ne_true, if_neg different, if_pos rfl]
      exact read

theorem OfUnrolledLayer.returnsIff_verifyUnrolledOrUnified
    (layer : OfUnrolledLayer flattener compiledLayouts readings proof setup verifiers false)
    (few : proof.Few) (buffers : UnrolledBuffers numSets) (unifiedBuffers : UnifiedBuffers)
    {words : List U32}
    (flattened : flattenProofIntoResponsesForUnifiedRecursion flattener compiledLayouts proof
      setup true = some words) :
    ReturnsIff (verifyUnrolledOrUnifiedCircuitRecursionLayer verifiers buffers unifiedBuffers)
      words
      ((unrolledContent flattener compiledLayouts readings proof setup verifiers
        false).Holds (verifiers.unrolledArguments false setup) buffers)
      (.inl (unrolledRun flattener compiledLayouts readings proof setup verifiers false)) := by
  simp only [flattenProofIntoResponsesForUnifiedRecursion, if_true, Option.bind_eq_bind,
    Option.bind_eq_some_iff] at flattened
  obtain ⟨_, -, _, -, setups, areSetups, responses, areResponses, flattened⟩ := flattened
  obtain rfl := Option.some.inj flattened
  obtain rfl := Option.some.inj areSetups
  rw [layer.flattenIntoResponses_eq areResponses, List.append_assoc, List.singleton_append,
    verifyUnrolledOrUnifiedCircuitRecursionLayer]
  refine ReturnsIff.token_bind ?_
  rw [if_pos rfl]
  have read := layer.returnsIff_verifyUnrolledLayer few buffers
  exact read.map fun run : LayerRun numSets => (.inl run : LayerRun numSets ⊕ LayerRun 1)

theorem OfUnifiedLayer.returnsIff_verifyUnrolledOrUnified {unified : List UnrolledModeProof}
    {caps : MerkleTreeCaps}
    (layer : OfUnifiedLayer flattener compiledLayouts readings proof setup unified caps
      verifiers) (few : proof.Few) (buffers : UnrolledBuffers numSets)
    (unifiedBuffers : UnifiedBuffers) {words : List U32}
    (flattened : flattenProofIntoResponsesForUnifiedRecursion flattener compiledLayouts proof
      setup false = some words) :
    ReturnsIff (verifyUnrolledOrUnifiedCircuitRecursionLayer verifiers buffers unifiedBuffers)
      words
      ((unifiedContent flattener compiledLayouts readings proof unified verifiers).Holds
        (verifiers.unifiedArguments caps) unifiedBuffers)
      (.inr (unifiedRun flattener compiledLayouts readings proof unified caps verifiers
        unifiedBuffers)) := by
  simp only [flattenProofIntoResponsesForUnifiedRecursion, Bool.false_eq_true, if_false,
    UnrolledProgramSetup.flattenUnifiedForRecursion, Option.bind_eq_bind,
    Option.bind_eq_some_iff, Option.guard_eq_some' ()] at flattened
  obtain ⟨_, -, _, -, _, -, _, noInits, _, -, _, -, setups, ⟨_, -, areSetups⟩, responses,
    areResponses, flattened⟩ := flattened
  obtain rfl := Option.some.inj flattened
  obtain rfl := Option.some.inj areSetups
  have empty := List.isEmpty_iff.mp noInits
  have different : opVerifyUnifiedRecursionLayerInUnifiedCircuit ≠
      opVerifyUnrolledRecursionLayerInUnifiedCircuit := by
    decide
  rw [layer.flattenIntoResponses_eq empty areResponses, List.append_assoc,
    List.singleton_append, verifyUnrolledOrUnifiedCircuitRecursionLayer]
  refine ReturnsIff.token_bind ?_
  rw [if_neg different, if_pos rfl]
  have read := layer.returnsIff_verifyUnifiedCircuitRecursionLayer few unifiedBuffers
  exact read.map fun run : LayerRun 1 => (.inr run : LayerRun numSets ⊕ LayerRun 1)

end Layers

/-- Both entry points return on the words of a program proof exactly where their assertions hold
of the values it carries.  Then they have read all words, and keep setups, registers, final
state, numbers of proofs, single proofs, nonce and preimage.  No list of proofs is too long to
be counted in a word. -/
theorem programProof_roundTrip (verifiers : CircuitVerifiers numSets)
    (buffers : UnrolledBuffers numSets) (unifiedBuffers : UnifiedBuffers)
    (flattener : ProofFlattener UnrolledModeProof Proof Artifact)
    (compiledLayouts : CompiledCircuitsSet Artifact)
    (readings : ProofReadings numSets UnrolledModeProof Proof)
    (proof : UnrolledProgramProof UnrolledModeProof Proof) (setup : UnrolledProgramSetup)
    (few : proof.Few) (words : List U32) :
    (∀ isBaseLayer,
      OfUnrolledLayer flattener compiledLayouts readings proof setup verifiers isBaseLayer →
      flattenProofIntoResponsesForUnrolledRecursion flattener compiledLayouts proof setup
        isBaseLayer = some words →
      ReturnsIff (verifyBaseOrRecursionUnrolledCircuits verifiers buffers) words
        ((unrolledContent flattener compiledLayouts readings proof setup verifiers
          isBaseLayer).Holds (verifiers.unrolledArguments isBaseLayer setup) buffers)
        (unrolledRun flattener compiledLayouts readings proof setup verifiers isBaseLayer)) ∧
    (OfUnrolledLayer flattener compiledLayouts readings proof setup verifiers false →
      flattenProofIntoResponsesForUnifiedRecursion flattener compiledLayouts proof setup true =
        some words →
      ReturnsIff (verifyUnrolledOrUnifiedCircuitRecursionLayer verifiers buffers unifiedBuffers)
        words
        ((unrolledContent flattener compiledLayouts readings proof setup verifiers
          false).Holds (verifiers.unrolledArguments false setup) buffers)
        (.inl (unrolledRun flattener compiledLayouts readings proof setup verifiers false))) ∧
    (∀ unified caps,
      OfUnifiedLayer flattener compiledLayouts readings proof setup unified caps verifiers →
      flattenProofIntoResponsesForUnifiedRecursion flattener compiledLayouts proof setup false =
        some words →
      ReturnsIff (verifyUnrolledOrUnifiedCircuitRecursionLayer verifiers buffers unifiedBuffers)
        words
        ((unifiedContent flattener compiledLayouts readings proof unified verifiers).Holds
          (verifiers.unifiedArguments caps) unifiedBuffers)
        (.inr (unifiedRun flattener compiledLayouts readings proof unified caps verifiers
          unifiedBuffers))) := by
  refine ⟨?_, ?_, ?_⟩
  · intro isBaseLayer layer flattened
    exact layer.returnsIff_verifyBaseOrRecursion few buffers flattened
  · intro layer flattened
    exact layer.returnsIff_verifyUnrolledOrUnified few buffers unifiedBuffers flattened
  · intro unified caps layer flattened
    exact layer.returnsIff_verifyUnrolledOrUnified few buffers unifiedBuffers flattened

/-! ### A base layer with proofs of all kinds -/

section Samples

open Blake2s Blake2sBufferingTranscript

/-- The seed of the sample below. -/
def layerSampleSeed : List Nat :=
  [1907484909, 55612917, 679900420, 211088342, 2302197147, 699982587, 3083675960, 2855600577]

/-- Caps full of one word. -/
def markedCaps (mark : U32) : MerkleTreeCaps :=
  Vector.replicate numCosets
    { cap := Vector.replicate capSize (Vector.replicate 8 mark) }

section Marked

variable (numDelegationChallenges numAuxBoundaryValues numMachineStateChallenges : Nat)

/-- A proof with the challenges of the transcript; its memory caps show its mark. -/
def markedOutput (delegationType mark : U32) :
    ProofOutput numDelegationChallenges numAuxBoundaryValues numMachineStateChallenges :=
  { sampleOutput numDelegationChallenges numAuxBoundaryValues numMachineStateChallenges
      (ExternalChallenges.memoryOf (sampleElements layerSampleSeed))
      (ExternalChallenges.delegationOf (sampleElements layerSampleSeed))
      (ExternalChallenges.machineStateOf (sampleElements layerSampleSeed)) with
    memoryCaps := markedCaps mark
    delegationType := delegationType }

/-- A verifier of proofs of one word, their mark. -/
def markedVerifier (delegationType : U32) :
    VerifierFunctionPointer numDelegationChallenges numAuxBoundaryValues
      numMachineStateChallenges := fun _ => do
  let mark ← Reader.token
  pure (markedOutput numDelegationChallenges numAuxBoundaryValues numMachineStateChallenges
    delegationType mark)

def markedCircuit :
    CircuitVerifier numDelegationChallenges numAuxBoundaryValues numMachineStateChallenges where
  capacity := 2 ^ 24 - 1
  verify :=
    markedVerifier numDelegationChallenges numAuxBoundaryValues numMachineStateChallenges 0

end Marked

def markedDelegation (delegationType : U32) : DelegationVerifier where
  setupCaps := markedCaps 0
  verify := markedVerifier 1 0 0 delegationType

/-- Verifiers with the six sets of inits and teardowns of a circuit. -/
def sampleVerifiers : CircuitVerifiers 6 where
  addSubLuiAuipcMop := markedCircuit 0 0 1
  jumpBranchSlt := markedCircuit 0 0 1
  shiftBinaryCsr := markedCircuit 1 0 1
  mulDivUnsigned := markedCircuit 0 0 1
  loadStoreWordOnly := markedCircuit 0 0 1
  loadStoreSubwordOnly := markedCircuit 0 0 1
  initsAndTeardowns := markedVerifier 0 6 0 0
  unifiedReducedMachine := markedCircuit 1 1 1
  blake2WithCompression := markedDelegation 1991
  bigintWithControl := markedDelegation 1994
  keccakSpecial5 := markedDelegation 1995
  memoryDelegationPowBits := 0

/-- Single proofs are written as their marks. -/
def sampleFlattener : ProofFlattener U32 U32 PUnit where
  flattenFullUnrolledProof := fun mark _ => [mark]
  flattenFullProof := fun mark => [mark]

def sampleLayouts : CompiledCircuitsSet PUnit where
  compiledCircuitFamilies :=
    { entries := (familyKeys true).map fun key => (key, ⟨⟩)
      sorted := by decide }
  compiledInitsAndTeardowns := some ⟨⟩

def sampleReadings : ProofReadings 6 U32 U32 where
  family := fun key mark =>
    if key = shiftBinaryCsrCircuitFamilyIdx then .withDelegation (markedOutput 1 0 1 0 mark)
    else .noDelegation (markedOutput 0 0 1 0 mark)
  initsAndTeardowns := markedOutput 0 6 0 0
  unified := markedOutput 1 1 1 0
  delegation := markedOutput 1 0 0

def sampleSetup : UnrolledProgramSetup where
  circuitFamiliesSetups :=
    { entries := (familyKeys true).map fun key => (key, markedCaps 0)
      sorted := by decide }
  initsAndTeardownsSetup := markedCaps 0

/-- Two proofs of one family, one of the family with delegations, one of a delegation type, and
some of inits and teardowns. -/
def sampleProgramProof (initsAndTeardownsProofs : List U32) : UnrolledProgramProof U32 U32 where
  finalPc := 0
  finalTimestamp := initialTimestamp
  circuitFamiliesProofs :=
    { entries :=
        [(addSubLuiAuipcMopCircuitFamilyIdx, [11, 12]), (jumpBranchSltCircuitFamilyIdx, []),
          (shiftBinaryCsrCircuitFamilyIdx, [31]), (mulDivCircuitFamilyIdx, []),
          (loadStoreWordOnlyCircuitFamilyIdx, []), (loadStoreSubwordOnlyCircuitFamilyIdx, [])]
      sorted := by decide }
  initsAndTeardownsProofs := initsAndTeardownsProofs
  delegationProofs :=
    { entries := [(blake2sDelegationCsrRegister, [51]), (bigintOpsWithControlCsrRegister, [])]
      sorted := by decide }
  registerFinalValues := Vector.replicate 32 { value := 0, lastAccessTimestamp := 0 }
  recursionChainPreimage := none
  powChallenge := 0

/-- The words of such a proof. -/
def sampleWords (initsAndTeardownsProofs : List U32) : List U32 :=
  [opVerifyBaseLayerInUnrolledCircuits] ++ sampleSetup.flattenForRecursion ++
    (List.replicate 96 0 ++ [0, 4, 0] ++ [2, 11, 12, 0, 1, 31, 0, 0, 0] ++
      countWord initsAndTeardownsProofs :: initsAndTeardownsProofs ++ [1, 51, 0, 0] ++ [0, 0])

def sampleLayerBuffers : UnrolledBuffers 6 where
  outputs :=
    { proofOutput0 := markedOutput 0 0 1 0 0
      proofOutput1 := markedOutput 0 0 1 0 0 }
  outputsWithDelegation :=
    { proofOutput0 := markedOutput 1 0 1 0 0
      proofOutput1 := markedOutput 1 0 1 0 0 }
  initsAndTeardowns :=
    { proofOutput0 := markedOutput 0 6 0 0 0
      proofOutput1 := markedOutput 0 6 0 0 0 }
  delegation := markedOutput 1 0 0 0 0

theorem flatten_sample (inits : List U32) :
    flattenProofIntoResponsesForUnrolledRecursion sampleFlattener sampleLayouts
      (sampleProgramProof inits) sampleSetup true = some (sampleWords inits) := by
  have registers : (sampleProgramProof []).registerFinalValues.toList.flatMap
      FinalRegisterValue.words = List.replicate 96 0 := by
    decide +kernel
  have families : (sampleProgramProof []).circuitFamiliesProofs.entries.mapM
      (flattenFamily sampleFlattener sampleLayouts) =
        some [[2, 11, 12], [0], [1, 31], [0], [0], [0]] := by
    decide +kernel
  have initsWords : flattenInitsAndTeardowns sampleFlattener sampleLayouts inits =
      countWord inits :: inits := by
    have marks : inits.flatMap (fun mark => [mark]) = inits := by
      induction inits with
      | nil => rfl
      | cons mark inits inductionHypothesis =>
          rw [List.flatMap_cons, inductionHypothesis, List.singleton_append]
    exact congrArg (countWord inits :: ·) marks
  let finalWords : List U32 :=
    [0, (splitTimestamp initialTimestamp).1, (splitTimestamp initialTimestamp).2]
  have isFinal : finalWords = [0, 4, 0] := by
    decide +kernel
  let powWords : List U32 := [(0 : U64).setWidth 32, ((0 : U64) >>> 32).setWidth 32]
  have isPow : powWords = [0, 0] := by
    decide +kernel
  have delegations : baseLayerDelegationTypes.flatMap
      (flattenDelegations sampleFlattener (sampleProgramProof []).delegationProofs) =
        [1, 51, 0, 0] := by
    decide +kernel
  have responses : (sampleProgramProof inits).flattenIntoResponses sampleFlattener sampleLayouts
      baseLayerDelegationTypes =
        some (List.replicate 96 0 ++ [0, 4, 0] ++ [2, 11, 12, 0, 1, 31, 0, 0, 0] ++
          countWord inits :: inits ++ [1, 51, 0, 0] ++ [0, 0]) := by
    have unfolded : (sampleProgramProof inits).flattenIntoResponses sampleFlattener sampleLayouts
        baseLayerDelegationTypes =
          ((sampleProgramProof []).circuitFamiliesProofs.entries.mapM
            (flattenFamily sampleFlattener sampleLayouts)).bind fun families =>
              some ((sampleProgramProof []).registerFinalValues.toList.flatMap
                FinalRegisterValue.words ++ finalWords ++ families.flatten ++
                flattenInitsAndTeardowns sampleFlattener sampleLayouts inits ++
                baseLayerDelegationTypes.flatMap
                  (flattenDelegations sampleFlattener (sampleProgramProof []).delegationProofs) ++
                powWords ++ []) := rfl
    rw [unfolded, families, registers, initsWords, delegations, isFinal, isPow, Option.bind_some,
      List.append_nil]
    rfl
  rw [flattenProofIntoResponsesForUnrolledRecursion, if_pos rfl, if_pos rfl, responses]
  rfl

theorem readBy_markedVerifier
    (numDelegationChallenges numAuxBoundaryValues numMachineStateChallenges : Nat)
    (delegationType mark : U32) :
    SingleProof.ReadBy
      { words := [mark]
        output := markedOutput numDelegationChallenges numAuxBoundaryValues
          numMachineStateChallenges delegationType mark }
      (markedVerifier numDelegationChallenges numAuxBoundaryValues numMachineStateChallenges
        delegationType) := fun _ _ => rfl

theorem ofUnrolledLayer_sample (inits : List U32) :
    OfUnrolledLayer sampleFlattener sampleLayouts sampleReadings (sampleProgramProof inits)
      sampleSetup sampleVerifiers true := by
  have keys : ∀ key, key ∈ familyKeys true ↔ key ∈ familyKeys true := fun _ => Iff.rfl
  refine ⟨keys, keys, rfl, rfl, ?_, ?_, ?_⟩
  · intro family isFamily entry isEntry sameKey mark isMark
    simp only [CircuitVerifiers.families, if_true, CircuitVerifiers.fullUnsignedMachine,
      List.mem_cons, List.not_mem_nil, or_false] at isFamily
    simp only [sampleProgramProof, List.mem_cons, List.not_mem_nil, or_false] at isEntry
    rcases isEntry with rfl | rfl | rfl | rfl | rfl | rfl
    · rcases isFamily with rfl | rfl | rfl | rfl | rfl | rfl
      · exact CircuitFamily.Reads.noDelegation rfl (readBy_markedVerifier 0 0 1 0 mark)
      all_goals exact absurd sameKey (by decide)
    · exact absurd isMark List.not_mem_nil
    · rcases isFamily with rfl | rfl | family | rfl | rfl | rfl
      case inr.inr.inl =>
        rw [family]
        exact CircuitFamily.Reads.withDelegation rfl (readBy_markedVerifier 1 0 1 0 mark)
      all_goals exact absurd sameKey (by decide)
    · exact absurd isMark List.not_mem_nil
    · exact absurd isMark List.not_mem_nil
    · exact absurd isMark List.not_mem_nil
  · intro mark _
    exact readBy_markedVerifier 0 6 0 0 mark
  · intro circuit isCircuit proofs found mark isMark
    simp only [CircuitVerifiers.delegations, if_true, CircuitVerifiers.baseLayerDelegations,
      List.mem_cons, List.not_mem_nil, or_false] at isCircuit
    rcases isCircuit with rfl | rfl | rfl
    · exact readBy_markedVerifier 1 0 0 1991 mark
    · exact readBy_markedVerifier 1 0 0 1994 mark
    · exact readBy_markedVerifier 1 0 0 1995 mark

/-- The content of the sample with one proof of inits and teardowns. -/
def sampleContent : UnrolledContent 6 :=
  unrolledContent sampleFlattener sampleLayouts sampleReadings (sampleProgramProof [41])
    sampleSetup sampleVerifiers true

/-- What the sample holds, in its order. -/
def markedAccepted : List (AcceptedProof 6) :=
  [.unrolledNoDelegation 1 0 (markedOutput 0 0 1 0 11),
    .unrolledNoDelegation 1 1 (markedOutput 0 0 1 0 12),
    .unrolledWithDelegation 3 0 (markedOutput 1 0 1 0 31),
    .initAndTeardown 0 (markedOutput 0 6 0 0 41),
    .delegation 1991 0 (markedOutput 1 0 0 1991 51)]

theorem sampleContent_accepted : sampleContent.accepted = markedAccepted := rfl

/-- The blocks of the memory caps of a proof, and those that announce a kind. -/
def capsBlocks (mark : Nat) : List (List Nat) := List.replicate 64 (List.replicate 16 mark)

def markerBlocks (circuitType : Nat) : List (List Nat) := [circuitType :: List.replicate 15 0]

def stateBlocks : List (List Nat) :=
  List.replicate 6 (List.replicate 16 0) ++ [0 :: 4 :: List.replicate 14 0]

/-- The absorbed words in blocks. -/
def markedBlocks : List (List Nat) :=
  stateBlocks ++ (markerBlocks 1 ++ capsBlocks 11 ++ (capsBlocks 12 ++
    (markerBlocks 3 ++ capsBlocks 31 ++ (markerBlocks 255 ++ capsBlocks 41 ++
      (markerBlocks 1991 ++ capsBlocks 51)))))

/-- Words of caps in blocks. -/
theorem flatten_markedCaps (mark : Nat) :
    MerkleTreeCap.flatten (markedCaps (BitVec.ofNat 32 mark)) =
      wordList (capsBlocks mark).flatten := by
  rw [MerkleTreeCap.flatten, markedCaps, wordList, capsBlocks]
  simp only [Vector.toList_replicate, List.flatMap_replicate, List.flatten_replicate_replicate,
    List.map_replicate]
  rfl

theorem sampleContent_finalState : sampleContent.finalState = sampleState := by
  decide +kernel

theorem sampleContent_memorySeed : sampleContent.memorySeed = wordsOfNat 8 layerSampleSeed := by
  have words : sampleState.transcriptWords ++
      markedAccepted.flatMap AcceptedProof.transcriptWords = wordList markedBlocks.flatten := by
    have state : sampleState.transcriptWords = wordList stateBlocks.flatten := by
      decide +kernel
    let caps (mark : Nat) : List U32 := MerkleTreeCap.flatten (markedCaps (BitVec.ofNat 32 mark))
    have absorbed : markedAccepted.flatMap AcceptedProof.transcriptWords =
        (markerBuffer 1 ++ caps 11) ++
          (caps 12 ++
            ((markerBuffer 3 ++ caps 31) ++
              ((markerBuffer 255 ++ caps 41) ++
                ((markerBuffer 1991 ++ caps 51) ++ [])))) := rfl
    rw [absorbed, state, markedBlocks]
    simp only [caps, flatten_markedCaps, List.flatten_append, wordList, List.map_append,
      List.append_nil]
    rfl
  have whole : WholeBlocks markedBlocks := by
    apply wholeBlocks_of_forall
    · decide
    · decide +kernel
  have seed : digestBlocks configuredIvNat 0 markedBlocks = layerSampleSeed := by
    decide +kernel
  rw [UnrolledContent.memorySeed, sampleContent_finalState, sampleContent_accepted, words,
    digest_eq_digestBlocks whole, seed]

/-- Marked proofs follow each other. -/
theorem followsProof_marked
    {numDelegationChallenges numAuxBoundaryValues numMachineStateChallenges : Nat}
    {previous :
      ProofOutput numDelegationChallenges numAuxBoundaryValues numMachineStateChallenges}
    {circuitSequence : Nat}
    (isMarked : 0 < circuitSequence → ∃ mark, previous =
      markedOutput numDelegationChallenges numAuxBoundaryValues numMachineStateChallenges 0 mark)
    (mark : U32) :
    FollowsProof (markedCaps 0) circuitSequence previous
      (markedOutput numDelegationChallenges numAuxBoundaryValues numMachineStateChallenges 0
        mark) := by
  refine ⟨rfl, rfl, ?_, ?_, ?_, fun _ => rfl⟩
  · intro later
    obtain ⟨_, rfl⟩ := isMarked later
    rfl
  · intro later
    obtain ⟨_, rfl⟩ := isMarked later
    rfl
  · intro later
    obtain ⟨_, rfl⟩ := isMarked later
    rfl

theorem sampleContent_allowsProofs :
    sampleContent.AllowsProofs (sampleVerifiers.unrolledArguments true sampleSetup)
      sampleLayerBuffers := by
  have notLater : ¬ 0 < 0 := Nat.lt_irrefl 0
  constructor
  case x0 =>
    rw [sampleContent_finalState]
    rfl
  case families =>
    refine ⟨⟨?_, ?_, trivial⟩, trivial, ⟨?_, trivial⟩, trivial, trivial, trivial, trivial⟩
    · refine ⟨by decide +kernel, ?_, ?_⟩
      · intro output same
        cases same
        exact followsProof_marked (fun later => absurd later notLater) 11
      · intro output same
        cases same
    · refine ⟨by decide +kernel, ?_, ?_⟩
      · intro output same
        cases same
        exact followsProof_marked (fun _ => ⟨11, rfl⟩) 12
      · intro output same
        cases same
    · refine ⟨by decide +kernel, ?_, ?_⟩
      · intro output same
        cases same
      · intro output same
        cases same
        exact followsProof_marked (fun later => absurd later notLater) 31
  case initsAndTeardowns =>
    refine ⟨⟨by decide +kernel, ?_, InitAndTeardownTuple.zero, rfl, InitAndTeardownTuple.zero, ?_⟩,
      trivial⟩
    · exact followsProof_marked (fun later => absurd later notLater) 41
    · decide +kernel
  case delegations =>
    refine ⟨⟨⟨by decide +kernel, ⟨rfl, rfl, rfl, rfl, rfl⟩, trivial⟩, ⟨by decide +kernel, trivial⟩,
      ⟨by decide +kernel, trivial⟩, trivial⟩, ?_⟩
    decide +kernel

theorem sampleContent_holds :
    sampleContent.Holds (sampleVerifiers.unrolledArguments true sampleSetup)
      sampleLayerBuffers := by
  have memory : (sampleContent.proofs sampleLayerBuffers).families.outputs.proofOutput0 =
      markedOutput 0 0 1 0 11 := rfl
  have delegation :
      (sampleContent.proofs sampleLayerBuffers).families.outputsWithDelegation.proofOutput0 =
        markedOutput 1 0 1 0 31 := rfl
  constructor
  case setups => rfl
  case proofs => exact sampleContent_allowsProofs
  case challenges =>
    refine ⟨sampleChallenges layerSampleSeed, ?_, ?_, ?_, ?_⟩
    · rw [sampleContent_memorySeed]
      exact draw_sampleSeed rfl
    · rw [memory]
      rfl
    · intro _
      rw [delegation]
      rfl
    · rw [memory]
      rfl
  case balances =>
    rw [memory, sampleContent_finalState]
    refine ⟨1, ?_, 1, ?_, ?_, ?_⟩
    · decide +kernel
    · decide +kernel
    · decide +kernel
    · decide +kernel
  case chain =>
    rw [sampleContent_finalState]
    change auxRegisters sampleState.registers = Vector.replicate 8 0
    decide +kernel

theorem few_sample {inits : List U32} (fewInits : inits.length < 2 ^ 32) :
    (sampleProgramProof inits).Few := by
  refine ⟨?_, fewInits, ?_⟩
  · change ∀ entry ∈ (sampleProgramProof []).circuitFamiliesProofs.entries,
      entry.2.length < 2 ^ 32
    decide
  · change ∀ entry ∈ (sampleProgramProof []).delegationProofs.entries, entry.2.length < 2 ^ 32
    decide

/-- The sample is accepted, whatever comes after its words, and everything is kept. -/
theorem programProof_roundTrip_sample :
    ∃ run : LayerRun 6,
      (∀ rest, verifyBaseOrRecursionUnrolledCircuits sampleVerifiers sampleLayerBuffers
        (sampleWords [41] ++ rest) = some (run, rest)) ∧
      run.setups = List.replicate 7 (markedCaps 0) ∧
      run.statement.finalState = sampleState ∧
      run.statement.proofCounts = [2, 0, 1, 0, 0, 0, 1, 1, 0, 0] ∧
      run.statement.accepted = markedAccepted ∧
      run.statement.powChallenge = 0 ∧ run.statement.chainPreimage = none := by
  have reads := (programProof_roundTrip sampleVerifiers sampleLayerBuffers sampleUnifiedBuffers
    sampleFlattener sampleLayouts sampleReadings (sampleProgramProof [41]) sampleSetup
    (few_sample (by decide)) (sampleWords [41])).1 true (ofUnrolledLayer_sample [41])
    (flatten_sample [41])
  exact ⟨_, reads.returns sampleContent_holds, rfl, sampleContent_finalState, rfl,
    sampleContent_accepted, rfl, rfl⟩

/-- Twelve proofs of inits and teardowns: the cells of eleven are all that an address can
reach, and the verifier stops before the twelfth. -/
theorem programProof_roundTrip_fails :
    OfUnrolledLayer sampleFlattener sampleLayouts sampleReadings
        (sampleProgramProof (List.replicate 12 41)) sampleSetup sampleVerifiers true ∧
      flattenProofIntoResponsesForUnrolledRecursion sampleFlattener sampleLayouts
        (sampleProgramProof (List.replicate 12 41)) sampleSetup true =
          some (sampleWords (List.replicate 12 41)) ∧
      verifyBaseOrRecursionUnrolledCircuits sampleVerifiers sampleLayerBuffers
        (sampleWords (List.replicate 12 41)) = none := by
  have layer := ofUnrolledLayer_sample (List.replicate 12 41)
  have flattened := flatten_sample (List.replicate 12 41)
  have reads := layer.returnsIff_verifyBaseOrRecursion (few_sample (by decide))
    sampleLayerBuffers flattened
  refine ⟨layer, flattened, ?_⟩
  rw [Option.eq_none_iff_forall_ne_some]
  intro result returned
  rw [← List.append_nil (sampleWords _)] at returned
  have allowed := ((reads [] result).mp returned).1.proofs.initsAndTeardowns
  have items : (unrolledContent sampleFlattener sampleLayouts sampleReadings
      (sampleProgramProof (List.replicate 12 41)) sampleSetup sampleVerifiers
      true).initsAndTeardowns =
        List.replicate 11 { words := [41], output := markedOutput 0 6 0 0 41 } ++
          [{ words := [41], output := markedOutput 0 6 0 0 41 }] := rfl
  rw [InitsAndTeardownsState.AllowsProofs, items] at allowed
  have last := allowed.last.cellsInitialized
  rw [InitsAndTeardownsState.cellsInitialized_passed] at last
  revert last
  change ¬ (0 + BitVec.ofNat 32 11 *
    (BitVec.ofNat 32 6 * initsAndTeardownsCapacityPerSet) < maxMemoryCellsToInit)
  decide

end Samples

end Airbender.Statement
