import Airbender.Compiler.CompiledCircuits
import Airbender.Prover.EveryRowExceptLast

/-!
# How many terms the evaluators emit

Each evaluator emits as many terms as the layout of its columns says, except for the accesses
of a delegation circuit: a carry behind the first access through a pointer is counted and
emitted, but the carry of the first one is emitted only.
-/

namespace Airbender.Prover

open Compiler

/-! ## The powers -/

/-- The constraints take the powers up to their number, and the other terms those behind. -/
theorem map_fst_withChallenges {circuit : CompiledCircuitArtifact}
    {otherTerms : List QuotientTerm}
    (booleans : circuit.witnessLayout.booleanVarsColumnsRange.numElements ≤
      circuit.degree2Constraints.length) :
    (withChallenges circuit otherTerms).map Prod.fst =
      List.range (circuit.degree2Constraints.length + circuit.degree1Constraints.length +
        otherTerms.length) := by
  rw [withChallenges, evaluateGenericConstraints]
  simp only [List.map_append, List.map_map, Function.comp_def, Prod.fst_swap, List.map_id_fun',
    id_eq, List.map_drop, List.zipIdx_map_snd, List.drop_range', Nat.mul_one, Nat.zero_add,
    List.range_eq_range']
  have first := List.range'_append_1
    (s := 0) (m := circuit.witnessLayout.booleanVarsColumnsRange.numElements)
    (n := circuit.degree2Constraints.length -
      circuit.witnessLayout.booleanVarsColumnsRange.numElements)
  rw [Nat.zero_add, Nat.add_sub_cancel' booleans] at first
  have second := List.range'_append_1 (s := 0) (m := circuit.degree2Constraints.length)
    (n := circuit.degree1Constraints.length)
  have third := List.range'_append_1 (s := 0)
    (m := circuit.degree2Constraints.length + circuit.degree1Constraints.length)
    (n := otherTerms.length)
  rw [Nat.zero_add] at second third
  rw [first, second, third]

/-! ## Delegation circuits -/

/-- The accesses whose first access through a pointer has a carry. -/
def numFirstCarries (accesses : List RegisterAndIndirectAccessDescription) : Nat :=
  accesses.countP fun access => access.indirectAccesses.head?.any IndirectAccessColumns.hasCarry

theorem length_flatMap_lowAndHigh (sets : List (ColumnSet 2)) :
    (sets.flatMap lowAndHigh).length = 2 * sets.length := by
  induction sets with
  | nil => rfl
  | cons set rest inductionHypothesis =>
      rw [List.flatMap_cons, List.length_append, inductionHypothesis, List.length_cons]
      change 2 + 2 * rest.length = 2 * (rest.length + 1)
      omega

theorem length_registerValueSets (access : RegisterAccessColumns) :
    (registerValueSets access).length = 2 + if access.isWrite then 1 else 0 := by
  cases access <;> rfl

theorem length_indirectConventions (access : IndirectAccessColumns) :
    (indirectConventions access).length = 4 + (if access.isWrite then 2 else 0) +
      if access.hasCarry then 1 else 0 := by
  have sets : (indirectValueSets access).length = 2 + if access.isWrite then 1 else 0 := by
    cases access <;> rfl
  rw [indirectConventions, List.length_append, length_flatMap_lowAndHigh, sets]
  cases access.isWrite <;> cases access.hasCarry <;> rfl

/-- The terms of all accesses through pointers: every carry is emitted. -/
theorem length_flatMap_indirectConventions (accesses : List IndirectAccessColumns) :
    (accesses.flatMap indirectConventions).length = 4 * accesses.length +
      2 * accesses.countP IndirectAccessColumns.isWrite +
      accesses.countP IndirectAccessColumns.hasCarry := by
  induction accesses with
  | nil => rfl
  | cons access rest inductionHypothesis =>
      rw [List.flatMap_cons, List.length_append, length_indirectConventions,
        inductionHypothesis, List.countP_cons, List.countP_cons, List.length_cons]
      split_ifs <;> omega

/-- Behind the first access the carries are counted. -/
theorem countP_zipIdx_succ (accesses : List IndirectAccessColumns) (start : Nat) :
    ((accesses.zipIdx (start + 1)).countP fun entry => 0 < entry.2 && entry.1.hasCarry) =
      accesses.countP IndirectAccessColumns.hasCarry := by
  induction accesses generalizing start with
  | nil => rfl
  | cons access rest inductionHypothesis =>
      rw [List.zipIdx_cons, List.countP_cons, List.countP_cons, inductionHypothesis]
      simp

/-- The carry of the first access is emitted without being counted. -/
theorem countP_hasCarry (access : RegisterAndIndirectAccessDescription) :
    access.indirectAccesses.countP IndirectAccessColumns.hasCarry =
      access.numBooleansForAddressDerivation +
        if access.indirectAccesses.head?.any IndirectAccessColumns.hasCarry then 1 else 0 := by
  rw [RegisterAndIndirectAccessDescription.numBooleansForAddressDerivation]
  cases access.indirectAccesses with
  | nil => rfl
  | cons first rest =>
      rw [List.zipIdx_cons, List.countP_cons, List.countP_cons, countP_zipIdx_succ,
        List.head?_cons, Option.any_some]
      simp

theorem length_accessConventions (access : RegisterAndIndirectAccessDescription) :
    (accessConventions access).length = 4 * (1 + access.indirectAccesses.length) +
      2 * access.numWrites + access.numBooleansForAddressDerivation +
      if access.indirectAccesses.head?.any IndirectAccessColumns.hasCarry then 1 else 0 := by
  have carries := countP_hasCarry access
  rw [accessConventions, List.length_append, length_flatMap_lowAndHigh, length_registerValueSets,
    length_flatMap_indirectConventions, RegisterAndIndirectAccessDescription.numWrites]
  split_ifs at carries ⊢ <;> omega

/-- All accesses of the circuit together. -/
theorem length_flatMap_accessConventions (accesses : List RegisterAndIndirectAccessDescription) :
    (accesses.flatMap accessConventions).length =
      4 * (accesses.length + (accesses.map fun access => access.indirectAccesses.length).sum) +
      2 * (accesses.map RegisterAndIndirectAccessDescription.numWrites).sum +
      (accesses.map
        RegisterAndIndirectAccessDescription.numBooleansForAddressDerivation).sum +
      numFirstCarries accesses := by
  induction accesses with
  | nil => rfl
  | cons access rest inductionHypothesis =>
      rw [numFirstCarries] at inductionHypothesis ⊢
      rw [List.flatMap_cons, List.length_append, length_accessConventions, inductionHypothesis,
        List.countP_cons]
      simp only [List.map_cons, List.sum_cons, List.length_cons]
      omega

/-- What a delegation circuit emits, against what is counted for it. -/
theorem numDelegationConventions_eq {memoryLayout : MemorySubtree}
    (noQueries : memoryLayout.shuffleRamAccessSets = [])
    (accesses : memoryLayout.registerAndIndirectAccesses ≠ [])
    (noBatch : memoryLayout.batchedRamAccesses = []) :
    ∃ count, numDelegationConventions memoryLayout = some count ∧
      4 + (memoryLayout.registerAndIndirectAccesses.flatMap accessConventions).length =
        count + numFirstCarries memoryLayout.registerAndIndirectAccesses := by
  have present := List.length_pos_of_ne_nil accesses
  rw [numDelegationConventions, noQueries, noBatch]
  simp only [List.length_nil, List.isEmpty_nil, Nat.lt_irrefl, false_or, present, guard_true,
    Option.pure_def, Option.bind_eq_bind, Option.bind_some]
  refine ⟨_, rfl, ?_⟩
  rw [length_flatMap_accessConventions]
  omega

theorem length_evaluateDelegationProcessingConventions {circuit : CompiledCircuitArtifact}
    {layout : DelegationProcessingLayout} {terms : List QuotientTerm}
    (evaluates : evaluateDelegationProcessingConventions circuit layout = some terms) :
    terms.length = 4 +
      (circuit.memoryLayout.registerAndIndirectAccesses.flatMap accessConventions).length := by
  obtain ⟨_, _, same⟩ := Option.bind_eq_some_iff.mp evaluates
  cases same
  rw [List.length_append]
  rfl

theorem length_evaluateRegisterAndIndirectMemoryAccesses {circuit : CompiledCircuitArtifact}
    {terms : List QuotientTerm}
    (evaluates : evaluateRegisterAndIndirectMemoryAccesses circuit = some terms) :
    terms.length =
      numRegisterAndIndirectAccesses circuit.memoryLayout.registerAndIndirectAccesses := by
  obtain ⟨_, _, evaluates⟩ := Option.bind_eq_some_iff.mp evaluates
  rw [NestedList.length_of_mapM evaluates, List.length_range]
  rfl

/-! ## Lookups -/

theorem length_evaluateRangeChecks (circuitSequence : Bool) (accesses : List LookupWidth1Access) :
    (evaluateRangeChecks circuitSequence accesses).length = 2 * accesses.length := by
  induction accesses with
  | nil => rfl
  | cons access rest inductionHypothesis =>
      rw [evaluateRangeChecks] at inductionHypothesis ⊢
      rw [List.flatMap_cons, List.length_append, inductionHypothesis, List.length_cons]
      change 2 + 2 * rest.length = 2 * (rest.length + 1)
      omega

theorem length_evaluateWidth1RangeCheckMultiplicity {poly : AlignedColumnSet 4}
    (single : poly.numElements ≤ 1) (multiplicitiesSrc setupColumn : Nat) :
    (evaluateWidth1RangeCheckMultiplicity poly multiplicitiesSrc setupColumn).length =
      poly.numElements := by
  rw [evaluateWidth1RangeCheckMultiplicity]
  by_cases present : 0 < poly.numElements
  · rw [if_pos present, List.length_singleton]
    omega
  · rw [if_neg present, List.length_nil]
    omega

/-- The checks on the cached data that the number of terms rests on. -/
structure ProverCachedData.Checked (cached : ProverCachedData)
    (circuit : CompiledCircuitArtifact) : Prop where
  noBatch : circuit.memoryLayout.batchedRamAccesses = []
  registers : circuit.memoryLayout.registerAndIndirectAccesses ≠ [] →
    circuit.memoryLayout.delegationProcessorLayout.isSome
  shuffleRamInit : cached.processShuffleRamInit =
    decide (0 < circuit.memoryLayout.shuffleRamInitsAndTeardowns.length)
  requests :
    cached.handleDelegationRequests = circuit.memoryLayout.delegationRequestLayout.isSome
  accesses : cached.processRegistersAndIndirectAccess =
    decide (0 < circuit.memoryLayout.registerAndIndirectAccesses.length)
  delegations :
    cached.processDelegations = circuit.memoryLayout.delegationProcessorLayout.isSome
  rangeCheck16 : cached.rangeCheck16Accesses.length +
      cached.rangeCheck16AccessesViaExpressions.length =
    circuit.stage2Layout.intermediatePolysForRangeCheck16.baseFieldOracles.numElements
  timestamps : cached.timestampAccessesViaExpressions.length +
      cached.timestampAccessesViaExpressionsForShuffleRam.length =
    circuit.stage2Layout.intermediatePolysForTimestampRangeChecks.baseFieldOracles.numElements
  rangeCheck16Multiplicities :
    circuit.witnessLayout.multiplicitiesColumnsForRangeCheck16.numElements = 1

theorem length_of_getRangeCheck16LookupAccesses {circuit : CompiledCircuitArtifact}
    {overVariables overExpressions : List LookupWidth1Access}
    (accesses : getRangeCheck16LookupAccesses circuit = some (overVariables, overExpressions)) :
    overVariables.length + overExpressions.length =
      circuit.stage2Layout.intermediatePolysForRangeCheck16.baseFieldOracles.numElements := by
  obtain ⟨_, _, rest₁⟩ := Option.bind_eq_some_iff.mp accesses
  obtain ⟨_, _, rest₂⟩ := Option.bind_eq_some_iff.mp rest₁
  obtain ⟨_, _, rest₃⟩ := Option.bind_eq_some_iff.mp rest₂
  obtain ⟨_, _, rest₄⟩ := Option.bind_eq_some_iff.mp rest₃
  obtain ⟨_, _, rest₅⟩ := Option.bind_eq_some_iff.mp rest₄
  obtain ⟨_, _, rest₆⟩ := Option.bind_eq_some_iff.mp rest₅
  obtain ⟨_, _, rest₇⟩ := Option.bind_eq_some_iff.mp rest₆
  obtain ⟨_, _, rest₈⟩ := Option.bind_eq_some_iff.mp rest₇
  obtain ⟨_, together, rest₉⟩ := Option.bind_eq_some_iff.mp rest₈
  obtain ⟨_, _, same⟩ := Option.bind_eq_some_iff.mp rest₉
  cases same
  exact (Option.guard_eq_some' ()).mp together

theorem length_of_getTimestampRangeCheckLookupAccesses {circuit : CompiledCircuitArtifact}
    {ordinary forShuffleRam : List LookupWidth1Access}
    (accesses : getTimestampRangeCheckLookupAccesses circuit = some (ordinary, forShuffleRam)) :
    ordinary.length + forShuffleRam.length =
      circuit.stage2Layout.intermediatePolysForTimestampRangeChecks.baseFieldOracles.numElements
        := by
  obtain ⟨_, _, rest₁⟩ := Option.bind_eq_some_iff.mp accesses
  obtain ⟨_, _, rest₂⟩ := Option.bind_eq_some_iff.mp rest₁
  obtain ⟨_, _, rest₃⟩ := Option.bind_eq_some_iff.mp rest₂
  obtain ⟨_, _, rest₄⟩ := Option.bind_eq_some_iff.mp rest₃
  obtain ⟨_, _, rest₅⟩ := Option.bind_eq_some_iff.mp rest₄
  obtain ⟨_, _, rest₆⟩ := Option.bind_eq_some_iff.mp rest₅
  obtain ⟨_, _, rest₇⟩ := Option.bind_eq_some_iff.mp rest₆
  obtain ⟨_, together, same⟩ := Option.bind_eq_some_iff.mp rest₇
  cases same
  exact (Option.guard_eq_some' ()).mp together

theorem checked_of_new {circuit : CompiledCircuitArtifact} {cached : ProverCachedData}
    (accepts : ProverCachedData.new circuit = some cached) : cached.Checked circuit := by
  obtain ⟨_, _, rest₁⟩ := Option.bind_eq_some_iff.mp accepts
  obtain ⟨_, noBatch, rest₂⟩ := Option.bind_eq_some_iff.mp rest₁
  obtain ⟨_, _, rest₃⟩ := Option.bind_eq_some_iff.mp rest₂
  obtain ⟨_, processor, rest₄⟩ := Option.bind_eq_some_iff.mp rest₃
  obtain ⟨⟨overVariables, overExpressions⟩, rangeCheck16, rest₅⟩ :=
    Option.bind_eq_some_iff.mp rest₄
  obtain ⟨⟨ordinary, forShuffleRam⟩, timestamps, rest₆⟩ := Option.bind_eq_some_iff.mp rest₅
  clear accepts rest₁ rest₂ rest₃ rest₄ rest₅
  obtain ⟨_, _, rest₇⟩ := Option.bind_eq_some_iff.mp rest₆
  obtain ⟨_, _, rest₈⟩ := Option.bind_eq_some_iff.mp rest₇
  obtain ⟨_, multiplicities, same⟩ := Option.bind_eq_some_iff.mp rest₈
  clear rest₆ rest₇ rest₈
  cases same
  exact {
    noBatch := List.isEmpty_iff.mp ((Option.guard_eq_some' ()).mp noBatch)
    registers := by
      intro accesses
      exact (Option.guard_eq_some' ()).mp processor
        (Or.inr (List.length_pos_of_ne_nil accesses))
    shuffleRamInit := by
      cases circuit.memoryLayout.shuffleRamInitsAndTeardowns <;> rfl
    requests := rfl
    accesses := rfl
    delegations := rfl
    rangeCheck16 := length_of_getRangeCheck16LookupAccesses rangeCheck16
    timestamps := length_of_getTimestampRangeCheckLookupAccesses timestamps
    rangeCheck16Multiplicities := (Option.guard_eq_some' ()).mp multiplicities }

theorem length_evaluateMemoryInitTeardownRangeChecks {circuit : CompiledCircuitArtifact}
    {numInits : Nat} {terms : List QuotientTerm}
    (pairs : ∀ oracles ∈ circuit.stage2Layout.lazyInitAddressRangeCheck16,
      oracles.numPairs = numInits)
    (evaluates : evaluateMemoryInitTeardownRangeChecks circuit = some terms) :
    terms.length = 2 * numInits := by
  obtain ⟨accesses, found, rfl⟩ := Option.map_eq_some_iff.mp evaluates
  obtain ⟨oracles, present, collected⟩ := Option.bind_eq_some_iff.mp found
  rw [length_evaluateRangeChecks, NestedList.length_of_mapM collected, List.length_range,
    pairs oracles present]

theorem length_evaluateDecoderTableAccess {circuit : CompiledCircuitArtifact}
    {state : IntermediateStatePermutationVariables} {terms : List QuotientTerm}
    (evaluates : evaluateDecoderTableAccess circuit state = some terms) : terms.length = 1 := by
  obtain ⟨_, _, same⟩ := Option.bind_eq_some_iff.mp evaluates
  cases same
  rfl

theorem length_evaluateWidth3Lookups (circuit : CompiledCircuitArtifact) :
    (evaluateWidth3Lookups circuit).length = circuit.witnessLayout.width3Lookups.length := by
  rw [evaluateWidth3Lookups, List.length_map, List.length_zipIdx]

theorem length_evaluateWidth3LookupsMultiplicity (circuit : CompiledCircuitArtifact) :
    (evaluateWidth3LookupsMultiplicity circuit).length =
      circuit.witnessLayout.multiplicitiesColumnsForGenericLookup.numElements := by
  rw [evaluateWidth3LookupsMultiplicity, List.length_map, List.length_range]

theorem length_evaluateDecoderLookupMultiplicity {circuit : CompiledCircuitArtifact}
    {hasDecoderPart : Bool}
    (columns : circuit.witnessLayout.multiplicitiesColumnsForDecoderInExecutorFamilies.numElements =
      if hasDecoderPart then 1 else 0) :
    (evaluateDecoderLookupMultiplicity circuit).length = if hasDecoderPart then 1 else 0 := by
  rw [evaluateDecoderLookupMultiplicity, columns]
  cases hasDecoderPart <;> rfl

theorem length_evaluateRangeCheckMultiplicities {circuit : CompiledCircuitArtifact}
    (cached : ProverCachedData)
    (rangeCheck16 :
      circuit.stage2Layout.intermediatePolyForRangeCheck16Multiplicity.numElements ≤ 1)
    (timestamps :
      circuit.stage2Layout.intermediatePolyForTimestampRangeCheckMultiplicity.numElements ≤ 1) :
    (evaluateRangeCheckMultiplicities circuit cached).length =
      circuit.stage2Layout.intermediatePolyForRangeCheck16Multiplicity.numElements +
        circuit.stage2Layout.intermediatePolyForTimestampRangeCheckMultiplicity.numElements := by
  rw [evaluateRangeCheckMultiplicities, List.length_append,
    length_evaluateWidth1RangeCheckMultiplicity rangeCheck16,
    length_evaluateWidth1RangeCheckMultiplicity timestamps]

/-! ## Delegation requests, memory and the machine state -/

theorem length_evaluateDelegationRequests {circuit : CompiledCircuitArtifact}
    {terms : List QuotientTerm} (evaluates : evaluateDelegationRequests circuit = some terms) :
    terms.length = 1 := by
  obtain ⟨_, _, evaluates⟩ := Option.bind_eq_some_iff.mp evaluates
  obtain ⟨_, _, same⟩ := Option.bind_eq_some_iff.mp evaluates
  cases same
  rfl

theorem length_flatMap_paddingColumns
    (entries : List (ShuffleRamAuxComparisonSet × ShuffleRamInitAndTeardownLayout)) :
    (entries.flatMap fun entry =>
      (paddingColumns entry.2).map (QuotientTerm.zeroUnlessBorrow entry.1.finalBorrow)).length =
        6 * entries.length := by
  induction entries with
  | nil => rfl
  | cons entry rest inductionHypothesis =>
      rw [List.flatMap_cons, List.length_append, inductionHypothesis, List.length_cons]
      change 6 + 6 * rest.length = 6 * (rest.length + 1)
      omega

theorem length_evaluateMemoryInitTeardownPadding {circuit : CompiledCircuitArtifact}
    {numInits : Nat} (auxVars : circuit.lazyInitAddressAuxVars.length = numInits)
    (inits : circuit.memoryLayout.shuffleRamInitsAndTeardowns.length = numInits) :
    (evaluateMemoryInitTeardownPadding circuit).length = 6 * numInits := by
  rw [evaluateMemoryInitTeardownPadding, length_flatMap_paddingColumns, List.length_zip, auxVars,
    inits, Nat.min_self]

theorem length_evaluateMemoryQueriesAccumulation (circuit : CompiledCircuitArtifact) :
    (evaluateMemoryQueriesAccumulation circuit).length =
      circuit.memoryLayout.shuffleRamAccessSets.length := by
  rw [evaluateMemoryQueriesAccumulation, List.length_map, List.length_zipIdx]

theorem length_evaluateMemoryInitTeardownAccumulation (circuit : CompiledCircuitArtifact) :
    (evaluateMemoryInitTeardownAccumulation circuit).length =
      circuit.memoryLayout.shuffleRamInitsAndTeardowns.length := by
  rw [evaluateMemoryInitTeardownAccumulation, List.length_map, List.length_zipIdx]

theorem length_evaluateMachineStatePermutation {circuit : CompiledCircuitArtifact}
    {terms : List QuotientTerm}
    (evaluates : evaluateMachineStatePermutationAssumingNoDecoder circuit = some terms) :
    terms.length = circuit.stage2Layout.intermediatePolysForStatePermutation.numElements := by
  unfold evaluateMachineStatePermutationAssumingNoDecoder at evaluates
  dsimp only at evaluates
  split_ifs at evaluates with present
  · obtain ⟨_, _, evaluates⟩ := Option.bind_eq_some_iff.mp evaluates
    obtain ⟨_, _, evaluates⟩ := Option.bind_eq_some_iff.mp evaluates
    obtain ⟨_, single, same⟩ := Option.bind_eq_some_iff.mp evaluates
    cases same
    exact ((Option.guard_eq_some' ()).mp single).symm
  · cases evaluates
    exact (Nat.eq_zero_of_not_pos present).symm

theorem length_evaluatePermutationMasking {circuit : CompiledCircuitArtifact}
    {terms : List QuotientTerm}
    (evaluates : evaluatePermutationMasking circuit = some terms) :
    terms.length = circuit.stage2Layout.intermediatePolysForPermutationMasking.numElements := by
  unfold evaluatePermutationMasking at evaluates
  dsimp only at evaluates
  split_ifs at evaluates with present
  · obtain ⟨_, _, evaluates⟩ := Option.bind_eq_some_iff.mp evaluates
    obtain ⟨_, single, same⟩ := Option.bind_eq_some_iff.mp evaluates
    cases same
    exact ((Option.guard_eq_some' ()).mp single).symm
  · cases evaluates
    exact (Nat.eq_zero_of_not_pos present).symm

/-- A part that is switched off emits nothing. -/
theorem length_of_evaluateIf {flag : Bool} {terms : Option (List QuotientTerm)} {number : Nat}
    {result : List QuotientTerm}
    (lengths : ∀ {emitted : List QuotientTerm}, terms = some emitted → emitted.length = number)
    (evaluates : evaluateIf flag terms = some result) :
    result.length = if flag then number else 0 := by
  cases flag with
  | true => exact lengths evaluates
  | false =>
      cases evaluates
      rfl

end Airbender.Prover
