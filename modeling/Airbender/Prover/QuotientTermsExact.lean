import Airbender.Prover.TermCounts

/-!
# Exactness of the number of quotient terms

The compiled circuit fixes how many powers of the challenge are made, and the prover takes one
for each term.  Both agree unless the first access through some pointer has a carry, or there
is no grand product, whose term the prover emits all the same.
-/

namespace Airbender.Prover

open Compiler

/-- One term for a flag. -/
abbrev ifPresent (flag : Bool) : Nat := if flag then 1 else 0

/-- The number that the compiled circuit gives, in terms of the parts of the circuit. -/
theorem numQuotientTermsEveryRowExceptLast_eq {circuit : CompiledCircuitArtifact}
    {numInits conventions : Nat} {hasDecoderPart : Bool}
    (wellSized : circuit.WellSized numInits hasDecoderPart)
    (noRemainder : circuit.stage2Layout.remainderForRangeCheck16.isNone = true)
    (alone : ¬(circuit.memoryLayout.delegationProcessorLayout.isSome = true ∧
      circuit.memoryLayout.delegationRequestLayout.isSome = true))
    (counted : (if circuit.memoryLayout.delegationProcessorLayout.isSome = true
      then numDelegationConventions circuit.memoryLayout else some 0) = some conventions) :
    circuit.numQuotientTermsEveryRowExceptLast = some (circuit.degree2Constraints.length +
      circuit.degree1Constraints.length + conventions +
      2 * circuit.stage2Layout.intermediatePolysForRangeCheck16.baseFieldOracles.numElements +
      8 * numInits +
      2 * circuit.stage2Layout.intermediatePolysForTimestampRangeChecks.baseFieldOracles.numElements
        + ifPresent hasDecoderPart + circuit.witnessLayout.width3Lookups.length +
      circuit.stage2Layout.intermediatePolyForRangeCheck16Multiplicity.numElements +
      circuit.stage2Layout.intermediatePolyForTimestampRangeCheckMultiplicity.numElements +
      ifPresent hasDecoderPart +
      circuit.witnessLayout.multiplicitiesColumnsForGenericLookup.numElements +
      ifPresent circuit.memoryLayout.delegationProcessorLayout.isSome +
      ifPresent circuit.memoryLayout.delegationRequestLayout.isSome + numInits +
      (circuit.memoryLayout.shuffleRamAccessSets.length +
        numRegisterAndIndirectAccesses circuit.memoryLayout.registerAndIndirectAccesses) +
      ifPresent hasDecoderPart + ifPresent hasDecoderPart +
      circuit.stage2Layout.intermediatePolyForGrandProduct.numElements) := by
  have sizes := wellSized.sizes
  have generic : circuit.stage2Layout.intermediatePolysForGenericMultiplicities.numElements =
      circuit.witnessLayout.multiplicitiesColumnsForGenericLookup.numElements := by
    rw [sizes.genericMultiplicities, ← wellSized.genericMultiplicities]
    split_ifs with present
    · rfl
    · exact (Nat.eq_zero_of_not_pos present).symm
  rw [CompiledCircuitArtifact.numQuotientTermsEveryRowExceptLast,
    CompiledCircuitArtifact.asVerifierCompiledArtifact_of wellSized.traceLen]
  rw [Option.bind_eq_bind, Option.bind_some,
    VerifierCompiledCircuitArtifact.numQuotientTermsEveryRowExceptLast]
  cases processes : circuit.memoryLayout.delegationProcessorLayout.isSome
  all_goals
    cases requests : circuit.memoryLayout.delegationRequestLayout.isSome
    all_goals
      rw [processes] at counted
      rw [processes, requests] at alone
      simp only [if_true, Bool.false_eq_true, if_false] at counted
      simp only [CompiledCircuitArtifact.view, processes, requests, if_true, Bool.false_eq_true,
        if_false, counted, noRemainder, and_self, and_true, and_false, not_true_eq_false,
        not_false_eq_true, guard_true, Option.pure_def, Option.bind_eq_bind, Option.bind_some,
        sizes.rangeCheck16, sizes.timestamps, sizes.decoderAccesses, sizes.genericLookup,
        sizes.decoderMultiplicities, generic, sizes.initTeardown, sizes.memoryArgument,
        sizes.statePermutation, sizes.masking, wellSized.inits]
  all_goals first | rfl | exact absurd ⟨rfl, rfl⟩ alone

/-- A circuit that processes delegations does nothing else with memory. -/
def ProcessesAlone (memoryLayout : MemorySubtree) : Prop :=
  memoryLayout.delegationProcessorLayout.isSome = true →
    memoryLayout.shuffleRamAccessSets = [] ∧ memoryLayout.registerAndIndirectAccesses ≠ [] ∧
      memoryLayout.delegationRequestLayout = none

/-- The terms that the prover emits beyond those that are counted. -/
def numUncountedTerms (circuit : CompiledCircuitArtifact) : Nat :=
  numFirstCarries circuit.memoryLayout.registerAndIndirectAccesses +
    (1 - circuit.stage2Layout.intermediatePolyForGrandProduct.numElements)

/-! ## Parts that are switched on by the circuit -/

section Parts

variable {circuit : CompiledCircuitArtifact} {cached : ProverCachedData} {numInits : Nat}
  {hasDecoderPart : Bool} {result : List QuotientTerm}

/-- The terms for lazy initial values are a multiple of their number. -/
theorem length_of_evaluateIf_inits {terms : Option (List QuotientTerm)} {factor : Nat}
    (checked : cached.Checked circuit) (wellSized : circuit.WellSized numInits hasDecoderPart)
    (lengths : ∀ {emitted : List QuotientTerm},
      terms = some emitted → emitted.length = factor * numInits)
    (evaluates : evaluateIf cached.processShuffleRamInit terms = some result) :
    result.length = factor * numInits := by
  rw [length_of_evaluateIf lengths evaluates, checked.shuffleRamInit, wellSized.inits]
  by_cases present : 0 < numInits
  · rw [decide_eq_true present, if_pos rfl]
  · rw [decide_eq_false present, if_neg Bool.false_ne_true, Nat.eq_zero_of_not_pos present,
      Nat.mul_zero]

theorem length_initRangeChecks_of_evaluateIf (checked : cached.Checked circuit)
    (wellSized : circuit.WellSized numInits hasDecoderPart)
    (evaluates : evaluateIf cached.processShuffleRamInit
      (evaluateMemoryInitTeardownRangeChecks circuit) = some result) :
    result.length = 2 * numInits := by
  have pairs := wellSized.sizes.lazyInit
  rw [wellSized.inits] at pairs
  exact length_of_evaluateIf_inits checked wellSized
    (length_evaluateMemoryInitTeardownRangeChecks pairs) evaluates

theorem length_padding_of_evaluateIf (checked : cached.Checked circuit)
    (wellSized : circuit.WellSized numInits hasDecoderPart)
    (evaluates : evaluateIf cached.processShuffleRamInit
      (some (evaluateMemoryInitTeardownPadding circuit)) = some result) :
    result.length = 6 * numInits := by
  apply length_of_evaluateIf_inits checked wellSized _ evaluates
  intro emitted same
  cases same
  exact length_evaluateMemoryInitTeardownPadding wellSized.auxVars wellSized.inits

theorem length_initAccumulation_of_evaluateIf (checked : cached.Checked circuit)
    (wellSized : circuit.WellSized numInits hasDecoderPart)
    (evaluates : evaluateIf cached.processShuffleRamInit
      (some (evaluateMemoryInitTeardownAccumulation circuit)) = some result) :
    result.length = 1 * numInits := by
  apply length_of_evaluateIf_inits checked wellSized _ evaluates
  intro emitted same
  cases same
  rw [length_evaluateMemoryInitTeardownAccumulation, wellSized.inits, Nat.one_mul]

theorem length_accesses_of_evaluateIf (checked : cached.Checked circuit)
    (evaluates : evaluateIf cached.processRegistersAndIndirectAccess
      (evaluateRegisterAndIndirectMemoryAccesses circuit) = some result) :
    result.length =
      numRegisterAndIndirectAccesses circuit.memoryLayout.registerAndIndirectAccesses := by
  rw [length_of_evaluateIf length_evaluateRegisterAndIndirectMemoryAccesses evaluates,
    checked.accesses]
  cases circuit.memoryLayout.registerAndIndirectAccesses with
  | nil => rfl
  | cons access rest =>
      rw [decide_eq_true (List.length_pos_of_ne_nil (List.cons_ne_nil access rest)), if_pos rfl]

theorem length_requests_of_evaluateIf (checked : cached.Checked circuit)
    (evaluates : evaluateIf cached.handleDelegationRequests
      (evaluateDelegationRequests circuit) = some result) :
    result.length = ifPresent circuit.memoryLayout.delegationRequestLayout.isSome := by
  rw [length_of_evaluateIf length_evaluateDelegationRequests evaluates, checked.requests]

theorem length_processing_of_evaluateIf {term : QuotientTerm} (checked : cached.Checked circuit)
    (evaluates : evaluateIf cached.processDelegations (some [term]) = some result) :
    result.length = ifPresent circuit.memoryLayout.delegationProcessorLayout.isSome := by
  rw [← checked.delegations]
  apply length_of_evaluateIf _ evaluates
  intro emitted same
  cases same
  rfl

/-- The terms of a delegation, against what is counted for them. -/
theorem conventions_of_evaluateIf (checked : cached.Checked circuit)
    (alone : ProcessesAlone circuit.memoryLayout)
    (evaluates : evaluateIf cached.processDelegations (evaluateDelegationProcessingConventions
      circuit cached.delegationProcessorLayout) = some result) :
    ∃ conventions, (if circuit.memoryLayout.delegationProcessorLayout.isSome = true
        then numDelegationConventions circuit.memoryLayout else some 0) = some conventions ∧
      result.length =
        conventions + numFirstCarries circuit.memoryLayout.registerAndIndirectAccesses := by
  have number := length_of_evaluateIf length_evaluateDelegationProcessingConventions evaluates
  rw [checked.delegations] at number
  by_cases processes : circuit.memoryLayout.delegationProcessorLayout.isSome = true
  · obtain ⟨noQueries, accesses, -⟩ := alone processes
    obtain ⟨conventions, counted, emitted⟩ :=
      numDelegationConventions_eq noQueries accesses checked.noBatch
    rw [if_pos processes] at number ⊢
    exact ⟨conventions, counted, number.trans emitted⟩
  · -- without a delegation there are no accesses through registers
    have noAccesses : circuit.memoryLayout.registerAndIndirectAccesses = [] := by
      by_contra present
      exact processes (checked.registers present)
    rw [if_neg processes] at number ⊢
    rw [noAccesses]
    exact ⟨0, rfl, number⟩

end Parts

theorem not_both_of_processesAlone {memoryLayout : MemorySubtree}
    (alone : ProcessesAlone memoryLayout) :
    ¬(memoryLayout.delegationProcessorLayout.isSome = true ∧
      memoryLayout.delegationRequestLayout.isSome = true) := by
  rintro ⟨processes, requests⟩
  rw [(alone processes).2.2] at requests
  exact Bool.false_ne_true requests

theorem grandProduct_le_one {circuit : CompiledCircuitArtifact} {numInits : Nat}
    {hasDecoderPart : Bool} (wellSized : circuit.WellSized numInits hasDecoderPart) :
    circuit.stage2Layout.intermediatePolyForGrandProduct.numElements ≤ 1 := by
  rw [wellSized.sizes.grandProduct]
  split_ifs
  · exact le_refl 1
  · exact Nat.zero_le 1

/-! ## Both provers -/

/-- The main circuit and delegation circuits. -/
theorem proverStage3Terms_powers {circuit : CompiledCircuitArtifact} {numInits : Nat}
    {terms : List (Nat × QuotientTerm)} (wellSized : circuit.WellSized numInits false)
    (alone : ProcessesAlone circuit.memoryLayout)
    (evaluates : proverStage3Terms circuit = some terms) :
    ∃ count, circuit.numQuotientTermsEveryRowExceptLast = some count ∧
      terms.map Prod.fst = List.range (count + numUncountedTerms circuit) := by
  obtain ⟨cached, accepts, rest₁⟩ := Option.bind_eq_some_iff.mp evaluates
  obtain ⟨conventions, conventionTerms, rest₂⟩ := Option.bind_eq_some_iff.mp rest₁
  obtain ⟨initRangeChecks, initTerms, rest₃⟩ := Option.bind_eq_some_iff.mp rest₂
  obtain ⟨_, noRemainder, rest₄⟩ := Option.bind_eq_some_iff.mp rest₃
  obtain ⟨requests, requestTerms, rest₅⟩ := Option.bind_eq_some_iff.mp rest₄
  clear evaluates rest₁ rest₂ rest₃ rest₄
  obtain ⟨processing, processingTerms, rest₆⟩ := Option.bind_eq_some_iff.mp rest₅
  obtain ⟨padding, paddingTerms, rest₇⟩ := Option.bind_eq_some_iff.mp rest₆
  obtain ⟨initAccumulation, initAccumulationTerms, rest₈⟩ := Option.bind_eq_some_iff.mp rest₇
  obtain ⟨_, _, rest₉⟩ := Option.bind_eq_some_iff.mp rest₈
  obtain ⟨accesses, accessTerms, same⟩ := Option.bind_eq_some_iff.mp rest₉
  clear rest₅ rest₆ rest₇ rest₈ rest₉
  cases same
  have checked := checked_of_new accepts
  have sizes := wellSized.sizes
  have grandProduct := grandProduct_le_one wellSized
  obtain ⟨counted, conventionsCounted, conventionNumber⟩ :=
    conventions_of_evaluateIf checked alone conventionTerms
  have count := numQuotientTermsEveryRowExceptLast_eq wellSized
    ((Option.guard_eq_some' ()).mp noRemainder) (not_both_of_processesAlone alone)
    conventionsCounted
  have initNumber := length_initRangeChecks_of_evaluateIf checked wellSized initTerms
  have requestNumber := length_requests_of_evaluateIf checked requestTerms
  have processingNumber := length_processing_of_evaluateIf checked processingTerms
  have paddingNumber := length_padding_of_evaluateIf checked wellSized paddingTerms
  have initAccumulationNumber :=
    length_initAccumulation_of_evaluateIf checked wellSized initAccumulationTerms
  have accessNumber := length_accesses_of_evaluateIf checked accessTerms
  have rangeCheck16 := checked.rangeCheck16
  have timestamps := checked.timestamps
  refine ⟨_, count, ?_⟩
  rw [map_fst_withChallenges wellSized.booleans, numUncountedTerms]
  refine congrArg List.range ?_
  simp only [List.length_append, evaluateRangeCheck16OverVariables,
    evaluateRangeCheck16OverExpressions, evaluateTimestampRangeCheckExpressions,
    length_evaluateRangeChecks, length_evaluateWidth3Lookups,
    length_evaluateRangeCheckMultiplicities cached sizes.rangeCheck16Multiplicity
      sizes.timestampMultiplicity,
    length_evaluateWidth3LookupsMultiplicity, length_evaluateMemoryQueriesAccumulation,
    evaluateGrandProduct, List.length_singleton]
  have noDecoder : ifPresent false = 0 := rfl
  omega

/-- The evaluators of an unrolled prover behind the decoder. -/
theorem unrolled_powers_of_rest {circuit : CompiledCircuitArtifact} {cached : ProverCachedData}
    {numInits : Nat} {hasDecoderPart : Bool} {initRangeChecks decoderAccess : List QuotientTerm}
    {terms : List (Nat × QuotientTerm)} (wellSized : circuit.WellSized numInits hasDecoderPart)
    (checked : cached.Checked circuit)
    (noRemainder : circuit.stage2Layout.remainderForRangeCheck16.isNone = true)
    (initTerms : evaluateIf cached.processShuffleRamInit
      (evaluateMemoryInitTeardownRangeChecks circuit) = some initRangeChecks)
    (decoderNumber : decoderAccess.length = ifPresent hasDecoderPart)
    (evaluates : (do
      let requests ← evaluateIf cached.handleDelegationRequests
        (evaluateDelegationRequests circuit)
      guard (cached.processDelegations = false)
      let padding ← evaluateIf cached.processShuffleRamInit
        (some (evaluateMemoryInitTeardownPadding circuit))
      guard (cached.processBatchRamAccess = false)
      guard (cached.processRegistersAndIndirectAccess = false)
      let statePermutation ← evaluateMachineStatePermutationAssumingNoDecoder circuit
      let masking ← evaluatePermutationMasking circuit
      let initAccumulation ← evaluateIf cached.processShuffleRamInit
        (some (evaluateMemoryInitTeardownAccumulation circuit))
      some (withChallenges circuit (evaluateRangeCheck16OverVariables cached ++
        evaluateRangeCheck16OverExpressions cached ++ initRangeChecks ++
        evaluateTimestampRangeCheckExpressions cached ++ decoderAccess ++
        evaluateWidth3Lookups circuit ++ evaluateRangeCheckMultiplicities circuit cached ++
        evaluateDecoderLookupMultiplicity circuit ++ evaluateWidth3LookupsMultiplicity circuit ++
        requests ++ padding ++ evaluateMemoryQueriesAccumulation circuit ++ statePermutation ++
        masking ++ initAccumulation ++ evaluateGrandProduct circuit))) = some terms) :
    ∃ count, circuit.numQuotientTermsEveryRowExceptLast = some count ∧
      terms.map Prod.fst = List.range (count + numUncountedTerms circuit) := by
  obtain ⟨requests, requestTerms, rest₈⟩ := Option.bind_eq_some_iff.mp evaluates
  obtain ⟨_, noDelegation, rest₉⟩ := Option.bind_eq_some_iff.mp rest₈
  obtain ⟨padding, paddingTerms, rest₁₀⟩ := Option.bind_eq_some_iff.mp rest₉
  obtain ⟨_, _, rest₁₁⟩ := Option.bind_eq_some_iff.mp rest₁₀
  clear evaluates rest₈ rest₉ rest₁₀
  obtain ⟨_, noAccesses, rest₁₂⟩ := Option.bind_eq_some_iff.mp rest₁₁
  obtain ⟨statePermutation, stateTerms, rest₁₃⟩ := Option.bind_eq_some_iff.mp rest₁₂
  obtain ⟨masking, maskingTerms, rest₁₄⟩ := Option.bind_eq_some_iff.mp rest₁₃
  obtain ⟨initAccumulation, initAccumulationTerms, same⟩ := Option.bind_eq_some_iff.mp rest₁₄
  clear rest₁₁ rest₁₂ rest₁₃ rest₁₄
  cases same
  have sizes := wellSized.sizes
  have grandProduct := grandProduct_le_one wellSized
  -- neither conventions nor accesses of a delegation
  have noProcessor : ¬ circuit.memoryLayout.delegationProcessorLayout.isSome = true := by
    rw [← checked.delegations, (Option.guard_eq_some' ()).mp noDelegation]
    exact Bool.false_ne_true
  have noRegisters : circuit.memoryLayout.registerAndIndirectAccesses = [] := by
    by_contra present
    exact noProcessor (checked.registers present)
  have count := numQuotientTermsEveryRowExceptLast_eq wellSized noRemainder
    (fun both => noProcessor both.1) (if_neg noProcessor)
  have initNumber := length_initRangeChecks_of_evaluateIf checked wellSized initTerms
  have requestNumber := length_requests_of_evaluateIf checked requestTerms
  have paddingNumber := length_padding_of_evaluateIf checked wellSized paddingTerms
  have initAccumulationNumber :=
    length_initAccumulation_of_evaluateIf checked wellSized initAccumulationTerms
  have stateNumber : statePermutation.length = ifPresent hasDecoderPart :=
    (length_evaluateMachineStatePermutation stateTerms).trans sizes.statePermutation
  have maskingNumber : masking.length = ifPresent hasDecoderPart :=
    (length_evaluatePermutationMasking maskingTerms).trans sizes.masking
  have decoderMultiplicityNumber :
      (evaluateDecoderLookupMultiplicity circuit).length = ifPresent hasDecoderPart :=
    length_evaluateDecoderLookupMultiplicity wellSized.decoderMultiplicities
  have rangeCheck16 := checked.rangeCheck16
  have timestamps := checked.timestamps
  refine ⟨_, count, ?_⟩
  rw [map_fst_withChallenges wellSized.booleans, numUncountedTerms]
  refine congrArg List.range ?_
  simp only [List.length_append, evaluateRangeCheck16OverVariables,
    evaluateRangeCheck16OverExpressions, evaluateTimestampRangeCheckExpressions,
    length_evaluateRangeChecks, length_evaluateWidth3Lookups,
    length_evaluateRangeCheckMultiplicities cached sizes.rangeCheck16Multiplicity
      sizes.timestampMultiplicity, decoderMultiplicityNumber,
    length_evaluateWidth3LookupsMultiplicity, length_evaluateMemoryQueriesAccumulation,
    evaluateGrandProduct, List.length_singleton]
  have withoutProcessor :
      ifPresent circuit.memoryLayout.delegationProcessorLayout.isSome = 0 := if_neg noProcessor
  have withoutAccesses :
      numRegisterAndIndirectAccesses circuit.memoryLayout.registerAndIndirectAccesses = 0 := by
    rw [noRegisters]
    rfl
  have withoutCarries :
      numFirstCarries circuit.memoryLayout.registerAndIndirectAccesses = 0 := by
    rw [noRegisters]
    rfl
  omega

/-- Circuits of unrolled provers. -/
theorem proverStage3ForUnrolledCircuitTerms_powers {circuit : CompiledCircuitArtifact}
    {numInits : Nat} {hasDecoderPart : Bool} {terms : List (Nat × QuotientTerm)}
    (wellSized : circuit.WellSized numInits hasDecoderPart)
    (evaluates : proverStage3ForUnrolledCircuitTerms circuit = some terms) :
    ∃ count, circuit.numQuotientTermsEveryRowExceptLast = some count ∧
      terms.map Prod.fst = List.range (count + numUncountedTerms circuit) := by
  obtain ⟨cached, accepts, rest₁⟩ := Option.bind_eq_some_iff.mp evaluates
  obtain ⟨_, _, rest₂⟩ := Option.bind_eq_some_iff.mp rest₁
  obtain ⟨_, _, rest₃⟩ := Option.bind_eq_some_iff.mp rest₂
  obtain ⟨_, _, rest₄⟩ := Option.bind_eq_some_iff.mp rest₃
  obtain ⟨initRangeChecks, initTerms, rest₅⟩ := Option.bind_eq_some_iff.mp rest₄
  obtain ⟨_, noRemainder, rest₆⟩ := Option.bind_eq_some_iff.mp rest₅
  clear evaluates rest₁ rest₂ rest₃ rest₄ rest₅
  have checked := checked_of_new accepts
  have decoderState := wellSized.intermediateState
  cases state : circuit.memoryLayout.intermediateStateLayout with
  | none =>
      rw [state] at rest₆ decoderState
      have decoderNumber : ([] : List QuotientTerm).length = ifPresent hasDecoderPart :=
        congrArg ifPresent decoderState
      exact unrolled_powers_of_rest wellSized checked ((Option.guard_eq_some' ()).mp noRemainder)
        initTerms decoderNumber rest₆
  | some executorState =>
      rw [state] at rest₆ decoderState
      obtain ⟨decoderAccess, decoderTerms, rest₇⟩ := Option.bind_eq_some_iff.mp rest₆
      have decoderNumber : decoderAccess.length = ifPresent hasDecoderPart :=
        (length_evaluateDecoderTableAccess decoderTerms).trans (congrArg ifPresent decoderState)
      exact unrolled_powers_of_rest wellSized checked ((Option.guard_eq_some' ()).mp noRemainder)
        initTerms decoderNumber rest₇

/-! ## All compilations -/

/-- A compilation with all its inputs. -/
inductive Compilation
  | chunkedMemoryArgument (output : CircuitOutput) (traceLenLog2 : Nat)
  | delegations (output : CircuitOutput) (traceLenLog2 : Nat)
  | initAndTeardown (numInitAndTeardownColumnSets traceLenLog2 : Nat)
  | executor (output : CircuitOutput) (numInitsAndTeardowns traceLenLog2 : Nat)
  | decoder (output : CircuitOutput) (traceLenLog2 : Nat)

namespace Compilation

/-- The circuit that is compiled. -/
def artifact : Compilation → Option CompiledCircuitArtifact
  | chunkedMemoryArgument output traceLenLog2 =>
      compileOutputForChunkedMemoryArgument output traceLenLog2
  | delegations output traceLenLog2 => compileToEvaluateDelegations output traceLenLog2
  | initAndTeardown numInitAndTeardownColumnSets traceLenLog2 =>
      compileInitAndTeardownCircuit numInitAndTeardownColumnSets traceLenLog2
  | executor output numInitsAndTeardowns traceLenLog2 =>
      compileExecutorCircuitAssumingPreprocessedBytecodeWithInitsAndTeardowns output
        numInitsAndTeardowns traceLenLog2
  | decoder output traceLenLog2 => compileDecoderCircuit output traceLenLog2

/-- The prover of such a circuit. -/
def proverTerms (compilation : Compilation) (circuit : CompiledCircuitArtifact) :
    Option (List (Nat × QuotientTerm)) :=
  match compilation with
  | chunkedMemoryArgument _ _ => proverStage3Terms circuit
  | delegations _ _ => proverStage3Terms circuit
  | initAndTeardown _ _ => proverStage3ForUnrolledCircuitTerms circuit
  | executor _ _ _ => proverStage3ForUnrolledCircuitTerms circuit
  | decoder _ _ => proverStage3ForUnrolledCircuitTerms circuit

/-- No first access through a register derives a carry, and there is something that the grand
product accumulates. -/
def StartsWithoutCarry : Compilation → Prop
  | delegations output _ => ∀ access ∈ output.registerAndIndirectMemoryAccesses,
      access.indirectAccesses.head?.any IndirectAccessType.derivesCarry = false
  | initAndTeardown numInitAndTeardownColumnSets _ => 0 < numInitAndTeardownColumnSets
  | chunkedMemoryArgument _ _ | executor _ _ _ | decoder _ _ => True

end Compilation

/-- Each power that is made is used once, in order, and no other. -/
def CountedExactly (circuit : CompiledCircuitArtifact) (terms : List (Nat × QuotientTerm)) :
    Prop :=
  ∃ count, circuit.numQuotientTermsEveryRowExceptLast = some count ∧
    terms.map Prod.fst = List.range count

theorem countedExactly_iff {circuit : CompiledCircuitArtifact} {terms : List (Nat × QuotientTerm)}
    (powers : ∃ count, circuit.numQuotientTermsEveryRowExceptLast = some count ∧
      terms.map Prod.fst = List.range (count + numUncountedTerms circuit)) :
    CountedExactly circuit terms ↔ numUncountedTerms circuit = 0 := by
  obtain ⟨count, counted, emitted⟩ := powers
  constructor
  · rintro ⟨count', counted', emitted'⟩
    have sameCount := Option.some.inj (counted.symm.trans counted')
    have sameLength := congrArg List.length (emitted.symm.trans emitted')
    rw [List.length_range, List.length_range] at sameLength
    omega
  · intro none
    rw [none, Nat.add_zero] at emitted
    exact ⟨count, counted, emitted⟩

/-- The carries of the columns are those of the accesses that were compiled. -/
theorem numFirstCarries_eq_zero_iff {accesses : List RegisterAndIndirectAccessDescription}
    {compiled : List RegisterAndIndirectAccesses}
    (same : accesses.map (fun access =>
        access.indirectAccesses.map IndirectAccessColumns.hasCarry) =
      compiled.map fun access => access.indirectAccesses.map IndirectAccessType.derivesCarry) :
    numFirstCarries accesses = 0 ↔ ∀ access ∈ compiled,
      access.indirectAccesses.head?.any IndirectAccessType.derivesCarry = false := by
  have heads := congrArg (List.map fun carries => carries.head?.any id) same
  rw [List.map_map, List.map_map] at heads
  have fromColumns : numFirstCarries accesses = (accesses.map ((fun carries : List Bool =>
      carries.head?.any id) ∘ fun access =>
        access.indirectAccesses.map IndirectAccessColumns.hasCarry)).countP id := by
    rw [List.countP_map, numFirstCarries]
    apply List.countP_congr
    intro access _
    simp [Option.any_map, Function.comp_def]
  rw [fromColumns, heads, List.countP_map, List.countP_eq_zero]
  apply forall₂_congr
  intro access _
  simp [Option.any_map, Function.comp_def]

theorem numUncountedTerms_eq_zero_iff {circuit : CompiledCircuitArtifact} {numInits : Nat}
    {hasDecoderPart : Bool} (wellSized : circuit.WellSized numInits hasDecoderPart) :
    numUncountedTerms circuit = 0 ↔
      numFirstCarries circuit.memoryLayout.registerAndIndirectAccesses = 0 ∧
        (hasDecoderPart = true ∨ 0 < numInits + circuit.memoryLayout.shuffleRamAccessSets.length +
          numRegisterAndIndirectAccesses circuit.memoryLayout.registerAndIndirectAccesses) := by
  have sizes := wellSized.sizes
  have inits := sizes.initTeardown
  rw [wellSized.inits] at inits
  have grandProduct := sizes.grandProduct
  rw [sizes.memoryArgument, sizes.statePermutation, inits] at grandProduct
  rw [numUncountedTerms, grandProduct]
  cases hasDecoderPart with
  | true => simp
  | false =>
      simp only [Bool.or_eq_true, decide_eq_true_eq, Bool.false_eq_true, if_false,
        Nat.lt_irrefl, or_false, false_or]
      by_cases present : 0 < circuit.memoryLayout.shuffleRamAccessSets.length +
          numRegisterAndIndirectAccesses circuit.memoryLayout.registerAndIndirectAccesses ∨
        0 < numInits
      · rw [if_pos present, Nat.sub_self, Nat.add_zero]
        exact (and_iff_left (by omega)).symm
      · rw [if_neg present]
        exact iff_of_false (by omega) (by omega)

/-- Every circuit that is compiled and proved: the powers are counted exactly if and only if no
first access derives a carry and there is a grand product. -/
theorem countedExactly_iff_startsWithoutCarry {compilation : Compilation}
    {circuit : CompiledCircuitArtifact} {terms : List (Nat × QuotientTerm)}
    (compiles : compilation.artifact = some circuit)
    (evaluates : compilation.proverTerms circuit = some terms) :
    CountedExactly circuit terms ↔ compilation.StartsWithoutCarry := by
  cases compilation with
  | chunkedMemoryArgument output traceLenLog2 =>
      obtain ⟨wellSized, noProcessor, noAccesses⟩ :=
        compiled_of_compileOutputForChunkedMemoryArgument compiles
      have alone : ProcessesAlone circuit.memoryLayout := by
        intro processes
        rw [noProcessor] at processes
        exact absurd processes Bool.false_ne_true
      rw [countedExactly_iff (proverStage3Terms_powers wellSized alone evaluates),
        numUncountedTerms_eq_zero_iff wellSized, noAccesses]
      refine iff_of_true ⟨rfl, Or.inr ?_⟩ trivial
      omega
  | delegations output traceLenLog2 =>
      obtain ⟨wellSized, noQueries, noRequest, outputAccesses, carries⟩ :=
        compiled_of_compileToEvaluateDelegations compiles
      have accesses : circuit.memoryLayout.registerAndIndirectAccesses ≠ [] := by
        intro none
        rw [none, List.map_nil, eq_comm, List.map_eq_nil_iff] at carries
        exact outputAccesses carries
      have present :
          0 < numRegisterAndIndirectAccesses circuit.memoryLayout.registerAndIndirectAccesses := by
        obtain ⟨access, rest, list⟩ := List.exists_cons_of_ne_nil accesses
        rw [list, numRegisterAndIndirectAccesses, List.map_cons, List.sum_cons]
        omega
      rw [countedExactly_iff (proverStage3Terms_powers wellSized
          (fun _ => ⟨noQueries, accesses, noRequest⟩) evaluates),
        numUncountedTerms_eq_zero_iff wellSized, numFirstCarries_eq_zero_iff carries]
      exact and_iff_left (Or.inr (Nat.add_pos_right _ present))
  | initAndTeardown numSets traceLenLog2 =>
      obtain ⟨wellSized, -, noQueries, noAccesses⟩ :=
        compiled_of_compileInitAndTeardownCircuit compiles
      rw [countedExactly_iff (proverStage3ForUnrolledCircuitTerms_powers wellSized evaluates),
        numUncountedTerms_eq_zero_iff wellSized, noQueries, noAccesses]
      change (0 = 0 ∧ (false = true ∨ 0 < numSets + 0 + 0)) ↔ 0 < numSets
      simp
  | executor output numSets traceLenLog2 =>
      obtain ⟨wellSized, -, noAccesses⟩ := compiled_of_compileExecutorCircuit compiles
      rw [countedExactly_iff (proverStage3ForUnrolledCircuitTerms_powers wellSized evaluates),
        numUncountedTerms_eq_zero_iff wellSized, noAccesses]
      exact iff_of_true ⟨rfl, Or.inl rfl⟩ trivial
  | decoder output traceLenLog2 =>
      -- the prover does not accept such a circuit
      obtain ⟨cached, accepts, _⟩ := Option.bind_eq_some_iff.mp evaluates
      have multiplicities := (checked_of_new accepts).rangeCheck16Multiplicities
      rw [noRangeCheck16_of_compileDecoderCircuit compiles] at multiplicities
      exact absurd multiplicities (by decide)

/-! ## A delegation whose first access is behind its pointer -/

/-- A circuit without anything. -/
def emptyOutput : CircuitOutput where
  stateInput := []
  stateOutput := []
  tableDriver := ⟨0, fun _ => false⟩
  numOfVariables := 0
  constraints := []
  lookups := []
  shuffleRamQueries := []
  delegatedComputationRequests := []
  degegatedRequestToProcess := none
  registerAndIndirectMemoryAccesses := []
  decoderMachineState := none
  executorMachineState := none
  linkedVariables := []
  rangeCheckExpressions := []
  booleanVars := []
  substitutions := []

/-- A delegation that reads one word through the pointer in register 10, at an offset. -/
def delegationAt (offset : U32) : CircuitOutput := { emptyOutput with
  numOfVariables := 6
  degegatedRequestToProcess := some ⟨0, 1⟩
  registerAndIndirectMemoryAccesses :=
    [⟨10, .read (2, 3), 2, [.read (4, 5) none offset false]⟩] }

/-- The circuit and the terms of a compilation, when both are there. -/
def compiledTerms (compilation : Compilation) :
    Option (CompiledCircuitArtifact × List (Nat × QuotientTerm)) := do
  let circuit ← compilation.artifact
  let terms ← compilation.proverTerms circuit
  some (circuit, terms)

theorem of_compiledTerms {compilation : Compilation} {circuit : CompiledCircuitArtifact}
    {terms : List (Nat × QuotientTerm)}
    (compiled : compiledTerms compilation = some (circuit, terms)) :
    compilation.artifact = some circuit ∧ compilation.proverTerms circuit = some terms := by
  obtain ⟨_, compiles, rest⟩ := Option.bind_eq_some_iff.mp compiled
  obtain ⟨_, evaluates, same⟩ := Option.bind_eq_some_iff.mp rest
  cases same
  exact ⟨compiles, evaluates⟩

theorem exists_countedExactly_delegationAt_zero : ∃ circuit terms,
    (Compilation.delegations (delegationAt 0) 20).artifact = some circuit ∧
      (Compilation.delegations (delegationAt 0) 20).proverTerms circuit = some terms ∧
      CountedExactly circuit terms := by
  obtain ⟨⟨circuit, terms⟩, compiled⟩ := Option.isSome_iff_exists.mp
    (by decide +kernel : (compiledTerms (.delegations (delegationAt 0) 20)).isSome = true)
  obtain ⟨compiles, evaluates⟩ := of_compiledTerms compiled
  have starts : (Compilation.delegations (delegationAt 0) 20).StartsWithoutCarry := by
    intro access member
    rw [List.mem_singleton.mp member]
    rfl
  exact ⟨circuit, terms, compiles, evaluates,
    (countedExactly_iff_startsWithoutCarry compiles evaluates).mpr starts⟩

/-- The carry of the first access takes one more power than there is. -/
theorem not_countedExactly_delegationAt_four : ∃ circuit terms,
    (Compilation.delegations (delegationAt 4) 20).artifact = some circuit ∧
      (Compilation.delegations (delegationAt 4) 20).proverTerms circuit = some terms ∧
      circuit.numQuotientTermsEveryRowExceptLast = some 28 ∧ terms.length = 29 ∧
      ¬CountedExactly circuit terms := by
  have counts : (compiledTerms (.delegations (delegationAt 4) 20)).map (fun compiled =>
      (compiled.1.numQuotientTermsEveryRowExceptLast, compiled.2.length)) = some (some 28, 29) := by
    decide +kernel
  obtain ⟨⟨circuit, terms⟩, compiled, numbers⟩ := Option.map_eq_some_iff.mp counts
  obtain ⟨compiles, evaluates⟩ := of_compiledTerms compiled
  obtain ⟨counted, emitted⟩ : circuit.numQuotientTermsEveryRowExceptLast = some 28 ∧
      terms.length = 29 := Prod.mk.inj numbers
  refine ⟨circuit, terms, compiles, evaluates, counted, emitted, ?_⟩
  rintro ⟨count, counted', powers⟩
  have sameCount := Option.some.inj (counted.symm.trans counted')
  have sameLength := congrArg List.length powers
  rw [List.length_map, List.length_range] at sameLength
  omega

end Airbender.Prover
