import Airbender.Compiler.CompileLayout
import Airbender.Compiler.QuotientTerms
import Airbender.Compiler.Stage2Sizes

/-!
# What the compilers guarantee

Each step of a compilation is described once.  The circuits of all compilers agree in the
sizes of their parts; what the memory of a circuit holds depends on the compiler.
-/

namespace Airbender.Compiler

open Construction
open Constraints (Variable Constraint)
open LookupAndMemoryArgumentLayout (fromCompiledParts)

/-! ## Columns and constraints -/

theorem numElements_of_columnsAt {width offset numElements finish : Nat} {set : ColumnSet width}
    (place : ColumnSet.layoutAt width offset numElements = some (set, finish)) :
    set.numElements = numElements := by
  obtain ⟨_, _, same⟩ := Option.bind_eq_some_iff.mp place
  cases same
  rfl

theorem numElements_of_layoutWitnessColumns {width numElements : Nat} {columns : ColumnSet width}
    {placement placement' : Placement}
    (runs : Runs (layoutWitnessColumns width numElements) placement columns placement') :
    columns.numElements = numElements := by
  obtain ⟨before, _, _, runs⟩ := runs_bind runs
  obtain ⟨⟨set, offset⟩, _, place, runs⟩ := runs_bind runs
  obtain ⟨_, _, _, runs⟩ := runs_bind runs
  obtain ⟨rfl, -⟩ := runs_pure runs
  exact numElements_of_columnsAt (runs_lift place).1

/-- Every column of a boolean variable has its constraint. -/
theorem length_of_placeBooleanVars {columns : ColumnSet 1}
    {constraints : List CompiledDegree2Constraint} {placement placement' : Placement}
    (runs : Runs placeBooleanVars placement (columns, constraints) placement') :
    columns.numElements = constraints.length := by
  obtain ⟨before, _, _, runs⟩ := runs_bind runs
  obtain ⟨⟨set, offset⟩, _, place, runs⟩ := runs_bind runs
  obtain ⟨found, _, _, runs⟩ := runs_bind runs
  obtain ⟨after, _, _, runs⟩ := runs_bind runs
  obtain ⟨_, _, _, runs⟩ := runs_bind runs
  obtain ⟨_, _, sameLength, runs⟩ := runs_bind runs
  obtain ⟨sameLength, -⟩ := runs_require sameLength
  obtain ⟨same, -⟩ := runs_pure runs
  cases same
  rw [numElements_of_columnsAt (runs_lift place).1, sameLength]

theorem length_le_of_compileConstraint {layout : Variable → Option ColumnAddress}
    {compiled compiled' : List CompiledDegree2Constraint × List CompiledDegree1Constraint}
    {entry : Constraint × Bool} (compiles : compileConstraint layout compiled entry =
      some compiled') : compiled.1.length ≤ compiled'.1.length := by
  obtain ⟨_, _, rest₁⟩ := Option.bind_eq_some_iff.mp compiles
  obtain ⟨_, _, rest₂⟩ := Option.bind_eq_some_iff.mp rest₁
  obtain ⟨constraint, _, rest₃⟩ := Option.bind_eq_some_iff.mp rest₂
  by_cases quadratic : entry.1.degree = 2
  · rw [if_pos quadratic] at rest₃
    cases rest₃
    rw [List.length_append]
    exact Nat.le_add_right _ _
  · rw [if_neg quadratic] at rest₃
    cases rest₃
    exact le_refl _

/-- The constraints of the boolean variables stay in front. -/
theorem length_le_of_compileConstraints {layout : Variable → Option ColumnAddress}
    {compiled compiled' : List CompiledDegree2Constraint × List CompiledDegree1Constraint}
    {constraints : List (Constraint × Bool)}
    (compiles : constraints.foldlM (compileConstraint layout) compiled = some compiled') :
    compiled.1.length ≤ compiled'.1.length := by
  induction constraints generalizing compiled with
  | nil =>
      cases compiles
      exact le_refl _
  | cons entry rest inductionHypothesis =>
      rw [List.foldlM_cons] at compiles
      obtain ⟨next, first, later⟩ := Option.bind_eq_some_iff.mp compiles
      exact (length_le_of_compileConstraint first).trans (inductionHypothesis later)

theorem length_le_of_layoutScratchSpace {booleanConstraints quadratic :
      List CompiledDegree2Constraint} {linear : List CompiledDegree1Constraint}
    {optimizedOut : List Variable} {constraints : List (Constraint × Bool)}
    {columns : ColumnSet 1} {placement placement' : Placement}
    (runs : Runs (layoutScratchSpace booleanConstraints optimizedOut constraints) placement
      (columns, quadratic, linear) placement') :
    booleanConstraints.length ≤ quadratic.length := by
  obtain ⟨_, _, _, runs⟩ := runs_bind runs
  obtain ⟨_, _, _, runs⟩ := runs_bind runs
  obtain ⟨⟨set, offset⟩, _, _, runs⟩ := runs_bind runs
  obtain ⟨_, _, _, runs⟩ := runs_bind runs
  obtain ⟨_, _, _, runs⟩ := runs_bind runs
  obtain ⟨_, _, _, runs⟩ := runs_bind runs
  obtain ⟨_, _, _, runs⟩ := runs_bind runs
  obtain ⟨⟨compiledQuadratic, compiledLinear⟩, _, compiles, runs⟩ := runs_bind runs
  obtain ⟨same, -⟩ := runs_pure runs
  obtain ⟨compiles, -⟩ := runs_lift compiles
  cases same
  exact length_le_of_compileConstraints compiles

/-! ## The end of a compilation -/

/-- The circuit consists of the parts that are put together. -/
structure Assembled (traceLen : Nat) (setupLayout : SetupLayout) (memory : MemoryPart)
    (witness : WitnessPart) (hasDecoderPart separateDecoderCircuit : Bool)
    (circuit : CompiledCircuitArtifact) : Prop where
  stage2Layout : fromCompiledParts true witness.witnessLayout memory.memoryLayout setupLayout
    hasDecoderPart separateDecoderCircuit = some circuit.stage2Layout
  witnessLayout : circuit.witnessLayout = witness.witnessLayout
  memoryLayout : circuit.memoryLayout = memory.memoryLayout
  setupLayout : circuit.setupLayout = setupLayout
  traceLen : circuit.traceLen = traceLen
  degree2Constraints :
    circuit.degree2Constraints.length = witness.degree2Constraints.length
  auxVars : circuit.lazyInitAddressAuxVars.length = memory.lazyInitAuxSet.length

theorem assembled_of_assembleArtifact {traceLen : Nat} {setupLayout : SetupLayout}
    {memory : MemoryPart} {witness : WitnessPart}
    {stateLinkage : List (ColumnAddress × ColumnAddress)}
    {publicInputs : List (BoundaryConstraintLocation × ColumnAddress)}
    {hasDecoderPart separateDecoderCircuit : Bool} {circuit : CompiledCircuitArtifact}
    {placement placement' : Placement}
    (runs : Runs (assembleArtifact traceLen setupLayout memory witness stateLinkage publicInputs
      hasDecoderPart separateDecoderCircuit) placement circuit placement') :
    Assembled traceLen setupLayout memory witness hasDecoderPart separateDecoderCircuit
      circuit := by
  obtain ⟨auxVars, _, placed, runs⟩ := runs_bind runs
  obtain ⟨stage2Layout, _, laidOut, runs⟩ := runs_bind runs
  obtain ⟨rfl, -⟩ := runs_pure runs
  obtain ⟨laidOut, -⟩ := runs_lift laidOut
  exact {
    witnessLayout := rfl
    memoryLayout := rfl
    setupLayout := rfl
    traceLen := rfl
    degree2Constraints := List.length_map _
    auxVars := length_of_mapM placed
    stage2Layout := laidOut }

theorem setup_of_layoutForLookupSize {totalTablesLen traceLen : Nat}
    {needRangeCheck16 needTimestampsRangeCheck needTimestamps needDecoder : Bool}
    {setupLayout : SetupLayout}
    (laidOut : SetupLayout.layoutForLookupSize totalTablesLen traceLen needRangeCheck16
      needTimestampsRangeCheck needTimestamps needDecoder = some setupLayout) :
    Usize.isPowerOfTwo traceLen = true ∧ setupLayout.genericLookupSetupColumns.numElements =
      numRequiredSetupTuples totalTablesLen traceLen := by
  obtain ⟨_, power, rest₁⟩ := Option.bind_eq_some_iff.mp laidOut
  obtain ⟨_, _, rest₂⟩ := Option.bind_eq_some_iff.mp rest₁
  obtain ⟨⟨timestamps, offset₁⟩, _, rest₃⟩ := Option.bind_eq_some_iff.mp rest₂
  obtain ⟨⟨rangeCheck16, offset₂⟩, _, rest₄⟩ := Option.bind_eq_some_iff.mp rest₃
  obtain ⟨⟨timestampRangeCheck, offset₃⟩, _, rest₅⟩ := Option.bind_eq_some_iff.mp rest₄
  obtain ⟨⟨genericLookup, offset₄⟩, place, rest₆⟩ := Option.bind_eq_some_iff.mp rest₅
  obtain ⟨⟨decoder, offset₅⟩, _, same⟩ := Option.bind_eq_some_iff.mp rest₆
  cases same
  exact ⟨(Option.guard_eq_some' ()).mp power, numElements_of_columnsAt place⟩

/-! ## The witness -/

/-- What the rest of a compilation needs to know of the witness columns. -/
structure WitnessPart.Shape (witness : WitnessPart) (numTuples : Nat) (hasDecoderPart : Bool) :
    Prop where
  booleans : witness.witnessLayout.booleanVarsColumnsRange.numElements ≤
    witness.degree2Constraints.length
  genericMultiplicities :
    witness.witnessLayout.multiplicitiesColumnsForGenericLookup.numElements = numTuples
  decoderMultiplicities :
    witness.witnessLayout.multiplicitiesColumnsForDecoderInExecutorFamilies.numElements =
      if hasDecoderPart then 1 else 0

theorem shape_of_compileInnerWitness {output : CircuitOutput} {traceLen : Nat}
    {setupLayout : SetupLayout} {memory : MemoryPart} {witness : WitnessPart}
    {placement placement' : Placement}
    (runs : Runs (compileInnerWitness output traceLen setupLayout memory) placement witness
      placement') :
    witness.Shape (numRequiredSetupTuples output.tableDriver.totalTablesLen traceLen) false := by
  obtain ⟨rangeCheck16, _, _, runs⟩ := runs_bind runs
  obtain ⟨timestamps, _, _, runs⟩ := runs_bind runs
  obtain ⟨generic, _, genericPlace, runs⟩ := runs_bind runs
  obtain ⟨⟨columns8, columns16, expressions⟩, _, _, runs⟩ := runs_bind runs
  obtain ⟨constraints, _, _, runs⟩ := runs_bind runs
  obtain ⟨⟨booleans, booleanConstraints⟩, _, booleanRuns, runs⟩ := runs_bind runs
  obtain ⟨width3Lookups, _, _, runs⟩ := runs_bind runs
  obtain ⟨⟨offset, timestampExpressions⟩, _, _, runs⟩ := runs_bind runs
  obtain ⟨⟨optimizedOut, constraintsLeft⟩, _, _, runs⟩ := runs_bind runs
  obtain ⟨⟨scratch, quadratic, linear⟩, _, scratchRuns, runs⟩ := runs_bind runs
  obtain ⟨_, _, _, runs⟩ := runs_bind runs
  obtain ⟨padded, _, _, runs⟩ := runs_bind runs
  obtain ⟨final, _, _, runs⟩ := runs_bind runs
  obtain ⟨rfl, -⟩ := runs_pure runs
  exact {
    booleans := (length_of_placeBooleanVars booleanRuns).trans_le
      (length_le_of_layoutScratchSpace scratchRuns)
    genericMultiplicities := numElements_of_layoutWitnessColumns genericPlace
    decoderMultiplicities := rfl }

theorem shape_of_compileExecutorWitness {output : CircuitOutput} {traceLen : Nat}
    {setupLayout : SetupLayout} {memory : MemoryPart}
    {timestampConstraints : List (Constraint × Bool)} {cycleTimestamp : ColumnSet 2}
    {witness : WitnessPart} {placement placement' : Placement}
    (runs : Runs (compileExecutorWitness output traceLen setupLayout memory timestampConstraints
      cycleTimestamp) placement witness placement') :
    witness.Shape (numRequiredSetupTuples output.tableDriver.totalTablesLen traceLen) true := by
  obtain ⟨rangeCheck16, _, _, runs⟩ := runs_bind runs
  obtain ⟨timestamps, _, _, runs⟩ := runs_bind runs
  obtain ⟨decoder, _, decoderPlace, runs⟩ := runs_bind runs
  obtain ⟨generic, _, genericPlace, runs⟩ := runs_bind runs
  obtain ⟨⟨columns8, columns16, expressions⟩, _, _, runs⟩ := runs_bind runs
  obtain ⟨constraints, _, _, runs⟩ := runs_bind runs
  obtain ⟨⟨booleans, booleanConstraints⟩, _, booleanRuns, runs⟩ := runs_bind runs
  obtain ⟨width3Lookups, _, _, runs⟩ := runs_bind runs
  obtain ⟨⟨offset, timestampExpressions⟩, _, _, runs⟩ := runs_bind runs
  obtain ⟨⟨optimizedOut, constraintsLeft⟩, _, _, runs⟩ := runs_bind runs
  obtain ⟨⟨scratch, quadratic, linear⟩, _, scratchRuns, runs⟩ := runs_bind runs
  obtain ⟨final, _, _, runs⟩ := runs_bind runs
  obtain ⟨rfl, -⟩ := runs_pure runs
  exact {
    booleans := (length_of_placeBooleanVars booleanRuns).trans_le
      (length_le_of_layoutScratchSpace scratchRuns)
    genericMultiplicities := numElements_of_layoutWitnessColumns genericPlace
    decoderMultiplicities := numElements_of_layoutWitnessColumns decoderPlace }

/-! ## The memory -/

/-- What the rest of a compilation needs to know of the memory columns. -/
structure MemoryPart.Shape (memory : MemoryPart) (numInits : Nat) (hasDecoderPart : Bool) :
    Prop where
  inits : memory.memoryLayout.shuffleRamInitsAndTeardowns.length = numInits
  auxVars : memory.lazyInitAuxSet.length = numInits
  intermediateState : memory.memoryLayout.intermediateStateLayout.isSome = hasDecoderPart

theorem lengths_of_compileInitsAndTeardowns {numSets : Nat}
    {inits : List ShuffleRamInitAndTeardownLayout}
    {auxSet : List (WordVariables × Variable × Variable)} {placement placement' : Placement}
    (runs : Runs (compileInitsAndTeardowns numSets) placement (inits, auxSet) placement') :
    inits.length = numSets ∧ auxSet.length = numSets := by
  obtain ⟨sets, _, collected, runs⟩ := runs_bind runs
  obtain ⟨same, -⟩ := runs_pure runs
  have number := length_of_mapM collected
  rw [List.length_range] at number
  cases same
  rw [List.length_map, List.length_map, number]
  exact ⟨rfl, rfl⟩

theorem shape_of_compileChunkedMemory {output : CircuitOutput} {memory : MemoryPart}
    {placement placement' : Placement}
    (runs : Runs (compileChunkedMemory output) placement memory placement') :
    memory.Shape 1 false ∧ memory.memoryLayout.delegationProcessorLayout = none ∧
      memory.memoryLayout.registerAndIndirectAccesses = [] := by
  obtain ⟨⟨inits, auxSet⟩, _, initRuns, runs⟩ := runs_bind runs
  obtain ⟨_, _, _, runs⟩ := runs_bind runs
  obtain ⟨queries, _, _, runs⟩ := runs_bind runs
  obtain ⟨timestamp, _, _, runs⟩ := runs_bind runs
  obtain ⟨request, _, _, runs⟩ := runs_bind runs
  obtain ⟨final, _, _, runs⟩ := runs_bind runs
  obtain ⟨rfl, -⟩ := runs_pure runs
  obtain ⟨numInits, numAuxVars⟩ := lengths_of_compileInitsAndTeardowns initRuns
  exact ⟨⟨numInits, numAuxVars, rfl⟩, rfl, rfl⟩

theorem shape_of_compileExecutorMemory {output : CircuitOutput} {state : OpcodeFamilyCircuitState}
    {numSets : Nat} {memory : MemoryPart} {timestampConstraints : List (Constraint × Bool)}
    {cycleTimestamp : ColumnSet 2} {placement placement' : Placement}
    (runs : Runs (compileExecutorMemory output state numSets) placement
      (memory, timestampConstraints, cycleTimestamp) placement') :
    memory.Shape numSets true ∧ memory.memoryLayout.delegationProcessorLayout = none ∧
      memory.memoryLayout.registerAndIndirectAccesses = [] := by
  obtain ⟨⟨inits, auxSet⟩, _, initRuns, runs⟩ := runs_bind runs
  obtain ⟨_, _, _, runs⟩ := runs_bind runs
  obtain ⟨_, _, _, runs⟩ := runs_bind runs
  obtain ⟨queries, _, _, runs⟩ := runs_bind runs
  obtain ⟨carry, _, _, runs⟩ := runs_bind runs
  obtain ⟨_, _, _, runs⟩ := runs_bind runs
  obtain ⟨⟨low, high⟩, _, _, runs⟩ := runs_bind runs
  obtain ⟨timestamp, _, _, runs⟩ := runs_bind runs
  obtain ⟨request, _, _, runs⟩ := runs_bind runs
  obtain ⟨⟨machineState, executorState⟩, _, _, runs⟩ := runs_bind runs
  obtain ⟨final, _, _, runs⟩ := runs_bind runs
  obtain ⟨same, -⟩ := runs_pure runs
  obtain ⟨numInits, numAuxVars⟩ := lengths_of_compileInitsAndTeardowns initRuns
  cases same
  exact ⟨⟨numInits, numAuxVars, rfl⟩, rfl, rfl⟩

/-! ## Carries in delegation circuits -/

/-- An access at a nonzero offset that is not known to stay inside an aligned block. -/
def IndirectAccessType.derivesCarry (access : IndirectAccessType) : Bool :=
  !access.considerAligned && access.offsetConstant ≠ 0

theorem numElements_of_layoutMemorySubtreeVariable {var : Variable} {columns : ColumnSet 1}
    {placement placement' : Placement}
    (runs : Runs (layoutMemorySubtreeVariable var) placement columns placement') :
    columns.numElements = 1 := by
  obtain ⟨set, _, place, runs⟩ := runs_bind runs
  obtain ⟨_, _, _, runs⟩ := runs_bind runs
  obtain ⟨_, _, _, runs⟩ := runs_bind runs
  obtain ⟨_, _, _, runs⟩ := runs_bind runs
  obtain ⟨rfl, -⟩ := runs_pure runs
  obtain ⟨before, _, _, place⟩ := runs_bind place
  obtain ⟨⟨inner, offset⟩, _, innerPlace, place⟩ := runs_bind place
  obtain ⟨_, _, _, place⟩ := runs_bind place
  obtain ⟨rfl, -⟩ := runs_pure place
  exact numElements_of_columnsAt (runs_lift innerPlace).1

theorem numElements_of_layoutAddressCarry {access : IndirectAccessType}
    {columns : ColumnSet 1} {placement placement' : Placement}
    (runs : Runs (layoutAddressCarry access) placement columns placement') :
    columns.numElements = if access.derivesCarry then 1 else 0 := by
  unfold layoutAddressCarry at runs
  cases aligned : access.considerAligned with
  | true =>
      rw [aligned, if_pos rfl] at runs
      obtain ⟨rfl, -⟩ := runs_pure runs
      rw [IndirectAccessType.derivesCarry, aligned]
      rfl
  | false =>
      rw [aligned, if_neg Bool.false_ne_true] at runs
      obtain ⟨_, _, _, runs⟩ := runs_bind runs
      by_cases start : access.offsetConstant = 0
      · rw [if_pos start] at runs
        obtain ⟨rfl, -⟩ := runs_pure runs
        rw [IndirectAccessType.derivesCarry, aligned, decide_eq_false (not_not.mpr start)]
        rfl
      · rw [if_neg start] at runs
        obtain ⟨carry, _, _, runs⟩ := runs_bind runs
        rw [IndirectAccessType.derivesCarry, aligned, decide_eq_true start]
        exact numElements_of_layoutMemorySubtreeVariable runs

theorem hasCarry_of_compileIndirectAccess {delegation : DelegationTimestamp}
    {registerReadValue : ColumnSet 2} {access : IndirectAccessType}
    {result : IndirectAccessColumns × List LookupInput × List LookupExpression}
    {placement placement' : Placement}
    (runs : Runs (compileIndirectAccess delegation registerReadValue access) placement result
      placement') : result.1.hasCarry = access.derivesCarry := by
  obtain ⟨⟨readTimestamp, comparison⟩, _, _, runs⟩ := runs_bind runs
  obtain ⟨carry, _, carryRuns, runs⟩ := runs_bind runs
  obtain ⟨_, _, _, runs⟩ := runs_bind runs
  obtain ⟨variablePart, _, _, runs⟩ := runs_bind runs
  obtain ⟨rangeChecks, _, _, runs⟩ := runs_bind runs
  have carryColumns := numElements_of_layoutAddressCarry carryRuns
  have present : decide (0 < carry.numElements) = access.derivesCarry := by
    rw [carryColumns]
    cases access.derivesCarry <;> rfl
  cases access with
  | read readValue variableDependent offsetConstant considerAligned =>
      obtain ⟨_, _, _, runs⟩ := runs_bind runs
      obtain ⟨rfl, -⟩ := runs_pure runs
      exact present
  | write readValue writeValue variableDependent offsetConstant considerAligned =>
      obtain ⟨_, _, _, runs⟩ := runs_bind runs
      obtain ⟨_, _, _, runs⟩ := runs_bind runs
      obtain ⟨rfl, -⟩ := runs_pure runs
      exact present

theorem carries_of_compileRegisterAndIndirectAccesses {delegation : DelegationTimestamp}
    {access : RegisterAndIndirectAccesses}
    {result : RegisterAndIndirectAccessDescription × List LookupInput × List LookupExpression}
    {placement placement' : Placement}
    (runs : Runs (compileRegisterAndIndirectAccesses delegation access) placement result
      placement') :
    result.1.indirectAccesses.map IndirectAccessColumns.hasCarry =
      access.indirectAccesses.map IndirectAccessType.derivesCarry := by
  obtain ⟨⟨readTimestamp, comparison⟩, _, _, runs⟩ := runs_bind runs
  obtain ⟨_, _, _, runs⟩ := runs_bind runs
  obtain ⟨registerAccess, _, _, runs⟩ := runs_bind runs
  -- the expression for the alignment does not touch the accesses
  dsimp only at runs
  split_ifs at runs
  all_goals
    obtain ⟨alignment, _, _, runs⟩ := runs_bind runs
    obtain ⟨indirects, _, indirectRuns, runs⟩ := runs_bind runs
    obtain ⟨rfl, -⟩ := runs_pure runs
    rw [List.map_map]
    exact map_of_mapM hasCarry_of_compileIndirectAccess indirectRuns

theorem shape_of_compileDelegationMemory {output : CircuitOutput} {memory : MemoryPart}
    {placement placement' : Placement}
    (runs : Runs (compileDelegationMemory output) placement memory placement') :
    memory.Shape 0 false ∧ memory.memoryLayout.shuffleRamAccessSets = [] ∧
      memory.memoryLayout.delegationRequestLayout = none ∧
      memory.memoryLayout.registerAndIndirectAccesses.map
          (fun access => access.indirectAccesses.map IndirectAccessColumns.hasCarry) =
        output.registerAndIndirectMemoryAccesses.map
          fun access => access.indirectAccesses.map IndirectAccessType.derivesCarry := by
  obtain ⟨request, _, _, runs⟩ := runs_bind runs
  obtain ⟨multiplicity, _, _, runs⟩ := runs_bind runs
  obtain ⟨abiMemOffsetHigh, _, _, runs⟩ := runs_bind runs
  obtain ⟨timestampLow, _, _, runs⟩ := runs_bind runs
  obtain ⟨timestampHigh, _, _, runs⟩ := runs_bind runs
  obtain ⟨writeTimestamp, _, _, runs⟩ := runs_bind runs
  obtain ⟨accesses, _, accessRuns, runs⟩ := runs_bind runs
  obtain ⟨final, _, _, runs⟩ := runs_bind runs
  obtain ⟨rfl, -⟩ := runs_pure runs
  refine ⟨⟨rfl, rfl, rfl⟩, rfl, rfl, ?_⟩
  rw [List.map_map]
  exact map_of_mapM carries_of_compileRegisterAndIndirectAccesses accessRuns

/-! ## Whole compilations -/

/-- What the number of terms depends on. -/
structure CompiledCircuitArtifact.WellSized (circuit : CompiledCircuitArtifact) (numInits : Nat)
    (hasDecoderPart : Bool) : Prop where
  traceLen : Usize.isPowerOfTwo circuit.traceLen = true
  booleans : circuit.witnessLayout.booleanVarsColumnsRange.numElements ≤
    circuit.degree2Constraints.length
  inits : circuit.memoryLayout.shuffleRamInitsAndTeardowns.length = numInits
  auxVars : circuit.lazyInitAddressAuxVars.length = numInits
  genericMultiplicities :
    circuit.witnessLayout.multiplicitiesColumnsForGenericLookup.numElements =
      circuit.setupLayout.genericLookupSetupColumns.numElements
  decoderMultiplicities :
    circuit.witnessLayout.multiplicitiesColumnsForDecoderInExecutorFamilies.numElements =
      if hasDecoderPart then 1 else 0
  intermediateState : circuit.memoryLayout.intermediateStateLayout.isSome = hasDecoderPart
  sizes : circuit.stage2Layout.Sizes circuit.witnessLayout circuit.memoryLayout
    circuit.setupLayout hasDecoderPart

theorem wellSized_of_assembled {traceLen numInits : Nat} {setupLayout : SetupLayout}
    {memory : MemoryPart} {witness : WitnessPart} {hasDecoderPart : Bool}
    {circuit : CompiledCircuitArtifact}
    (assembled : Assembled traceLen setupLayout memory witness hasDecoderPart false circuit)
    (power : Usize.isPowerOfTwo traceLen = true)
    (witnessShape : witness.Shape setupLayout.genericLookupSetupColumns.numElements
      hasDecoderPart)
    (memoryShape : memory.Shape numInits hasDecoderPart) :
    circuit.WellSized numInits hasDecoderPart := by
  have sizes := sizes_of_fromCompiledParts assembled.stage2Layout
  exact {
    traceLen := by rw [assembled.traceLen, power]
    booleans := by
      rw [assembled.witnessLayout, assembled.degree2Constraints]
      exact witnessShape.booleans
    inits := by rw [assembled.memoryLayout, memoryShape.inits]
    auxVars := by rw [assembled.auxVars, memoryShape.auxVars]
    genericMultiplicities := by
      rw [assembled.witnessLayout, assembled.setupLayout, witnessShape.genericMultiplicities]
    decoderMultiplicities := by
      rw [assembled.witnessLayout, witnessShape.decoderMultiplicities]
    intermediateState := by rw [assembled.memoryLayout, memoryShape.intermediateState]
    sizes := by
      rw [assembled.witnessLayout, assembled.memoryLayout, assembled.setupLayout]
      exact sizes }

theorem runs_of_runCompilation {output : CircuitOutput}
    {steps : Compiling CompiledCircuitArtifact} {circuit : CompiledCircuitArtifact}
    (compiles : runCompilation output steps = some circuit) :
    ∃ placement placement', Runs steps placement circuit placement' := by
  obtain ⟨⟨_, placement'⟩, runs, rfl⟩ := Option.map_eq_some_iff.mp compiles
  exact ⟨_, placement', runs⟩

/-- The main circuit. -/
theorem compiled_of_compileOutputForChunkedMemoryArgument {output : CircuitOutput}
    {traceLenLog2 : Nat} {circuit : CompiledCircuitArtifact}
    (compiles : compileOutputForChunkedMemoryArgument output traceLenLog2 = some circuit) :
    circuit.WellSized 1 false ∧ circuit.memoryLayout.delegationProcessorLayout = none ∧
      circuit.memoryLayout.registerAndIndirectAccesses = [] := by
  obtain ⟨traceLen, _, compiles⟩ := Option.bind_eq_some_iff.mp compiles
  obtain ⟨_, _, runs⟩ := runs_of_runCompilation compiles
  obtain ⟨_, _, _, runs⟩ := runs_bind runs
  obtain ⟨setupLayout, _, laidOut, runs⟩ := runs_bind runs
  obtain ⟨_, _, _, runs⟩ := runs_bind runs
  dsimp only at runs
  rw [if_neg Bool.false_ne_true] at runs
  obtain ⟨memory, _, memoryRuns, runs⟩ := runs_bind runs
  obtain ⟨witness, _, witnessRuns, runs⟩ := runs_bind runs
  obtain ⟨⟨stateLinkage, publicInputs⟩, _, _, runs⟩ := runs_bind runs
  obtain ⟨_, _, _, runs⟩ := runs_bind runs
  obtain ⟨_, _, _, runs⟩ := runs_bind runs
  obtain ⟨_, _, _, runs⟩ := runs_bind runs
  have assembled := assembled_of_assembleArtifact runs
  obtain ⟨power, tuples⟩ := setup_of_layoutForLookupSize (runs_lift laidOut).1
  obtain ⟨memoryShape, noProcessor, noAccesses⟩ := shape_of_compileChunkedMemory memoryRuns
  have witnessShape := shape_of_compileInnerWitness witnessRuns
  rw [← tuples] at witnessShape
  refine ⟨wellSized_of_assembled assembled power witnessShape memoryShape, ?_, ?_⟩
  · rw [assembled.memoryLayout, noProcessor]
  · rw [assembled.memoryLayout, noAccesses]

/-- A delegation circuit. -/
theorem compiled_of_compileToEvaluateDelegations {output : CircuitOutput}
    {traceLenLog2 : Nat} {circuit : CompiledCircuitArtifact}
    (compiles : compileToEvaluateDelegations output traceLenLog2 = some circuit) :
    circuit.WellSized 0 false ∧ circuit.memoryLayout.shuffleRamAccessSets = [] ∧
      circuit.memoryLayout.delegationRequestLayout = none ∧
      output.registerAndIndirectMemoryAccesses ≠ [] ∧
      circuit.memoryLayout.registerAndIndirectAccesses.map
          (fun access => access.indirectAccesses.map IndirectAccessColumns.hasCarry) =
        output.registerAndIndirectMemoryAccesses.map
          fun access => access.indirectAccesses.map IndirectAccessType.derivesCarry := by
  obtain ⟨traceLen, _, compiles⟩ := Option.bind_eq_some_iff.mp compiles
  obtain ⟨_, _, runs⟩ := runs_of_runCompilation compiles
  obtain ⟨_, _, suits, runs⟩ := runs_bind runs
  obtain ⟨setupLayout, _, laidOut, runs⟩ := runs_bind runs
  obtain ⟨_, _, _, runs⟩ := runs_bind runs
  dsimp only at runs
  rw [if_pos rfl] at runs
  obtain ⟨memory, _, memoryRuns, runs⟩ := runs_bind runs
  obtain ⟨witness, _, witnessRuns, runs⟩ := runs_bind runs
  obtain ⟨⟨stateLinkage, publicInputs⟩, _, _, runs⟩ := runs_bind runs
  obtain ⟨_, _, _, runs⟩ := runs_bind runs
  obtain ⟨_, _, _, runs⟩ := runs_bind runs
  obtain ⟨_, _, _, runs⟩ := runs_bind runs
  have assembled := assembled_of_assembleArtifact runs
  obtain ⟨power, tuples⟩ := setup_of_layoutForLookupSize (runs_lift laidOut).1
  obtain ⟨memoryShape, noQueries, noRequest, carries⟩ :=
    shape_of_compileDelegationMemory memoryRuns
  have witnessShape := shape_of_compileInnerWitness witnessRuns
  rw [← tuples] at witnessShape
  refine ⟨wellSized_of_assembled assembled power witnessShape memoryShape, ?_, ?_, ?_, ?_⟩
  · rw [assembled.memoryLayout, noQueries]
  · rw [assembled.memoryLayout, noRequest]
  · have demanded := (runs_require suits).1
    simp only [suitsCompileInner, if_true, Bool.and_eq_true, decide_eq_true_eq] at demanded
    exact List.ne_nil_of_length_pos demanded.2.1.2
  · rw [assembled.memoryLayout, carries]

/-- The circuit of lazy initial values. -/
theorem compiled_of_compileInitAndTeardownCircuit {numSets traceLenLog2 : Nat}
    {circuit : CompiledCircuitArtifact}
    (compiles : compileInitAndTeardownCircuit numSets traceLenLog2 = some circuit) :
    circuit.WellSized numSets false ∧ circuit.memoryLayout.delegationProcessorLayout = none ∧
      circuit.memoryLayout.shuffleRamAccessSets = [] ∧
      circuit.memoryLayout.registerAndIndirectAccesses = [] := by
  obtain ⟨traceLen, _, compiles⟩ := Option.bind_eq_some_iff.mp compiles
  obtain ⟨⟨_, placement'⟩, runs, rfl⟩ := Option.map_eq_some_iff.mp compiles
  obtain ⟨setupLayout, _, laidOut, runs⟩ := runs_bind runs
  obtain ⟨⟨inits, auxSet⟩, _, initRuns, runs⟩ := runs_bind runs
  obtain ⟨_, _, _, runs⟩ := runs_bind runs
  obtain ⟨rangeCheck16, _, _, runs⟩ := runs_bind runs
  obtain ⟨⟨columns8, columns16, expressions⟩, _, _, runs⟩ := runs_bind runs
  obtain ⟨⟨booleans, booleanConstraints⟩, _, booleanRuns, runs⟩ := runs_bind runs
  obtain ⟨⟨scratch, quadratic, linear⟩, _, scratchRuns, runs⟩ := runs_bind runs
  obtain ⟨final, _, _, runs⟩ := runs_bind runs
  have assembled := assembled_of_assembleArtifact runs
  obtain ⟨power, tuples⟩ := setup_of_layoutForLookupSize (runs_lift laidOut).1
  obtain ⟨numInits, numAuxVars⟩ := lengths_of_compileInitsAndTeardowns initRuns
  have noTuples : setupLayout.genericLookupSetupColumns.numElements = 0 := by
    rw [tuples, numRequiredSetupTuples, Nat.zero_mod, if_neg (not_not.mpr rfl), Nat.zero_div]
  refine ⟨wellSized_of_assembled assembled power ?_ ⟨numInits, numAuxVars, rfl⟩, ?_, ?_, ?_⟩
  · exact {
      booleans := (length_of_placeBooleanVars booleanRuns).trans_le
        (length_le_of_layoutScratchSpace scratchRuns)
      genericMultiplicities := noTuples.symm
      decoderMultiplicities := rfl }
  · rw [assembled.memoryLayout]
  · rw [assembled.memoryLayout]
  · rw [assembled.memoryLayout]

/-- A family of opcodes with preprocessed bytecode. -/
theorem compiled_of_compileExecutorCircuit {output : CircuitOutput} {numSets traceLenLog2 : Nat}
    {circuit : CompiledCircuitArtifact}
    (compiles : compileExecutorCircuitAssumingPreprocessedBytecodeWithInitsAndTeardowns output
      numSets traceLenLog2 = some circuit) :
    circuit.WellSized numSets true ∧ circuit.memoryLayout.delegationProcessorLayout = none ∧
      circuit.memoryLayout.registerAndIndirectAccesses = [] := by
  obtain ⟨traceLen, _, compiles⟩ := Option.bind_eq_some_iff.mp compiles
  obtain ⟨_, _, runs⟩ := runs_of_runCompilation compiles
  obtain ⟨_, _, _, runs⟩ := runs_bind runs
  obtain ⟨state, _, _, runs⟩ := runs_bind runs
  obtain ⟨setupLayout, _, laidOut, runs⟩ := runs_bind runs
  obtain ⟨_, _, _, runs⟩ := runs_bind runs
  obtain ⟨⟨memory, timestampConstraints, cycleTimestamp⟩, _, memoryRuns, runs⟩ :=
    runs_bind runs
  obtain ⟨witness, _, witnessRuns, runs⟩ := runs_bind runs
  obtain ⟨_, _, _, runs⟩ := runs_bind runs
  have assembled := assembled_of_assembleArtifact runs
  obtain ⟨power, tuples⟩ := setup_of_layoutForLookupSize (runs_lift laidOut).1
  obtain ⟨memoryShape, noProcessor, noAccesses⟩ := shape_of_compileExecutorMemory memoryRuns
  have witnessShape := shape_of_compileExecutorWitness witnessRuns
  rw [← tuples] at witnessShape
  refine ⟨wellSized_of_assembled assembled power witnessShape memoryShape, ?_, ?_⟩
  · rw [assembled.memoryLayout, noProcessor]
  · rw [assembled.memoryLayout, noAccesses]

/-- A decoder circuit has no multiplicities of the 16-bit range check. -/
theorem noRangeCheck16_of_compileDecoderCircuit {output : CircuitOutput} {traceLenLog2 : Nat}
    {circuit : CompiledCircuitArtifact}
    (compiles : compileDecoderCircuit output traceLenLog2 = some circuit) :
    circuit.witnessLayout.multiplicitiesColumnsForRangeCheck16.numElements = 0 := by
  obtain ⟨traceLen, _, compiles⟩ := Option.bind_eq_some_iff.mp compiles
  obtain ⟨_, _, runs⟩ := runs_of_runCompilation compiles
  obtain ⟨_, _, _, runs⟩ := runs_bind runs
  obtain ⟨state, _, _, runs⟩ := runs_bind runs
  obtain ⟨setupLayout, _, _, runs⟩ := runs_bind runs
  obtain ⟨⟨machineState, executorState⟩, _, _, runs⟩ := runs_bind runs
  obtain ⟨_, _, _, runs⟩ := runs_bind runs
  obtain ⟨generic, _, _, runs⟩ := runs_bind runs
  obtain ⟨constraints, _, _, runs⟩ := runs_bind runs
  obtain ⟨⟨booleans, booleanConstraints⟩, _, _, runs⟩ := runs_bind runs
  obtain ⟨width3Lookups, _, _, runs⟩ := runs_bind runs
  obtain ⟨circuitFamily, _, _, runs⟩ := runs_bind runs
  obtain ⟨_, _, _, runs⟩ := runs_bind runs
  obtain ⟨⟨optimizedOut, constraintsLeft⟩, _, _, runs⟩ := runs_bind runs
  obtain ⟨⟨scratch, quadratic, linear⟩, _, _, runs⟩ := runs_bind runs
  obtain ⟨final, _, _, runs⟩ := runs_bind runs
  obtain ⟨_, _, _, runs⟩ := runs_bind runs
  rw [(assembled_of_assembleArtifact runs).witnessLayout]
  rfl

end Airbender.Compiler
