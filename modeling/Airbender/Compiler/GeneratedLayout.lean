import Airbender.Compiler.ToTokens
import Airbender.Field.TwoAdic

/-!
# The generated layout

The generator turns a compiled circuit into five constants.  The last one is the circuit as
the verifier knows it.  Its denotation is compared with the value that the compiler itself
hands to a verifier, field by field; field elements are compared as the source compares them,
by their reduced values.
-/

namespace Airbender.Compiler

open ConstantExpression
open Mersenne31 (Element)

/-! ## The circuit of the compiler and the circuit of the verifier -/

/-- The data of a compiled circuit that a verifier needs. -/
structure CompiledCircuitArtifact where
  witnessLayout : WitnessSubtree
  memoryLayout : MemorySubtree
  setupLayout : SetupLayout
  stage2Layout : LookupAndMemoryArgumentLayout
  degree2Constraints : List CompiledDegree2Constraint
  degree1Constraints : List CompiledDegree1Constraint
  stateLinkageConstraints : List (ColumnAddress × ColumnAddress)
  publicInputs : List (BoundaryConstraintLocation × ColumnAddress)
  lazyInitAddressAuxVars : List ShuffleRamAuxComparisonSet
  traceLen : Nat
deriving DecidableEq

structure CompiledWitnessSubtree where
  multiplicitiesColumnsForRangeCheck16 : ColumnSet 1
  multiplicitiesColumnsForTimestampRangeCheck : ColumnSet 1
  multiplicitiesColumnsForDecoderInExecutorFamilies : ColumnSet 1
  multiplicitiesColumnsForGenericLookup : ColumnSet 1
  rangeCheck16Columns : ColumnSet 1
  width3Lookups : List LookupSetDescription
  rangeCheck16LookupExpressions : List LookupExpression
  timestampRangeCheckLookupExpressions : List LookupExpression
  offsetForSpecialShuffleRamTimestampsRangeCheckExpressions : Nat
  booleanVarsColumnsRange : ColumnSet 1
  scratchSpaceColumnsRange : ColumnSet 1
  totalWidth : Nat
deriving DecidableEq

/-- The borrowed forms of the constraints, lookups and memory layouts have the same fields as
the owned ones. -/
structure VerifierCompiledCircuitArtifact where
  witnessLayout : CompiledWitnessSubtree
  memoryLayout : MemorySubtree
  setupLayout : SetupLayout
  stage2Layout : LookupAndMemoryArgumentLayout
  degree2Constraints : List CompiledDegree2Constraint
  degree1Constraints : List CompiledDegree1Constraint
  stateLinkageConstraints : List (ColumnAddress × ColumnAddress)
  publicInputs : List (BoundaryConstraintLocation × ColumnAddress)
  lazyInitAddressAuxVars : List ShuffleRamAuxComparisonSet
  traceLenLog2 : Nat
deriving DecidableEq

def WitnessSubtree.asCompiled (self : WitnessSubtree) : CompiledWitnessSubtree where
  multiplicitiesColumnsForRangeCheck16 := self.multiplicitiesColumnsForRangeCheck16
  multiplicitiesColumnsForTimestampRangeCheck :=
    self.multiplicitiesColumnsForTimestampRangeCheck
  multiplicitiesColumnsForDecoderInExecutorFamilies :=
    self.multiplicitiesColumnsForDecoderInExecutorFamilies
  multiplicitiesColumnsForGenericLookup := self.multiplicitiesColumnsForGenericLookup
  rangeCheck16Columns := self.rangeCheck16Columns
  width3Lookups := self.width3Lookups
  rangeCheck16LookupExpressions := self.rangeCheck16LookupExpressions
  timestampRangeCheckLookupExpressions := self.timestampRangeCheckLookupExpressions
  offsetForSpecialShuffleRamTimestampsRangeCheckExpressions :=
    self.offsetForSpecialShuffleRamTimestampsRangeCheckExpressions
  booleanVarsColumnsRange := self.booleanVarsColumnsRange
  scratchSpaceColumnsRange := self.scratchSpaceColumnsRange
  totalWidth := self.totalWidth

/-- The buffers that the source fills hold copies of the borrowed parts. -/
def CompiledCircuitArtifact.asVerifierCompiledArtifact (self : CompiledCircuitArtifact) :
    Option VerifierCompiledCircuitArtifact := do
  guard (Usize.isPowerOfTwo self.traceLen)
  some {
    witnessLayout := self.witnessLayout.asCompiled
    memoryLayout := self.memoryLayout
    setupLayout := self.setupLayout
    stage2Layout := self.stage2Layout
    degree2Constraints := self.degree2Constraints
    degree1Constraints := self.degree1Constraints
    stateLinkageConstraints := self.stateLinkageConstraints
    publicInputs := self.publicInputs
    lazyInitAddressAuxVars := self.lazyInitAddressAuxVars
    traceLenLog2 := self.traceLen.log2 }

/-! ## Equality of field elements -/

namespace CompiledDegree1Constraint

def reduceCoefficients (self : CompiledDegree1Constraint) : CompiledDegree1Constraint :=
  ⟨self.linearTerms.map fun term => (reduced term.1, term.2), reduced self.constantTerm⟩

end CompiledDegree1Constraint

def CompiledDegree2Constraint.reduceCoefficients (self : CompiledDegree2Constraint) :
    CompiledDegree2Constraint :=
  ⟨self.quadraticTerms.map fun term => (reduced term.1, term.2),
    self.linearTerms.map fun term => (reduced term.1, term.2), reduced self.constantTerm⟩

def LookupExpression.reduceCoefficients : LookupExpression → LookupExpression
  | .variable place => .variable place
  | .expression constraint => .expression constraint.reduceCoefficients

def LookupSetDescription.reduceCoefficients (self : LookupSetDescription) :
    LookupSetDescription :=
  ⟨(self.inputColumns.1.reduceCoefficients, self.inputColumns.2.1.reduceCoefficients,
    self.inputColumns.2.2.reduceCoefficients), self.tableIndex⟩

def CompiledWitnessSubtree.reduceCoefficients (self : CompiledWitnessSubtree) :
    CompiledWitnessSubtree :=
  { self with
    width3Lookups := self.width3Lookups.map LookupSetDescription.reduceCoefficients
    rangeCheck16LookupExpressions :=
      self.rangeCheck16LookupExpressions.map LookupExpression.reduceCoefficients
    timestampRangeCheckLookupExpressions :=
      self.timestampRangeCheckLookupExpressions.map LookupExpression.reduceCoefficients }

def VerifierCompiledCircuitArtifact.reduceCoefficients (self : VerifierCompiledCircuitArtifact) :
    VerifierCompiledCircuitArtifact :=
  { self with
    witnessLayout := self.witnessLayout.reduceCoefficients
    degree2Constraints :=
      self.degree2Constraints.map CompiledDegree2Constraint.reduceCoefficients
    degree1Constraints :=
      self.degree1Constraints.map CompiledDegree1Constraint.reduceCoefficients }

/-- Two circuits agree in every field, field elements by `PartialEq`. -/
def VerifierCompiledCircuitArtifact.SameFields (a b : VerifierCompiledCircuitArtifact) : Prop :=
  a.reduceCoefficients = b.reduceCoefficients

/-! ## Constraints and lookups -/

/-- `(Mersenne31Field(#coeff), #a)`. -/
def linearTermToTokens (term : Element × ColumnAddress) : RustExpression :=
  .tuple [elementToTokens term.1, term.2.toTokens]

/-- `(Mersenne31Field(#coeff), #a, #b)`. -/
def quadraticTermToTokens (term : Element × ColumnAddress × ColumnAddress) : RustExpression :=
  .tuple [elementToTokens term.1, term.2.1.toTokens, term.2.2.toTokens]

def denoteLinearTerm : RustExpression → Option (Element × ColumnAddress) :=
  Expression.asPair denoteElement ColumnAddress.denote

def denoteQuadraticTerm : RustExpression → Option (Element × ColumnAddress × ColumnAddress) :=
  Expression.asTriple denoteElement ColumnAddress.denote ColumnAddress.denote

theorem denoteLinearTerm_toTokens (term : Element × ColumnAddress) :
    denoteLinearTerm (linearTermToTokens term) = some (reduced term.1, term.2) := by
  simp [denoteLinearTerm, linearTermToTokens, denoteElement_toTokens]

theorem denoteQuadraticTerm_toTokens (term : Element × ColumnAddress × ColumnAddress) :
    denoteQuadraticTerm (quadraticTermToTokens term) = some (reduced term.1, term.2) := by
  simp [denoteQuadraticTerm, quadraticTermToTokens, denoteElement_toTokens]

def transformDegree1Constraint (constraint : CompiledDegree1Constraint) : RustExpression :=
  .record .staticVerifierCompiledDegree1Constraint [
    (.linearTerms, .slice (constraint.linearTerms.map linearTermToTokens)),
    (.constantTerm, elementToTokens constraint.constantTerm)]

def CompiledDegree1Constraint.denote (expression : RustExpression) :
    Option CompiledDegree1Constraint := do
  let fields ← expression.asRecord .staticVerifierCompiledDegree1Constraint
    [.linearTerms, .constantTerm]
  let linearTerms ← readField fields .linearTerms (Expression.asSlice denoteLinearTerm)
  let constantTerm ← readField fields .constantTerm denoteElement
  some ⟨linearTerms, constantTerm⟩

theorem CompiledDegree1Constraint.denote_transform (constraint : CompiledDegree1Constraint) :
    CompiledDegree1Constraint.denote (transformDegree1Constraint constraint) =
      some constraint.reduceCoefficients := by
  simp [denote, transformDegree1Constraint, asSlice_map denoteLinearTerm_toTokens,
    denoteElement_toTokens, reduceCoefficients]

def transformDegree2Constraint (constraint : CompiledDegree2Constraint) : RustExpression :=
  .record .staticVerifierCompiledDegree2Constraint [
    (.quadraticTerms, .slice (constraint.quadraticTerms.map quadraticTermToTokens)),
    (.linearTerms, .slice (constraint.linearTerms.map linearTermToTokens)),
    (.constantTerm, elementToTokens constraint.constantTerm)]

def CompiledDegree2Constraint.denote (expression : RustExpression) :
    Option CompiledDegree2Constraint := do
  let fields ← expression.asRecord .staticVerifierCompiledDegree2Constraint
    [.quadraticTerms, .linearTerms, .constantTerm]
  let quadraticTerms ← readField fields .quadraticTerms (Expression.asSlice denoteQuadraticTerm)
  let linearTerms ← readField fields .linearTerms (Expression.asSlice denoteLinearTerm)
  let constantTerm ← readField fields .constantTerm denoteElement
  some ⟨quadraticTerms, linearTerms, constantTerm⟩

theorem CompiledDegree2Constraint.denote_transform (constraint : CompiledDegree2Constraint) :
    CompiledDegree2Constraint.denote (transformDegree2Constraint constraint) =
      some constraint.reduceCoefficients := by
  simp [denote, transformDegree2Constraint, asSlice_map denoteLinearTerm_toTokens,
    asSlice_map denoteQuadraticTerm_toTokens, denoteElement_toTokens, reduceCoefficients]

def transformLookupExpression : LookupExpression → RustExpression
  | .variable place => .call .verifierCompiledLookupExpressionVariable place.toTokens
  | .expression constraint =>
      .call .verifierCompiledLookupExpressionExpression (transformDegree1Constraint constraint)

def LookupExpression.denote : RustExpression → Option LookupExpression
  | .call .verifierCompiledLookupExpressionVariable place =>
      (ColumnAddress.denote place).map .variable
  | .call .verifierCompiledLookupExpressionExpression constraint =>
      (CompiledDegree1Constraint.denote constraint).map .expression
  | _ => none

theorem LookupExpression.denote_transform (expression : LookupExpression) :
    LookupExpression.denote (transformLookupExpression expression) =
      some expression.reduceCoefficients := by
  rcases expression with place | constraint
  · rw [transformLookupExpression, denote, ColumnAddress.denote_toTokens]
    rfl
  · rw [transformLookupExpression, denote, CompiledDegree1Constraint.denote_transform]
    rfl

/-- Stops when the table has no rendering. -/
def transformLookupSetDescription (description : LookupSetDescription) :
    Option RustExpression := do
  let tableIndex ← description.tableIndex.toTokens
  some (.record .verifierCompiledLookupSetDescription [
    (.inputColumns, .array [
      transformLookupExpression description.inputColumns.1,
      transformLookupExpression description.inputColumns.2.1,
      transformLookupExpression description.inputColumns.2.2]),
    (.tableIndex, tableIndex)])

/-- A constant of type `[VerifierCompiledLookupExpression; 3]`. -/
def denoteInputColumns (expression : RustExpression) :
    Option (LookupExpression × LookupExpression × LookupExpression) :=
  match expression.asArray LookupExpression.denote with
  | some [first, second, third] => some (first, second, third)
  | _ => none

def LookupSetDescription.denote (expression : RustExpression) :
    Option LookupSetDescription := do
  let fields ← expression.asRecord .verifierCompiledLookupSetDescription
    [.inputColumns, .tableIndex]
  let inputColumns ← readField fields .inputColumns denoteInputColumns
  let tableIndex ← readField fields .tableIndex TableIndex.denote
  some ⟨inputColumns, tableIndex⟩

theorem LookupSetDescription.denote_of_transform {description : LookupSetDescription}
    {expression : RustExpression}
    (renders : transformLookupSetDescription description = some expression) :
    LookupSetDescription.denote expression = some description.reduceCoefficients := by
  obtain ⟨tableIndex, indexRenders, same⟩ := Option.bind_eq_some_iff.mp renders
  cases same
  simp [denote, denoteInputColumns, Expression.asArray, LookupExpression.denote_transform,
    TableIndex.denote_of_toTokens indexRenders, reduceCoefficients]

/-! ## The four layouts -/

/-- The column of `range_check_8_columns` is not written. -/
def transformWitnessLayout (witnessLayout : WitnessSubtree) : Option RustExpression := do
  let width3Lookups ← witnessLayout.width3Lookups.mapM transformLookupSetDescription
  some (.record .compiledWitnessSubtree [
    (.multiplicitiesColumnsForRangeCheck16,
      witnessLayout.multiplicitiesColumnsForRangeCheck16.toTokens),
    (.multiplicitiesColumnsForTimestampRangeCheck,
      witnessLayout.multiplicitiesColumnsForTimestampRangeCheck.toTokens),
    (.multiplicitiesColumnsForDecoderInExecutorFamilies,
      witnessLayout.multiplicitiesColumnsForDecoderInExecutorFamilies.toTokens),
    (.multiplicitiesColumnsForGenericLookup,
      witnessLayout.multiplicitiesColumnsForGenericLookup.toTokens),
    (.rangeCheck16Columns, witnessLayout.rangeCheck16Columns.toTokens),
    (.width3Lookups, .slice width3Lookups),
    (.rangeCheck16LookupExpressions,
      .slice (witnessLayout.rangeCheck16LookupExpressions.map transformLookupExpression)),
    (.timestampRangeCheckLookupExpressions,
      .slice (witnessLayout.timestampRangeCheckLookupExpressions.map transformLookupExpression)),
    (.offsetForSpecialShuffleRamTimestampsRangeCheckExpressions,
      .usize witnessLayout.offsetForSpecialShuffleRamTimestampsRangeCheckExpressions),
    (.booleanVarsColumnsRange, witnessLayout.booleanVarsColumnsRange.toTokens),
    (.scratchSpaceColumnsRange, witnessLayout.scratchSpaceColumnsRange.toTokens),
    (.totalWidth, .usize witnessLayout.totalWidth)])

def CompiledWitnessSubtree.denote (expression : RustExpression) :
    Option CompiledWitnessSubtree := do
  let fields ← expression.asRecord .compiledWitnessSubtree
    [.multiplicitiesColumnsForRangeCheck16, .multiplicitiesColumnsForTimestampRangeCheck,
      .multiplicitiesColumnsForDecoderInExecutorFamilies,
      .multiplicitiesColumnsForGenericLookup, .rangeCheck16Columns, .width3Lookups,
      .rangeCheck16LookupExpressions, .timestampRangeCheckLookupExpressions,
      .offsetForSpecialShuffleRamTimestampsRangeCheckExpressions, .booleanVarsColumnsRange,
      .scratchSpaceColumnsRange, .totalWidth]
  let rangeCheck16 ←
    readField fields .multiplicitiesColumnsForRangeCheck16 (ColumnSet.denote 1)
  let timestampRangeCheck ←
    readField fields .multiplicitiesColumnsForTimestampRangeCheck (ColumnSet.denote 1)
  let decoder ←
    readField fields .multiplicitiesColumnsForDecoderInExecutorFamilies (ColumnSet.denote 1)
  let genericLookup ←
    readField fields .multiplicitiesColumnsForGenericLookup (ColumnSet.denote 1)
  let rangeCheck16Columns ← readField fields .rangeCheck16Columns (ColumnSet.denote 1)
  let width3Lookups ←
    readField fields .width3Lookups (Expression.asSlice LookupSetDescription.denote)
  let rangeCheck16LookupExpressions ←
    readField fields .rangeCheck16LookupExpressions (Expression.asSlice LookupExpression.denote)
  let timestampRangeCheckLookupExpressions ←
    readField fields .timestampRangeCheckLookupExpressions
      (Expression.asSlice LookupExpression.denote)
  let offsetForSpecial ←
    readField fields .offsetForSpecialShuffleRamTimestampsRangeCheckExpressions
      Expression.asUsize
  let booleanVarsColumnsRange ← readField fields .booleanVarsColumnsRange (ColumnSet.denote 1)
  let scratchSpaceColumnsRange ← readField fields .scratchSpaceColumnsRange (ColumnSet.denote 1)
  let totalWidth ← readField fields .totalWidth Expression.asUsize
  some ⟨rangeCheck16, timestampRangeCheck, decoder, genericLookup, rangeCheck16Columns,
    width3Lookups, rangeCheck16LookupExpressions, timestampRangeCheckLookupExpressions,
    offsetForSpecial, booleanVarsColumnsRange, scratchSpaceColumnsRange, totalWidth⟩

theorem CompiledWitnessSubtree.denote_of_transform {witnessLayout : WitnessSubtree}
    {expression : RustExpression}
    (renders : transformWitnessLayout witnessLayout = some expression) :
    CompiledWitnessSubtree.denote expression =
      some witnessLayout.asCompiled.reduceCoefficients := by
  obtain ⟨lookups, lookupsRender, same⟩ := Option.bind_eq_some_iff.mp renders
  cases same
  have lookupsRead := mapM_of_written
    (fun _ _ => LookupSetDescription.denote_of_transform) lookupsRender
  have expressionsRead := asSlice_map LookupExpression.denote_transform
  unfold denote
  refine read_step _ (asRecord_record rfl) ?_
  refine read_step witnessLayout.multiplicitiesColumnsForRangeCheck16 (by simp) ?_
  refine read_step witnessLayout.multiplicitiesColumnsForTimestampRangeCheck (by simp) ?_
  refine read_step witnessLayout.multiplicitiesColumnsForDecoderInExecutorFamilies (by simp) ?_
  refine read_step witnessLayout.multiplicitiesColumnsForGenericLookup (by simp) ?_
  refine read_step witnessLayout.rangeCheck16Columns (by simp) ?_
  refine read_step _ lookupsRead ?_
  refine read_step _ (expressionsRead witnessLayout.rangeCheck16LookupExpressions) ?_
  refine read_step _ (expressionsRead witnessLayout.timestampRangeCheckLookupExpressions) ?_
  refine read_step
    witnessLayout.offsetForSpecialShuffleRamTimestampsRangeCheckExpressions (by simp) ?_
  refine read_step witnessLayout.booleanVarsColumnsRange (by simp) ?_
  refine read_step witnessLayout.scratchSpaceColumnsRange (by simp) ?_
  refine read_step witnessLayout.totalWidth (by simp) ?_
  rfl

def transformMemoryLayout (memoryLayout : MemorySubtree) : RustExpression :=
  .record .compiledMemorySubtree [
    (.shuffleRamInitsAndTeardowns, .slice (memoryLayout.shuffleRamInitsAndTeardowns.map
      ShuffleRamInitAndTeardownLayout.toTokens)),
    (.delegationRequestLayout,
      transformOption DelegationRequestLayout.toTokens memoryLayout.delegationRequestLayout),
    (.delegationProcessorLayout,
      transformOption DelegationProcessingLayout.toTokens
        memoryLayout.delegationProcessorLayout),
    (.shuffleRamAccessSets,
      .slice (memoryLayout.shuffleRamAccessSets.map ShuffleRamQueryColumns.toTokens)),
    (.machineStateLayout,
      transformOption MachineStatePermutationVariables.toTokens
        memoryLayout.machineStateLayout),
    (.intermediateStateLayout,
      transformOption IntermediateStatePermutationVariables.toTokens
        memoryLayout.intermediateStateLayout),
    (.batchedRamAccesses,
      .slice (memoryLayout.batchedRamAccesses.map BatchedRamAccessColumns.toTokens)),
    (.registerAndIndirectAccesses, .slice (memoryLayout.registerAndIndirectAccesses.map
      RegisterAndIndirectAccessDescription.toTokens)),
    (.totalWidth, .usize memoryLayout.totalWidth)]

def MemorySubtree.denote (expression : RustExpression) : Option MemorySubtree := do
  let fields ← expression.asRecord .compiledMemorySubtree
    [.shuffleRamInitsAndTeardowns, .delegationRequestLayout, .delegationProcessorLayout,
      .shuffleRamAccessSets, .machineStateLayout, .intermediateStateLayout,
      .batchedRamAccesses, .registerAndIndirectAccesses, .totalWidth]
  let shuffleRamInitsAndTeardowns ← readField fields .shuffleRamInitsAndTeardowns
    (Expression.asSlice ShuffleRamInitAndTeardownLayout.denote)
  let shuffleRamAccessSets ← readField fields .shuffleRamAccessSets
    (Expression.asSlice ShuffleRamQueryColumns.denote)
  let delegationRequestLayout ← readField fields .delegationRequestLayout
    (denoteOption DelegationRequestLayout.denote)
  let delegationProcessorLayout ← readField fields .delegationProcessorLayout
    (denoteOption DelegationProcessingLayout.denote)
  let machineStateLayout ← readField fields .machineStateLayout
    (denoteOption MachineStatePermutationVariables.denote)
  let intermediateStateLayout ← readField fields .intermediateStateLayout
    (denoteOption IntermediateStatePermutationVariables.denote)
  let batchedRamAccesses ← readField fields .batchedRamAccesses
    (Expression.asSlice BatchedRamAccessColumns.denote)
  let registerAndIndirectAccesses ← readField fields .registerAndIndirectAccesses
    (Expression.asSlice RegisterAndIndirectAccessDescription.denote)
  let totalWidth ← readField fields .totalWidth Expression.asUsize
  some ⟨shuffleRamInitsAndTeardowns, shuffleRamAccessSets, delegationRequestLayout,
    delegationProcessorLayout, machineStateLayout, intermediateStateLayout,
    batchedRamAccesses, registerAndIndirectAccesses, totalWidth⟩

theorem MemorySubtree.denote_transform (memoryLayout : MemorySubtree) :
    MemorySubtree.denote (transformMemoryLayout memoryLayout) = some memoryLayout := by
  unfold denote transformMemoryLayout
  refine read_step _ (asRecord_record rfl) ?_
  refine read_step _ (asSlice_map_self ShuffleRamInitAndTeardownLayout.denote_toTokens _) ?_
  refine read_step _ (asSlice_map_self ShuffleRamQueryColumns.denote_toTokens _) ?_
  refine read_step _
    (denoteOption_transformOption DelegationRequestLayout.denote_toTokens _) ?_
  refine read_step _
    (denoteOption_transformOption DelegationProcessingLayout.denote_toTokens _) ?_
  refine read_step _
    (denoteOption_transformOption MachineStatePermutationVariables.denote_toTokens _) ?_
  refine read_step _
    (denoteOption_transformOption IntermediateStatePermutationVariables.denote_toTokens _) ?_
  refine read_step _ (asSlice_map_self BatchedRamAccessColumns.denote_toTokens _) ?_
  refine read_step _
    (asSlice_map_self RegisterAndIndirectAccessDescription.denote_toTokens _) ?_
  refine read_step memoryLayout.totalWidth (by simp) ?_
  rfl

def transformSetupLayout (setupLayout : SetupLayout) : RustExpression :=
  .record .setupLayout [
    (.timestampSetupColumns, setupLayout.timestampSetupColumns.toTokens),
    (.timestampRangeCheckSetupColumn, setupLayout.timestampRangeCheckSetupColumn.toTokens),
    (.rangeCheck16SetupColumn, setupLayout.rangeCheck16SetupColumn.toTokens),
    (.genericLookupSetupColumns, setupLayout.genericLookupSetupColumns.toTokens),
    (.preprocessedDecoderSetupColumns, setupLayout.preprocessedDecoderSetupColumns.toTokens),
    (.totalWidth, .usize setupLayout.totalWidth)]

def SetupLayout.denote (expression : RustExpression) : Option SetupLayout := do
  let fields ← expression.asRecord .setupLayout
    [.timestampSetupColumns, .timestampRangeCheckSetupColumn, .rangeCheck16SetupColumn,
      .genericLookupSetupColumns, .preprocessedDecoderSetupColumns, .totalWidth]
  let timestampSetupColumns ← readField fields .timestampSetupColumns (ColumnSet.denote 2)
  let rangeCheck16SetupColumn ← readField fields .rangeCheck16SetupColumn (ColumnSet.denote 1)
  let timestampRangeCheckSetupColumn ←
    readField fields .timestampRangeCheckSetupColumn (ColumnSet.denote 1)
  let genericLookupSetupColumns ←
    readField fields .genericLookupSetupColumns (ColumnSet.denote 4)
  let preprocessedDecoderSetupColumns ←
    readField fields .preprocessedDecoderSetupColumns
      (ColumnSet.denote executorFamilyCircuitDecoderTableWidth)
  let totalWidth ← readField fields .totalWidth Expression.asUsize
  some ⟨timestampSetupColumns, rangeCheck16SetupColumn, timestampRangeCheckSetupColumn,
    genericLookupSetupColumns, preprocessedDecoderSetupColumns, totalWidth⟩

theorem SetupLayout.denote_transform (setupLayout : SetupLayout) :
    SetupLayout.denote (transformSetupLayout setupLayout) = some setupLayout := by
  unfold denote transformSetupLayout
  refine read_step _ (asRecord_record rfl) ?_
  refine read_step _ (ColumnSet.denote_toTokens setupLayout.timestampSetupColumns) ?_
  refine read_step _ (ColumnSet.denote_toTokens setupLayout.rangeCheck16SetupColumn) ?_
  refine read_step _ (ColumnSet.denote_toTokens setupLayout.timestampRangeCheckSetupColumn) ?_
  refine read_step _ (ColumnSet.denote_toTokens setupLayout.genericLookupSetupColumns) ?_
  refine read_step _ (ColumnSet.denote_toTokens setupLayout.preprocessedDecoderSetupColumns) ?_
  refine read_step setupLayout.totalWidth (by simp) ?_
  rfl

def transformStage2Layout (layout : LookupAndMemoryArgumentLayout) : RustExpression :=
  .record .lookupAndMemoryArgumentLayout [
    (.intermediatePolysForRangeCheck16, layout.intermediatePolysForRangeCheck16.toTokens),
    (.remainderForRangeCheck16,
      transformOption AlignedColumnSet.toTokens layout.remainderForRangeCheck16),
    (.lazyInitAddressRangeCheck16,
      transformOption OptimizedOraclesForLookupWidth1.toTokens
        layout.lazyInitAddressRangeCheck16),
    (.intermediatePolysForTimestampRangeChecks,
      layout.intermediatePolysForTimestampRangeChecks.toTokens),
    (.intermediatePolysForGenericLookup, layout.intermediatePolysForGenericLookup.toTokens),
    (.intermediatePolyForDecoderAccesses, layout.intermediatePolyForDecoderAccesses.toTokens),
    (.intermediatePolyForRangeCheck16Multiplicity,
      layout.intermediatePolyForRangeCheck16Multiplicity.toTokens),
    (.intermediatePolyForTimestampRangeCheckMultiplicity,
      layout.intermediatePolyForTimestampRangeCheckMultiplicity.toTokens),
    (.intermediatePolysForGenericMultiplicities,
      layout.intermediatePolysForGenericMultiplicities.toTokens),
    (.intermediatePolysForDecoderMultiplicities,
      layout.intermediatePolysForDecoderMultiplicities.toTokens),
    (.delegationProcessingAuxPoly,
      transformOption AlignedColumnSet.toTokens layout.delegationProcessingAuxPoly),
    (.intermediatePolysForMemoryInitTeardown,
      layout.intermediatePolysForMemoryInitTeardown.toTokens),
    (.intermediatePolysForMemoryArgument, layout.intermediatePolysForMemoryArgument.toTokens),
    (.intermediatePolysForStatePermutation,
      layout.intermediatePolysForStatePermutation.toTokens),
    (.intermediatePolysForPermutationMasking,
      layout.intermediatePolysForPermutationMasking.toTokens),
    (.intermediatePolyForGrandProduct, layout.intermediatePolyForGrandProduct.toTokens),
    (.ext4PolysOffset, .usize layout.ext4PolysOffset),
    (.totalWidth, .usize layout.totalWidth)]

def LookupAndMemoryArgumentLayout.denote (expression : RustExpression) :
    Option LookupAndMemoryArgumentLayout := do
  let fields ← expression.asRecord .lookupAndMemoryArgumentLayout
    [.intermediatePolysForRangeCheck16, .remainderForRangeCheck16, .lazyInitAddressRangeCheck16,
      .intermediatePolysForTimestampRangeChecks, .intermediatePolysForGenericLookup,
      .intermediatePolyForDecoderAccesses, .intermediatePolyForRangeCheck16Multiplicity,
      .intermediatePolyForTimestampRangeCheckMultiplicity,
      .intermediatePolysForGenericMultiplicities, .intermediatePolysForDecoderMultiplicities,
      .delegationProcessingAuxPoly, .intermediatePolysForMemoryInitTeardown,
      .intermediatePolysForMemoryArgument, .intermediatePolysForStatePermutation,
      .intermediatePolysForPermutationMasking, .intermediatePolyForGrandProduct, .ext4PolysOffset,
      .totalWidth]
  let intermediatePolysForRangeCheck16 ←
    readField fields .intermediatePolysForRangeCheck16 OptimizedOraclesForLookupWidth1.denote
  let remainderForRangeCheck16 ←
    readField fields .remainderForRangeCheck16 (denoteOption (AlignedColumnSet.denote 4))
  let lazyInitAddressRangeCheck16 ←
    readField fields .lazyInitAddressRangeCheck16
      (denoteOption OptimizedOraclesForLookupWidth1.denote)
  let intermediatePolysForTimestampRangeChecks ←
    readField fields .intermediatePolysForTimestampRangeChecks
      OptimizedOraclesForLookupWidth1.denote
  let intermediatePolysForGenericLookup ←
    readField fields .intermediatePolysForGenericLookup (AlignedColumnSet.denote 4)
  let intermediatePolyForDecoderAccesses ←
    readField fields .intermediatePolyForDecoderAccesses (AlignedColumnSet.denote 4)
  let intermediatePolyForRangeCheck16Multiplicity ←
    readField fields .intermediatePolyForRangeCheck16Multiplicity (AlignedColumnSet.denote 4)
  let intermediatePolyForTimestampRangeCheckMultiplicity ←
    readField fields .intermediatePolyForTimestampRangeCheckMultiplicity
      (AlignedColumnSet.denote 4)
  let intermediatePolysForGenericMultiplicities ←
    readField fields .intermediatePolysForGenericMultiplicities (AlignedColumnSet.denote 4)
  let intermediatePolysForDecoderMultiplicities ←
    readField fields .intermediatePolysForDecoderMultiplicities (AlignedColumnSet.denote 4)
  let delegationProcessingAuxPoly ←
    readField fields .delegationProcessingAuxPoly (denoteOption (AlignedColumnSet.denote 4))
  let intermediatePolysForMemoryInitTeardown ←
    readField fields .intermediatePolysForMemoryInitTeardown (AlignedColumnSet.denote 4)
  let intermediatePolysForMemoryArgument ←
    readField fields .intermediatePolysForMemoryArgument (AlignedColumnSet.denote 4)
  let intermediatePolysForStatePermutation ←
    readField fields .intermediatePolysForStatePermutation (AlignedColumnSet.denote 4)
  let intermediatePolysForPermutationMasking ←
    readField fields .intermediatePolysForPermutationMasking (AlignedColumnSet.denote 4)
  let intermediatePolyForGrandProduct ←
    readField fields .intermediatePolyForGrandProduct (AlignedColumnSet.denote 4)
  let ext4PolysOffset ← readField fields .ext4PolysOffset Expression.asUsize
  let totalWidth ← readField fields .totalWidth Expression.asUsize
  some ⟨intermediatePolysForRangeCheck16, remainderForRangeCheck16, lazyInitAddressRangeCheck16,
    intermediatePolysForTimestampRangeChecks, intermediatePolysForGenericLookup,
    intermediatePolyForDecoderAccesses, intermediatePolyForRangeCheck16Multiplicity,
    intermediatePolyForTimestampRangeCheckMultiplicity,
    intermediatePolysForGenericMultiplicities, intermediatePolysForDecoderMultiplicities,
    delegationProcessingAuxPoly, intermediatePolysForMemoryInitTeardown,
    intermediatePolysForMemoryArgument, intermediatePolysForStatePermutation,
    intermediatePolysForPermutationMasking, intermediatePolyForGrandProduct, ext4PolysOffset,
    totalWidth⟩

theorem LookupAndMemoryArgumentLayout.denote_transform
    (layout : LookupAndMemoryArgumentLayout) :
    LookupAndMemoryArgumentLayout.denote (transformStage2Layout layout) = some layout := by
  unfold denote transformStage2Layout
  refine read_step _ (asRecord_record rfl) ?_
  refine read_step _ (OptimizedOraclesForLookupWidth1.denote_toTokens _) ?_
  refine read_step _ (denoteOption_transformOption AlignedColumnSet.denote_toTokens _) ?_
  refine read_step _
    (denoteOption_transformOption OptimizedOraclesForLookupWidth1.denote_toTokens _) ?_
  refine read_step _ (OptimizedOraclesForLookupWidth1.denote_toTokens _) ?_
  refine read_step layout.intermediatePolysForGenericLookup (by simp) ?_
  refine read_step layout.intermediatePolyForDecoderAccesses (by simp) ?_
  refine read_step layout.intermediatePolyForRangeCheck16Multiplicity (by simp) ?_
  refine read_step layout.intermediatePolyForTimestampRangeCheckMultiplicity (by simp) ?_
  refine read_step layout.intermediatePolysForGenericMultiplicities (by simp) ?_
  refine read_step layout.intermediatePolysForDecoderMultiplicities (by simp) ?_
  refine read_step _ (denoteOption_transformOption AlignedColumnSet.denote_toTokens _) ?_
  refine read_step layout.intermediatePolysForMemoryInitTeardown (by simp) ?_
  refine read_step layout.intermediatePolysForMemoryArgument (by simp) ?_
  refine read_step layout.intermediatePolysForStatePermutation (by simp) ?_
  refine read_step layout.intermediatePolysForPermutationMasking (by simp) ?_
  refine read_step layout.intermediatePolyForGrandProduct (by simp) ?_
  refine read_step layout.ext4PolysOffset rfl ?_
  refine read_step layout.totalWidth rfl ?_
  rfl

/-! ## The circuit -/

/-- `(#a, #b)` of a linkage constraint. -/
def linkageToTokens (el : ColumnAddress × ColumnAddress) : RustExpression :=
  .tuple [el.1.toTokens, el.2.toTokens]

/-- `(#a, #b)` of a public input. -/
def publicInputToTokens (el : BoundaryConstraintLocation × ColumnAddress) : RustExpression :=
  .tuple [el.1.toTokens, el.2.toTokens]

def denoteLinkage : RustExpression → Option (ColumnAddress × ColumnAddress) :=
  Expression.asPair ColumnAddress.denote ColumnAddress.denote

def denotePublicInput : RustExpression → Option (BoundaryConstraintLocation × ColumnAddress) :=
  Expression.asPair BoundaryConstraintLocation.denote ColumnAddress.denote

theorem denoteLinkage_toTokens (el : ColumnAddress × ColumnAddress) :
    denoteLinkage (linkageToTokens el) = some el := by
  simp [denoteLinkage, linkageToTokens]

/-- The row of a public input is lost. -/
theorem denotePublicInput_toTokens (el : BoundaryConstraintLocation × ColumnAddress) :
    denotePublicInput (publicInputToTokens el) = some (.firstRow, el.2) := by
  simp [denotePublicInput, publicInputToTokens, BoundaryConstraintLocation.denote_toTokens]

/-- `VERIFIER_COMPILED_LAYOUT`, which refers to the four layouts by their names. -/
def verifierCompiledLayout (compiledCircuit : CompiledCircuitArtifact) : RustExpression :=
  .record .verifierCompiledCircuitArtifact [
    (.witnessLayout, .path .compiledWitnessLayout),
    (.memoryLayout, .path .compiledMemoryLayout),
    (.setupLayout, .path .compiledSetupLayout),
    (.stage2Layout, .path .compiledStage2Layout),
    (.degree2Constraints,
      .slice (compiledCircuit.degree2Constraints.map transformDegree2Constraint)),
    (.degree1Constraints,
      .slice (compiledCircuit.degree1Constraints.map transformDegree1Constraint)),
    (.stateLinkageConstraints,
      .slice (compiledCircuit.stateLinkageConstraints.map linkageToTokens)),
    (.publicInputs, .slice (compiledCircuit.publicInputs.map publicInputToTokens)),
    (.lazyInitAddressAuxVars, .slice (compiledCircuit.lazyInitAddressAuxVars.map
      ShuffleRamAuxComparisonSet.toTokens)),
    (.traceLenLog2, .usize compiledCircuit.traceLen.log2)]

/-- The generated constants, in the order in which they are written. -/
def generatedConstants (compiledCircuit : CompiledCircuitArtifact) (witnessTree : RustExpression) :
    List (Path × RustExpression) :=
  [(.compiledWitnessLayout, witnessTree),
    (.compiledMemoryLayout, transformMemoryLayout compiledCircuit.memoryLayout),
    (.compiledSetupLayout, transformSetupLayout compiledCircuit.setupLayout),
    (.compiledStage2Layout, transformStage2Layout compiledCircuit.stage2Layout),
    (.verifierCompiledLayout, verifierCompiledLayout compiledCircuit)]

def generateFromParts (compiledCircuit : CompiledCircuitArtifact) :
    Option (List (Path × RustExpression)) := do
  guard (Usize.isPowerOfTwo compiledCircuit.traceLen)
  let witnessTree ← transformWitnessLayout compiledCircuit.witnessLayout
  some (generatedConstants compiledCircuit witnessTree)

/-- The value of a path to a constant. -/
def denoteConstant {α : Type} (constants : List (Path × RustExpression))
    (denote : RustExpression → Option α) : RustExpression → Option α
  | .path name => (constants.lookup name).bind denote
  | _ => none

/-- The value of `VERIFIER_COMPILED_LAYOUT` among generated constants. -/
def denoteVerifierCompiledLayout (constants : List (Path × RustExpression)) :
    Option VerifierCompiledCircuitArtifact := do
  let expression ← constants.lookup .verifierCompiledLayout
  let fields ← expression.asRecord .verifierCompiledCircuitArtifact
    [.witnessLayout, .memoryLayout, .setupLayout, .stage2Layout, .degree2Constraints,
      .degree1Constraints, .stateLinkageConstraints, .publicInputs, .lazyInitAddressAuxVars,
      .traceLenLog2]
  let witnessLayout ←
    readField fields .witnessLayout (denoteConstant constants CompiledWitnessSubtree.denote)
  let memoryLayout ←
    readField fields .memoryLayout (denoteConstant constants MemorySubtree.denote)
  let setupLayout ← readField fields .setupLayout (denoteConstant constants SetupLayout.denote)
  let stage2Layout ←
    readField fields .stage2Layout
      (denoteConstant constants LookupAndMemoryArgumentLayout.denote)
  let degree2Constraints ←
    readField fields .degree2Constraints (Expression.asSlice CompiledDegree2Constraint.denote)
  let degree1Constraints ←
    readField fields .degree1Constraints (Expression.asSlice CompiledDegree1Constraint.denote)
  let stateLinkageConstraints ←
    readField fields .stateLinkageConstraints (Expression.asSlice denoteLinkage)
  let publicInputs ← readField fields .publicInputs (Expression.asSlice denotePublicInput)
  let lazyInitAddressAuxVars ←
    readField fields .lazyInitAddressAuxVars
      (Expression.asSlice ShuffleRamAuxComparisonSet.denote)
  let traceLenLog2 ← readField fields .traceLenLog2 Expression.asUsize
  some ⟨witnessLayout, memoryLayout, setupLayout, stage2Layout, degree2Constraints,
    degree1Constraints, stateLinkageConstraints, publicInputs, lazyInitAddressAuxVars,
    traceLenLog2⟩

/-! ## The generated layout denotes the circuit -/

/-- The source renders all tables but two. -/
def TableIndex.Renderable (tableIndex : TableIndex) : Prop :=
  tableIndex ≠ .constant .conditionalOpUnsignedConditionsResolver ∧
    tableIndex ≠ .constant .dynamicPlaceholder

namespace CompiledCircuitArtifact

/-- The generated constants are written, and the last one is the circuit of the verifier. -/
def DenotesItself (self : CompiledCircuitArtifact) : Prop :=
  ∃ constants view denoted, generateFromParts self = some constants ∧
    self.asVerifierCompiledArtifact = some view ∧
    denoteVerifierCompiledLayout constants = some denoted ∧ denoted.SameFields view

/-- The circuit can be written: its length and its tables are those of a finished circuit. -/
def Writable (self : CompiledCircuitArtifact) : Prop :=
  Usize.isPowerOfTwo self.traceLen = true ∧
    ∀ lookup ∈ self.witnessLayout.width3Lookups, lookup.tableIndex.Renderable

def BoundToFirstRow (self : CompiledCircuitArtifact) : Prop :=
  ∀ el ∈ self.publicInputs, el.1 = .firstRow

end CompiledCircuitArtifact

theorem TableType.exists_toTokens_iff (self : TableType) :
    (∃ expression, self.toTokens = some expression) ↔
      self ≠ .conditionalOpUnsignedConditionsResolver ∧ self ≠ .dynamicPlaceholder := by
  unfold toTokens
  split
  · simp
  · simp
  · rename_i notUnsigned notPlaceholder
    exact ⟨fun _ => ⟨notUnsigned, notPlaceholder⟩, fun _ => ⟨_, rfl⟩⟩

theorem TableIndex.exists_toTokens_iff (self : TableIndex) :
    (∃ expression, self.toTokens = some expression) ↔ self.Renderable := by
  rcases self with column | tableType
  · simp [toTokens, Renderable]
  · rw [Renderable, Ne, Ne, TableIndex.constant.injEq, TableIndex.constant.injEq,
      ← Ne, ← Ne, ← TableType.exists_toTokens_iff]
    constructor
    · rintro ⟨expression, renders⟩
      obtain ⟨inner, innerRenders, _⟩ := Option.bind_eq_some_iff.mp renders
      exact ⟨inner, innerRenders⟩
    · rintro ⟨inner, innerRenders⟩
      exact ⟨_, Option.bind_eq_some_iff.mpr ⟨inner, innerRenders, rfl⟩⟩

theorem exists_transformLookupSetDescription_iff (description : LookupSetDescription) :
    (∃ expression, transformLookupSetDescription description = some expression) ↔
      description.tableIndex.Renderable := by
  rw [← TableIndex.exists_toTokens_iff]
  constructor
  · rintro ⟨expression, renders⟩
    obtain ⟨inner, innerRenders, _⟩ := Option.bind_eq_some_iff.mp renders
    exact ⟨inner, innerRenders⟩
  · rintro ⟨inner, innerRenders⟩
    exact ⟨_, Option.bind_eq_some_iff.mpr ⟨inner, innerRenders, rfl⟩⟩

theorem exists_mapM_iff {α β : Type} {f : α → Option β} (items : List α) :
    (∃ results, items.mapM f = some results) ↔ ∀ item ∈ items, ∃ result, f item = some result := by
  induction items with
  | nil => exact ⟨fun _ => List.forall_mem_nil _, fun _ => ⟨[], rfl⟩⟩
  | cons item items inductionHypothesis =>
      rw [List.forall_mem_cons, ← inductionHypothesis]
      constructor
      · rintro ⟨results, all⟩
        rw [List.mapM_cons] at all
        obtain ⟨head, headResult, rest⟩ := Option.bind_eq_some_iff.mp all
        obtain ⟨tail, tailResult, _⟩ := Option.bind_eq_some_iff.mp rest
        exact ⟨⟨head, headResult⟩, tail, tailResult⟩
      · rintro ⟨⟨head, headResult⟩, tail, tailResult⟩
        refine ⟨head :: tail, ?_⟩
        rw [List.mapM_cons, headResult, tailResult]
        rfl

/-- The circuit of the verifier, without the assertion on its length. -/
def CompiledCircuitArtifact.view (self : CompiledCircuitArtifact) :
    VerifierCompiledCircuitArtifact :=
  ⟨self.witnessLayout.asCompiled, self.memoryLayout, self.setupLayout, self.stage2Layout,
    self.degree2Constraints, self.degree1Constraints, self.stateLinkageConstraints,
    self.publicInputs, self.lazyInitAddressAuxVars, self.traceLen.log2⟩

namespace CompiledCircuitArtifact

theorem asVerifierCompiledArtifact_of {self : CompiledCircuitArtifact}
    (power : Usize.isPowerOfTwo self.traceLen = true) :
    self.asVerifierCompiledArtifact = some self.view := by
  rw [asVerifierCompiledArtifact, Fft.guard_of power]
  rfl

theorem exists_generateFromParts_iff (self : CompiledCircuitArtifact) :
    (∃ constants, generateFromParts self = some constants) ↔ self.Writable := by
  have lookups : (∃ results, self.witnessLayout.width3Lookups.mapM
      transformLookupSetDescription = some results) ↔
        ∀ lookup ∈ self.witnessLayout.width3Lookups, lookup.tableIndex.Renderable := by
    simp only [exists_mapM_iff, exists_transformLookupSetDescription_iff]
  rw [Writable, ← lookups]
  constructor
  · rintro ⟨constants, generates⟩
    obtain ⟨_, power, rest⟩ := Option.bind_eq_some_iff.mp generates
    obtain ⟨witnessTree, renders, _⟩ := Option.bind_eq_some_iff.mp rest
    obtain ⟨results, resultsRender, _⟩ := Option.bind_eq_some_iff.mp renders
    exact ⟨(Option.guard_eq_some' ()).mp power, results, resultsRender⟩
  · rintro ⟨power, results, resultsRender⟩
    obtain ⟨witnessTree, renders⟩ : ∃ witnessTree,
        transformWitnessLayout self.witnessLayout = some witnessTree :=
      ⟨_, Option.bind_eq_some_iff.mpr ⟨results, resultsRender, rfl⟩⟩
    refine ⟨generatedConstants self witnessTree, ?_⟩
    rw [generateFromParts, Fft.guard_of power, renders]
    rfl

end CompiledCircuitArtifact

theorem denoteConstant_path {α : Type} {constants : List (Path × RustExpression)} {name : Path}
    {expression : RustExpression} (denote : RustExpression → Option α)
    (found : constants.lookup name = some expression) :
    denoteConstant constants denote (.path name) = denote expression := by
  rw [denoteConstant, found, Option.bind_some]

/-- The denotation of the generated constants: everything but the rows of the public inputs. -/
theorem denote_of_generateFromParts {self : CompiledCircuitArtifact}
    {constants : List (Path × RustExpression)}
    (generates : generateFromParts self = some constants) :
    denoteVerifierCompiledLayout constants = some { self.view.reduceCoefficients with
      publicInputs := self.publicInputs.map fun el => (.firstRow, el.2) } := by
  obtain ⟨_, _, rest⟩ := Option.bind_eq_some_iff.mp generates
  obtain ⟨witnessTree, renders, same⟩ := Option.bind_eq_some_iff.mp rest
  cases same
  have witnessRead : denoteConstant (generatedConstants self witnessTree)
      CompiledWitnessSubtree.denote (.path .compiledWitnessLayout) = _ :=
    (denoteConstant_path _ (by simp [generatedConstants])).trans
      (CompiledWitnessSubtree.denote_of_transform renders)
  have memoryRead : denoteConstant (generatedConstants self witnessTree)
      MemorySubtree.denote (.path .compiledMemoryLayout) = _ :=
    (denoteConstant_path _ (by simp [generatedConstants, lookup_cons_eq_ite])).trans
      (MemorySubtree.denote_transform self.memoryLayout)
  have setupRead : denoteConstant (generatedConstants self witnessTree)
      SetupLayout.denote (.path .compiledSetupLayout) = _ :=
    (denoteConstant_path _ (by simp [generatedConstants, lookup_cons_eq_ite])).trans
      (SetupLayout.denote_transform self.setupLayout)
  have stage2Read : denoteConstant (generatedConstants self witnessTree)
      LookupAndMemoryArgumentLayout.denote (.path .compiledStage2Layout) = _ :=
    (denoteConstant_path _ (by simp [generatedConstants, lookup_cons_eq_ite])).trans
      (LookupAndMemoryArgumentLayout.denote_transform self.stage2Layout)
  have found : (generatedConstants self witnessTree).lookup .verifierCompiledLayout =
      some (verifierCompiledLayout self) := by
    simp [generatedConstants, lookup_cons_eq_ite]
  unfold denoteVerifierCompiledLayout
  refine read_step _ found ?_
  refine read_step _ (by rw [verifierCompiledLayout]; exact asRecord_record rfl) ?_
  refine read_step self.witnessLayout.asCompiled.reduceCoefficients (by simp [witnessRead]) ?_
  refine read_step self.memoryLayout (by simp [memoryRead]) ?_
  refine read_step self.setupLayout (by simp [setupRead]) ?_
  refine read_step self.stage2Layout (by simp [stage2Read]) ?_
  refine read_step _ (asSlice_map CompiledDegree2Constraint.denote_transform _) ?_
  refine read_step _ (asSlice_map CompiledDegree1Constraint.denote_transform _) ?_
  refine read_step _ (asSlice_map_self denoteLinkage_toTokens _) ?_
  refine read_step _ (asSlice_map denotePublicInput_toTokens _) ?_
  refine read_step _ (asSlice_map_self ShuffleRamAuxComparisonSet.denote_toTokens _) ?_
  refine read_step _ rfl ?_
  rfl

/-! ## Reducing twice -/

theorem value_reduced (a : Element) : (reduced a).value = a.value := by
  have residue : (reduced a).value = (a.raw.toNat : Circuit.F) := by
    rw [Element.value_eq_iff_mod, reduced, Mersenne31.toNat_toReducedU32 a.bound, Nat.mod_mod]
  exact residue

@[simp] theorem reduced_reduced (a : Element) : reduced (reduced a) = reduced a := by
  rw [reduced_eq_iff, Element.eq_iff, value_reduced]

@[simp] theorem CompiledDegree1Constraint.reduceCoefficients_twice
    (self : CompiledDegree1Constraint) :
    self.reduceCoefficients.reduceCoefficients = self.reduceCoefficients := by
  simp [reduceCoefficients, Function.comp_def]

@[simp] theorem CompiledDegree2Constraint.reduceCoefficients_twice
    (self : CompiledDegree2Constraint) :
    self.reduceCoefficients.reduceCoefficients = self.reduceCoefficients := by
  simp [reduceCoefficients, Function.comp_def]

@[simp] theorem LookupExpression.reduceCoefficients_twice (self : LookupExpression) :
    self.reduceCoefficients.reduceCoefficients = self.reduceCoefficients := by
  rcases self with place | constraint
  · rfl
  · simp [reduceCoefficients]

@[simp] theorem LookupSetDescription.reduceCoefficients_twice (self : LookupSetDescription) :
    self.reduceCoefficients.reduceCoefficients = self.reduceCoefficients := by
  simp [reduceCoefficients]

theorem VerifierCompiledCircuitArtifact.reduceCoefficients_twice
    (self : VerifierCompiledCircuitArtifact) :
    self.reduceCoefficients.reduceCoefficients = self.reduceCoefficients := by
  simp [reduceCoefficients, CompiledWitnessSubtree.reduceCoefficients, Function.comp_def]

theorem sameFields_firstRow_iff (view : VerifierCompiledCircuitArtifact)
    (publicInputs : List (BoundaryConstraintLocation × ColumnAddress)) :
    VerifierCompiledCircuitArtifact.SameFields
      { view.reduceCoefficients with publicInputs := publicInputs } view ↔
        publicInputs = view.publicInputs := by
  have twice := view.reduceCoefficients_twice
  unfold VerifierCompiledCircuitArtifact.SameFields
  constructor
  · intro same
    exact congrArg VerifierCompiledCircuitArtifact.publicInputs same
  · rintro rfl
    exact twice

theorem map_firstRow_eq_iff (publicInputs : List (BoundaryConstraintLocation × ColumnAddress)) :
    (publicInputs.map fun el => (BoundaryConstraintLocation.firstRow, el.2)) = publicInputs ↔
      ∀ el ∈ publicInputs, el.1 = .firstRow := by
  induction publicInputs with
  | nil => exact ⟨fun _ => List.forall_mem_nil _, fun _ => rfl⟩
  | cons el publicInputs inductionHypothesis =>
      rw [List.map_cons, List.cons.injEq, List.forall_mem_cons, inductionHypothesis,
        Prod.ext_iff]
      constructor
      · rintro ⟨⟨row, _⟩, rest⟩
        exact ⟨row.symm, rest⟩
      · rintro ⟨row, rest⟩
        exact ⟨⟨row.symm, rfl⟩, rest⟩

/-! ## The theorem -/

/-- A circuit that can be written is denoted by what is written exactly when all its public
inputs are bound to the first row.  Among those, circuits that are written alike are alike. -/
theorem generateFromParts_exact (a b : CompiledCircuitArtifact)
    (constants : List (Path × RustExpression)) :
    (a.DenotesItself ↔ a.Writable ∧ a.BoundToFirstRow) ∧
      (a.BoundToFirstRow → b.BoundToFirstRow →
        generateFromParts a = some constants → generateFromParts b = some constants →
        ∃ viewA viewB, a.asVerifierCompiledArtifact = some viewA ∧
          b.asVerifierCompiledArtifact = some viewB ∧ viewA.SameFields viewB) := by
  constructor
  · constructor
    · rintro ⟨constants, view, denoted, generates, viewEq, denotes, same⟩
      have writable := a.exists_generateFromParts_iff.mp ⟨constants, generates⟩
      refine ⟨writable, ?_⟩
      rw [CompiledCircuitArtifact.asVerifierCompiledArtifact_of writable.1] at viewEq
      rw [denote_of_generateFromParts generates] at denotes
      cases viewEq
      cases denotes
      exact (map_firstRow_eq_iff _).mp ((sameFields_firstRow_iff _ _).mp same)
    · rintro ⟨writable, bound⟩
      obtain ⟨constants, generates⟩ := a.exists_generateFromParts_iff.mpr writable
      refine ⟨constants, a.view, _, generates,
        CompiledCircuitArtifact.asVerifierCompiledArtifact_of writable.1,
        denote_of_generateFromParts generates, ?_⟩
      exact (sameFields_firstRow_iff _ _).mpr ((map_firstRow_eq_iff _).mpr bound)
  · intro boundA boundB generatesA generatesB
    have writableA := a.exists_generateFromParts_iff.mp ⟨constants, generatesA⟩
    have writableB := b.exists_generateFromParts_iff.mp ⟨constants, generatesB⟩
    refine ⟨a.view, b.view, CompiledCircuitArtifact.asVerifierCompiledArtifact_of writableA.1,
      CompiledCircuitArtifact.asVerifierCompiledArtifact_of writableB.1, ?_⟩
    have sameA := (sameFields_firstRow_iff a.view _).mpr ((map_firstRow_eq_iff _).mpr boundA)
    have sameB := (sameFields_firstRow_iff b.view _).mpr ((map_firstRow_eq_iff _).mpr boundB)
    have denoted := (denote_of_generateFromParts generatesA).symm.trans
      (denote_of_generateFromParts generatesB)
    unfold VerifierCompiledCircuitArtifact.SameFields at sameA sameB ⊢
    rw [← sameA, ← sameB]
    exact congrArg VerifierCompiledCircuitArtifact.reduceCoefficients (Option.some.inj denoted)

/-- A circuit of one column, its value an input in the first row and an output in the row
before the last one. -/
def inputOutputCircuit : CompiledCircuitArtifact where
  witnessLayout := {
    multiplicitiesColumnsForRangeCheck16 := .empty 1
    multiplicitiesColumnsForTimestampRangeCheck := .empty 1
    multiplicitiesColumnsForDecoderInExecutorFamilies := .empty 1
    multiplicitiesColumnsForGenericLookup := .empty 1
    rangeCheck8Columns := .empty 1
    rangeCheck16Columns := .empty 1
    width3Lookups := []
    rangeCheck16LookupExpressions := []
    timestampRangeCheckLookupExpressions := []
    offsetForSpecialShuffleRamTimestampsRangeCheckExpressions := 0
    booleanVarsColumnsRange := .empty 1
    scratchSpaceColumnsRange := ⟨0, 1⟩
    totalWidth := 1 }
  memoryLayout := ⟨[], [], none, none, none, none, [], [], 0⟩
  setupLayout := ⟨.empty 2, .empty 1, .empty 1, .empty 4, .empty _, 0⟩
  stage2Layout := {
    intermediatePolysForRangeCheck16 := ⟨0, .empty 1, .empty 4⟩
    remainderForRangeCheck16 := none
    lazyInitAddressRangeCheck16 := none
    intermediatePolysForTimestampRangeChecks := ⟨0, .empty 1, .empty 4⟩
    intermediatePolysForGenericLookup := .empty 4
    intermediatePolyForDecoderAccesses := .empty 4
    intermediatePolyForRangeCheck16Multiplicity := .empty 4
    intermediatePolyForTimestampRangeCheckMultiplicity := .empty 4
    intermediatePolysForGenericMultiplicities := .empty 4
    intermediatePolysForDecoderMultiplicities := .empty 4
    delegationProcessingAuxPoly := none
    intermediatePolysForMemoryInitTeardown := .empty 4
    intermediatePolysForMemoryArgument := .empty 4
    intermediatePolysForStatePermutation := .empty 4
    intermediatePolysForPermutationMasking := .empty 4
    intermediatePolyForGrandProduct := .empty 4
    ext4PolysOffset := 0
    totalWidth := 0 }
  degree2Constraints := []
  degree1Constraints := []
  stateLinkageConstraints := [(.witnessSubtree 0, .witnessSubtree 0)]
  publicInputs := [(.firstRow, .witnessSubtree 0), (.oneBeforeLastRow, .witnessSubtree 0)]
  lazyInitAddressAuxVars := []
  traceLen := 8

theorem generateFromParts_moves_output : ¬ inputOutputCircuit.DenotesItself := by
  rintro ⟨constants, view, denoted, generates, viewEq, denotes, same⟩
  rw [denote_of_generateFromParts generates] at denotes
  cases viewEq
  cases denotes
  have rows := (sameFields_firstRow_iff inputOutputCircuit.view _).mp same
  exact absurd rows (by decide)

/-- The modulus, the other representation of zero. -/
def unreducedZero : Element :=
  ⟨0x7fffffff, by decide⟩

/-- The circuit with its input only, and a constraint that is a constant. -/
def inputCircuit (constantTerm : Element) : CompiledCircuitArtifact :=
  { inputOutputCircuit with
    degree1Constraints := [⟨[], constantTerm⟩]
    publicInputs := [(.firstRow, .witnessSubtree 0)] }

theorem inputCircuit_writable (constantTerm : Element) :
    (inputCircuit constantTerm).Writable := by
  have power : Usize.isPowerOfTwo 8 = true := by
    decide
  exact ⟨power, List.forall_mem_nil _⟩

theorem inputCircuit_boundToFirstRow (constantTerm : Element) :
    (inputCircuit constantTerm).BoundToFirstRow :=
  List.forall_mem_singleton.mpr rfl

/-- A circuit that denotes itself, and another one that is written alike. -/
theorem generateFromParts_exact_input :
    (inputCircuit unreducedZero).DenotesItself ∧
      inputCircuit unreducedZero ≠ inputCircuit (reduced unreducedZero) ∧
      ∃ viewA viewB, (inputCircuit unreducedZero).asVerifierCompiledArtifact = some viewA ∧
        (inputCircuit (reduced unreducedZero)).asVerifierCompiledArtifact = some viewB ∧
        viewA.SameFields viewB := by
  rcases (inputCircuit unreducedZero).exists_generateFromParts_iff.mpr
    (inputCircuit_writable unreducedZero) with ⟨constants, generates⟩
  have alike : generateFromParts (inputCircuit (reduced unreducedZero)) = some constants := by
    rw [← generates]
    rfl
  refine ⟨?_, ?_, ?_⟩
  · exact (generateFromParts_exact _ (inputCircuit unreducedZero) constants).1.mpr
      ⟨inputCircuit_writable _, inputCircuit_boundToFirstRow _⟩
  · intro same
    have constantTerms := congrArg CompiledCircuitArtifact.degree1Constraints same
    exact absurd constantTerms (by decide)
  · exact (generateFromParts_exact _ _ constants).2 (inputCircuit_boundToFirstRow _)
      (inputCircuit_boundToFirstRow _) generates alike

end Airbender.Compiler
