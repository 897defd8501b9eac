import Airbender.Compiler.QuotientTerms
import Airbender.Lib.NestedList

/-!
# Cached data of the prover

The prover derives from a compiled circuit which arguments it has to run, and pairs up the
inputs of the range checks with the columns of the second stage.
-/

namespace Airbender.Prover

open Compiler

/-- A pair of range-checked inputs with the columns of their product and of their inverse. -/
structure LookupWidth1Access where
  a : LookupExpression
  b : LookupExpression
  baseFieldQuadraticOracleCol : Nat
  ext4FieldInversesColumnsStart : Nat
deriving DecidableEq

/-- `as_chunks::<2>`, without a remainder. -/
def chunksOfTwo {Input : Type} : List Input → List (Input × Input)
  | [] => []
  | [_] => []
  | a :: b :: rest => (a, b) :: chunksOfTwo rest

def isVariable : LookupExpression → Bool
  | .variable _ => true
  | .expression _ => false

/-- The columns of the pair at an index.  The two iterators over the oracles must go on. -/
def pairAccess (oracles : OptimizedOraclesForLookupWidth1) (wantsVariables : Bool)
    (entry : (LookupExpression × LookupExpression) × Nat) : Option LookupWidth1Access := do
  guard (entry.2 < oracles.baseFieldOracles.numElements ∧
    entry.2 < oracles.ext4FieldOracles.numElements)
  guard (isVariable entry.1.1 = wantsVariables ∧ isVariable entry.1.2 = wantsVariables)
  some ⟨entry.1.1, entry.1.2, oracles.baseFieldOracles.getRangeStart entry.2,
    oracles.ext4FieldOracles.getRangeStart entry.2⟩

/-- A pair of neighbouring columns.  The expressions at their indices have to be variables. -/
def columnPairAccess (oracles : OptimizedOraclesForLookupWidth1) (columns : ColumnSet 1)
    (expressions : List LookupExpression) (idx : Nat) : Option LookupWidth1Access := do
  guard (2 * idx + 1 < columns.numElements)
  let first ← expressions[2 * idx]?
  let second ← expressions[2 * idx + 1]?
  guard (isVariable first ∧ isVariable second)
  pairAccess oracles true ((.variable (.witnessSubtree (columns.start + 2 * idx)),
    .variable (.witnessSubtree (columns.start + (2 * idx + 1)))), idx)

/-- The accesses over variables, and those over expressions. -/
def getRangeCheck16LookupAccesses (circuit : CompiledCircuitArtifact) :
    Option (List LookupWidth1Access × List LookupWidth1Access) := do
  let oracles := circuit.stage2Layout.intermediatePolysForRangeCheck16
  let columns := circuit.witnessLayout.rangeCheck16Columns
  let expressions := circuit.witnessLayout.rangeCheck16LookupExpressions
  guard (expressions.length / 2 = oracles.baseFieldOracles.numElements)
  guard (oracles.ext4FieldOracles.numElements = oracles.baseFieldOracles.numElements)
  guard (columns.numElements % 2 = 0)
  guard (expressions.length % 2 = 0)
  let overVariables ← (List.range (columns.numElements / 2)).mapM
    (columnPairAccess oracles columns expressions)
  guard (columns.numElements ≤ expressions.length)
  let source := expressions.drop columns.numElements
  guard (source.length % 2 = 0)
  let overExpressions ← ((chunksOfTwo source).zipIdx (columns.numElements / 2)).mapM
    (pairAccess oracles false)
  guard (overVariables.length + overExpressions.length = oracles.baseFieldOracles.numElements)
  guard circuit.stage2Layout.remainderForRangeCheck16.isNone
  some (overVariables, overExpressions)

/-- The accesses before the offset, and those to which the circuit sequence contributes. -/
def getTimestampRangeCheckLookupAccesses (circuit : CompiledCircuitArtifact) :
    Option (List LookupWidth1Access × List LookupWidth1Access) := do
  let oracles := circuit.stage2Layout.intermediatePolysForTimestampRangeChecks
  let expressions := circuit.witnessLayout.timestampRangeCheckLookupExpressions
  let offset :=
    circuit.witnessLayout.offsetForSpecialShuffleRamTimestampsRangeCheckExpressions
  guard (expressions.length / 2 = oracles.baseFieldOracles.numElements)
  guard (oracles.ext4FieldOracles.numElements = oracles.baseFieldOracles.numElements)
  guard (offset ≤ expressions.length)
  guard ((expressions.take offset).length % 2 = 0)
  let ordinary ← (chunksOfTwo (expressions.take offset)).zipIdx.mapM (pairAccess oracles false)
  guard ((expressions.drop offset).length % 2 = 0)
  let forShuffleRam ← ((chunksOfTwo (expressions.drop offset)).zipIdx ordinary.length).mapM
    (pairAccess oracles false)
  guard (ordinary.length + forShuffleRam.length = oracles.baseFieldOracles.numElements)
  some (ordinary, forShuffleRam)

/-- The table of a generic lookup is fixed, or its index is a witness column. -/
def hasKnownTableColumn (lookup : LookupSetDescription) : Bool :=
  match lookup.tableIndex with
  | .constant _ => true
  | .variable (.witnessSubtree _) => true
  | .variable _ => false

structure ProverCachedData where
  processShuffleRamInit : Bool
  handleDelegationRequests : Bool
  processBatchRamAccess : Bool
  processRegistersAndIndirectAccess : Bool
  processDelegations : Bool
  delegationProcessorLayout : DelegationProcessingLayout
  delegationProcessingAuxPoly : AlignedColumnSet 4
  rangeCheck16MultiplicitiesSrc : Nat
  rangeCheck16SetupColumn : Nat
  timestampRangeCheckMultiplicitiesSrc : Nat
  timestampRangeCheckSetupColumn : Nat
  rangeCheck16Accesses : List LookupWidth1Access
  rangeCheck16AccessesViaExpressions : List LookupWidth1Access
  timestampAccessesViaExpressions : List LookupWidth1Access
  timestampAccessesViaExpressionsForShuffleRam : List LookupWidth1Access

namespace ProverCachedData

/-- The checks of the source on the circuit itself. -/
def new (circuit : CompiledCircuitArtifact) : Option ProverCachedData := do
  let memoryLayout := circuit.memoryLayout
  let stage2Layout := circuit.stage2Layout
  let numAccessSets := memoryLayout.shuffleRamAccessSets.length
  guard (0 < numAccessSets → Nat.clog 2 numAccessSets = 2)
  guard memoryLayout.batchedRamAccesses.isEmpty
  let processShuffleRamInit := memoryLayout.shuffleRamInitsAndTeardowns.isEmpty = false
  guard (processShuffleRamInit → stage2Layout.lazyInitAddressRangeCheck16.isSome)
  guard (0 < memoryLayout.batchedRamAccesses.length ∨
    0 < memoryLayout.registerAndIndirectAccesses.length →
      memoryLayout.delegationProcessorLayout.isSome)
  let (rangeCheck16, rangeCheck16ViaExpressions) ← getRangeCheck16LookupAccesses circuit
  let (timestamps, timestampsForShuffleRam) ← getTimestampRangeCheckLookupAccesses circuit
  guard (circuit.witnessLayout.width3Lookups.all hasKnownTableColumn)
  guard (circuit.witnessLayout.width3Lookups.length =
    stage2Layout.intermediatePolysForGenericLookup.numElements)
  guard (circuit.witnessLayout.multiplicitiesColumnsForRangeCheck16.numElements = 1)
  some {
    processShuffleRamInit := processShuffleRamInit
    handleDelegationRequests := memoryLayout.delegationRequestLayout.isSome
    processBatchRamAccess := 0 < memoryLayout.batchedRamAccesses.length
    processRegistersAndIndirectAccess := 0 < memoryLayout.registerAndIndirectAccesses.length
    processDelegations := memoryLayout.delegationProcessorLayout.isSome
    delegationProcessorLayout :=
      memoryLayout.delegationProcessorLayout.getD ⟨.empty 1, .empty 1, .empty 2⟩
    delegationProcessingAuxPoly := stage2Layout.delegationProcessingAuxPoly.getD (.empty 4)
    rangeCheck16MultiplicitiesSrc :=
      circuit.witnessLayout.multiplicitiesColumnsForRangeCheck16.start
    rangeCheck16SetupColumn := circuit.setupLayout.rangeCheck16SetupColumn.start
    timestampRangeCheckMultiplicitiesSrc :=
      circuit.witnessLayout.multiplicitiesColumnsForTimestampRangeCheck.start
    timestampRangeCheckSetupColumn := circuit.setupLayout.timestampRangeCheckSetupColumn.start
    rangeCheck16Accesses := rangeCheck16
    rangeCheck16AccessesViaExpressions := rangeCheck16ViaExpressions
    timestampAccessesViaExpressions := timestamps
    timestampAccessesViaExpressionsForShuffleRam := timestampsForShuffleRam }

end ProverCachedData

end Airbender.Prover
