import Airbender.Compiler.CircuitOutput
import Airbender.Lib.BTreeSet
import Airbender.Lib.Construction

/-!
# Placement of variables

The compilers give every variable a column of the witness or of the memory tree.  A variable
is placed once: it is taken from the set of variables that are left to place.
-/

namespace Airbender.Compiler

open Construction
open Mersenne31 (Element)
open Constraints (Variable Constraint Boolean)

/-- What a compiler changes on its way. -/
structure Placement where
  numVariables : Nat
  allVariablesToPlace : BTreeSet Variable
  layout : Variable → Option ColumnAddress
  memoryTreeOffset : Nat
  witnessTreeOffset : Nat
  booleanVars : List Variable
  rangeCheckExpressions : List RangeCheckQuery

abbrev Compiling (Result : Type) := Construction Placement Result

/-- All variables of the circuit are left to place. -/
def Placement.start (numVariables : Nat) (booleanVars : List Variable)
    (rangeCheckExpressions : List RangeCheckQuery) : Placement where
  numVariables := numVariables
  allVariablesToPlace := (List.range numVariables).foldl
    (fun vars variableIdx => vars.insert (Fin.ofNat _ variableIdx)) .empty
  layout := fun _ => none
  memoryTreeOffset := 0
  witnessTreeOffset := 0
  booleanVars := booleanVars
  rangeCheckExpressions := rangeCheckExpressions

/-! ## Variables -/

/-- Stops when the counter would overflow. -/
def addCompilerDefinedVariable : Compiling Variable := do
  let placement ← get
  require (placement.numVariables + 1 < 2 ^ 64)
  let var : Variable := Fin.ofNat _ placement.numVariables
  set { placement with
    numVariables := placement.numVariables + 1
    allVariablesToPlace := placement.allVariablesToPlace.insert var }
  pure var

/-- `add_multiple_compiler_defined_variables` for two variables. -/
def addCompilerDefinedWord : Compiling WordVariables := do
  let low ← addCompilerDefinedVariable
  let high ← addCompilerDefinedVariable
  pure (low, high)

def pushBooleanVar (var : Variable) : Compiling Unit :=
  modify fun placement => { placement with booleanVars := placement.booleanVars ++ [var] }

/-- Stops when the variable was already placed. -/
def removeVariable (var : Variable) : Compiling Unit := do
  let placement ← get
  let rest ← lift (placement.allVariablesToPlace.remove var)
  set { placement with allVariablesToPlace := rest }

def insertPlace (var : Variable) (place : ColumnAddress) : Compiling Unit :=
  modify fun placement =>
    { placement with layout := Function.update placement.layout var (some place) }

/-- A variable that has no place yet. -/
def placeVariable (var : Variable) (place : ColumnAddress) : Compiling Unit := do
  removeVariable var
  let placement ← get
  require (placement.layout var).isNone
  insertPlace var place

/-- The place of a variable, which has to be there. -/
def placeOf (var : Variable) : Compiling ColumnAddress := do
  let placement ← get
  lift (placement.layout var)

/-! ## Columns -/

def layoutWitnessColumns (width numElements : Nat) : Compiling (ColumnSet width) := do
  let placement ← get
  let (columns, offset) ←
    lift (ColumnSet.layoutAt width placement.witnessTreeOffset numElements)
  set { placement with witnessTreeOffset := offset }
  pure columns

def layoutMemoryColumns (width numElements : Nat) : Compiling (ColumnSet width) := do
  let placement ← get
  let (columns, offset) ←
    lift (ColumnSet.layoutAt width placement.memoryTreeOffset numElements)
  set { placement with memoryTreeOffset := offset }
  pure columns

/-- Variables side by side from an offset on. -/
def placeFrom (place : Nat → ColumnAddress) (offset : Nat) (vars : List Variable) :
    Compiling Unit :=
  (vars.zipIdx offset).forM fun entry => placeVariable entry.1 (place entry.2)

def layoutWitnessSubtreeMultipleVariables (width : Nat) (vars : List Variable) :
    Compiling (ColumnSet width) := do
  let columns ← layoutWitnessColumns width 1
  placeFrom .witnessSubtree columns.start vars
  let placement ← get
  require (columns.start + vars.length = placement.witnessTreeOffset)
  pure columns

def layoutMemorySubtreeMultipleVariables (width : Nat) (vars : List Variable) :
    Compiling (ColumnSet width) := do
  let columns ← layoutMemoryColumns width 1
  placeFrom .memorySubtree columns.start vars
  let placement ← get
  require (columns.start + vars.length = placement.memoryTreeOffset)
  pure columns

def layoutWitnessSubtreeVariable (var : Variable) : Compiling (ColumnSet 1) :=
  layoutWitnessSubtreeMultipleVariables 1 [var]

def layoutMemorySubtreeVariable (var : Variable) : Compiling (ColumnSet 1) :=
  layoutMemorySubtreeMultipleVariables 1 [var]

def layoutWitnessSubtreeWord (word : WordVariables) : Compiling (ColumnSet 2) :=
  layoutWitnessSubtreeMultipleVariables 2 [word.1, word.2]

def layoutMemorySubtreeWord (word : WordVariables) : Compiling (ColumnSet 2) :=
  layoutMemorySubtreeMultipleVariables 2 [word.1, word.2]

def layoutWitnessSubtreeVariableAtColumn (offset : Nat) (var : Variable) :
    Compiling ColumnAddress := do
  placeVariable var (.witnessSubtree offset)
  pure (.witnessSubtree offset)

/-- A variable that may be placed already. -/
def placeInWitnessIfNew (var : Variable) : Compiling ColumnAddress := do
  let placement ← get
  match placement.layout var with
  | some place => pure place
  | none => do
      let column ← layoutWitnessSubtreeVariable var
      pure (.witnessSubtree column.start)

/-! ## Range checks -/

/-- Only variables can be range checked. -/
def RangeCheckQuery.inputVariable (query : RangeCheckQuery) : Option Variable :=
  match query.input with
  | .variable var => some var
  | .expression _ _ => none

/-- The next column, the columns used so far and the expressions after one more variable. -/
def allocateRangeCheck16 (state : Nat × Nat × List LookupExpression) (var : Variable) :
    Compiling (Nat × Nat × List LookupExpression) := do
  let (offset, numColumnsNeeded, expressions) := state
  let placement ← get
  match placement.layout var with
  | some place => pure (offset, numColumnsNeeded, expressions ++ [.variable place])
  | none => do
      let place ← layoutWitnessSubtreeVariableAtColumn offset var
      pure (offset + 1, numColumnsNeeded + 1, expressions ++ [.variable place])

/-- The columns of the 8-bit checks, those of the 16-bit checks and the 16-bit expressions. -/
def allocateRangeCheckExpressions (traceLen : Nat)
    (compiledExtraRangeCheck16Expressions : List LookupExpression)
    (extraPreexistingRangeChecks16 : Nat) :
    Compiling (ColumnSet 1 × ColumnSet 1 × List LookupExpression) := do
  require (Usize.isPowerOfTwo traceLen)
  let placement ← get
  let queries := placement.rangeCheckExpressions
  require (∀ query ∈ queries, query.inputVariable.isSome ∧
    (query.width = largeRangeCheckTableWidth ∨ query.width = smallRangeCheckTableWidth))
  let variablesOfWidth (width : Nat) : List Variable :=
    (queries.filter fun query => query.width = width).filterMap RangeCheckQuery.inputVariable
  let rangeCheck8Columns ←
    layoutWitnessColumns 1 (variablesOfWidth smallRangeCheckTableWidth).length
  placeFrom .witnessSubtree rangeCheck8Columns.start (variablesOfWidth smallRangeCheckTableWidth)
  let placement ← get
  let (offset, numColumnsNeeded, expressions) ←
    (variablesOfWidth largeRangeCheckTableWidth).foldlM allocateRangeCheck16
      (placement.witnessTreeOffset, 0, [])
  require (numColumnsNeeded ≤ (variablesOfWidth largeRangeCheckTableWidth).length)
  let rangeCheck16Columns ← layoutWitnessColumns 1 numColumnsNeeded
  let placement ← get
  require (placement.witnessTreeOffset = offset)
  let expressions := expressions ++ compiledExtraRangeCheck16Expressions
  require ((expressions.length + extraPreexistingRangeChecks16) * traceLen < Circuit.modulus)
  pure (rangeCheck8Columns, rangeCheck16Columns, expressions)

/-! ## Generic lookups -/

def LookupInput.allocate : LookupInput → Compiling LookupExpression
  | .variable var => do
      let place ← placeInWitnessIfNew var
      pure (.variable place)
  | .expression linearTerms constantCoeff => do
      let compiledLinearTerms ← linearTerms.mapM fun term => do
        let place ← placeInWitnessIfNew term.2
        pure (term.1, place)
      pure (.expression ⟨compiledLinearTerms, constantCoeff⟩)

def LookupQueryTableType.allocate : LookupQueryTableType → Compiling TableIndex
  | .constant tableType => pure (.constant tableType)
  | .variable var => do
      let place ← placeInWitnessIfNew var
      pure (.variable place)

def LookupQuery.allocate (query : LookupQuery) : Compiling LookupSetDescription := do
  let first ← query.row.1.allocate
  let second ← query.row.2.1.allocate
  let third ← query.row.2.2.allocate
  let tableIndex ← query.table.allocate
  pure ⟨(first, second, third), tableIndex⟩

def allocateWidth3Lookups (traceLen : Nat) (lookups : List LookupQuery) :
    Compiling (List LookupSetDescription) := do
  require (Usize.isPowerOfTwo traceLen)
  let width3Lookups ← lookups.mapM LookupQuery.allocate
  require (width3Lookups.length * traceLen < Circuit.modulus)
  pure width3Lookups

end Airbender.Compiler
