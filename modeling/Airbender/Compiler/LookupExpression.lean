import Airbender.Compiler.Columns
import Airbender.Constraints.Substitution
import Airbender.Fft.Worker

/-!
# Lookup expressions

A circuit gives a lookup input as a linear expression in variables.  The compiler replaces
each variable by its column, and the prover evaluates the compiled expression at a row.
-/

namespace Airbender.Compiler

open Circuit (F)
open Mersenne31 (Element)
open Constraints (Variable Constraint Term)

/-- `LookupInput`. -/
inductive LookupInput
  | variable (var : Variable)
  | expression (linearTerms : List (Element × Variable)) (constantCoeff : Element)
deriving DecidableEq

/-- `From<Constraint<F>> for LookupInput<F>`. -/
def LookupInput.ofConstraint (value : Constraint) : Option LookupInput := do
  guard (value.degree ≤ 1)
  let value ← value.normalize
  let parts ← value.splitMaxQuadratic
  some (.expression parts.linearTerms parts.constantTerm)

structure CompiledDegree1Constraint where
  linearTerms : List (Element × ColumnAddress)
  constantTerm : Element
deriving DecidableEq

inductive LookupExpression
  | variable (place : ColumnAddress)
  | expression (constraint : CompiledDegree1Constraint)
deriving DecidableEq

/-! ## Evaluation at a row -/

/-- One row of the three traces. -/
structure Row where
  witness : Nat → F
  memory : Nat → F
  setup : Nat → F

/-- `read_value_with_setup_access`. -/
def readValueWithSetupAccess (row : Row) : ColumnAddress → Option F
  | .witnessSubtree offset => some (row.witness offset)
  | .memorySubtree offset => some (row.memory offset)
  | .setupSubtree offset => some (row.setup offset)
  | .optimizedOut _ => none

/-- `evaluate_at_row_on_main_domain_ext`. -/
def CompiledDegree1Constraint.evaluateAtRow (constraint : CompiledDegree1Constraint) (row : Row) :
    Option F :=
  constraint.linearTerms.foldlM (fun result term => do
    let value ← readValueWithSetupAccess row term.2
    some (result + value * term.1.value)) constraint.constantTerm.value

/-- The value that the prover range-checks.  A bare variable has to be in the witness. -/
def LookupExpression.evaluateAtRow (row : Row) : LookupExpression → Option F
  | .variable (.witnessSubtree offset) => some (row.witness offset)
  | .variable _ => none
  | .expression constraint => constraint.evaluateAtRow row

/-- The value that a layout and a row give to a variable. -/
def valueOf (layout : Variable → Option ColumnAddress) (row : Row) (var : Variable) : F :=
  ((layout var).bind (readValueWithSetupAccess row)).getD 0

/-- Every placed variable can be read: nothing has been optimized out. -/
def Readable (layout : Variable → Option ColumnAddress) : Prop :=
  ∀ var offset, layout var ≠ some (.optimizedOut offset)

theorem readValue_of_readable {layout : Variable → Option ColumnAddress}
    (readable : Readable layout) {var : Variable} {place : ColumnAddress}
    (placed : layout var = some place) (row : Row) :
    readValueWithSetupAccess row place = some (valueOf layout row var) := by
  rw [valueOf, placed, Option.bind_some]
  cases place with
  | witnessSubtree offset => rfl
  | memorySubtree offset => rfl
  | setupSubtree offset => rfl
  | optimizedOut offset => exact absurd placed (readable var offset)

/-! ## Compiling an input -/

/-- `LookupInput::Expression` with the variable input written as one term. -/
def LookupInput.linearTerms : LookupInput → List (Element × Variable)
  | .variable var => [(Element.one, var)]
  | .expression linearTerms _ => linearTerms

def LookupInput.constantCoeff : LookupInput → Element
  | .variable _ => Element.zero
  | .expression _ constantCoeff => constantCoeff

/-- The loop of the compiler over one input.  All variables have to be placed. -/
def LookupInput.compile (layout : Variable → Option ColumnAddress) (input : LookupInput) :
    Option LookupExpression := do
  let linearTerms ← input.linearTerms.mapM fun term => do
    let place ← layout term.2
    some (term.1, place)
  some (.expression ⟨linearTerms, input.constantCoeff⟩)

/-- The value of an input when `assignment` gives the variables. -/
def LookupInput.evaluate (assignment : Variable → F) (input : LookupInput) : F :=
  (input.linearTerms.map fun term => term.1.value * assignment term.2).sum +
    input.constantCoeff.value

theorem foldlM_compiledTerms {layout : Variable → Option ColumnAddress}
    (readable : Readable layout) (row : Row) {terms : List (Element × Variable)}
    {compiled : List (Element × ColumnAddress)}
    (compiles : (terms.mapM fun term => (layout term.2).bind fun place =>
      some (term.1, place)) = some compiled) (start : F) :
    (compiled.foldlM (fun result term => do
      let value ← readValueWithSetupAccess row term.2
      some (result + value * term.1.value)) start : Option F) =
        some (start + (terms.map fun term => term.1.value * valueOf layout row term.2).sum) := by
  induction terms generalizing compiled start with
  | nil =>
      rw [List.mapM_nil] at compiles
      cases compiles
      rw [List.map_nil, List.sum_nil, add_zero]
      rfl
  | cons term terms inductionHypothesis =>
      rw [List.mapM_cons] at compiles
      obtain ⟨head, headCompiles, rest⟩ := Option.bind_eq_some_iff.mp compiles
      obtain ⟨tail, tailCompiles, same⟩ := Option.bind_eq_some_iff.mp rest
      obtain ⟨place, placed, headSame⟩ := Option.bind_eq_some_iff.mp headCompiles
      cases same
      cases headSame
      have reads := readValue_of_readable readable placed row
      rw [List.foldlM_cons]
      simp only [reads, Option.bind_eq_bind, Option.bind_some]
      have step := inductionHypothesis tailCompiles
        (start + valueOf layout row term.2 * term.1.value)
      simp only [Option.bind_eq_bind] at step
      rw [step, List.map_cons, List.sum_cons]
      congr 1
      ring

/-- A compiled input has the value of the input under the assignment that the row gives. -/
theorem LookupInput.evaluateAtRow_of_compile {layout : Variable → Option ColumnAddress}
    (readable : Readable layout) (row : Row) {input : LookupInput} {compiled : LookupExpression}
    (compiles : input.compile layout = some compiled) :
    compiled.evaluateAtRow row = some (input.evaluate (valueOf layout row)) := by
  obtain ⟨terms, termsCompile, same⟩ := Option.bind_eq_some_iff.mp compiles
  cases same
  rw [LookupExpression.evaluateAtRow, CompiledDegree1Constraint.evaluateAtRow,
    foldlM_compiledTerms readable row termsCompile, LookupInput.evaluate, add_comm]

/-! ## Inputs given as constraints -/

theorem quadraticTerms_of_splitTerm {parts parts' : Constraints.MaxQuadratic} {term : Term}
    (degree : term.degree ≤ 1) (splits : Constraint.splitTerm parts term = some parts') :
    parts'.quadraticTerms = parts.quadraticTerms := by
  unfold Constraint.splitTerm at splits
  split at splits
  · exact absurd degree (by simp [Term.degree])
  · cases splits
    rfl
  · obtain ⟨_, _, same⟩ := Option.bind_eq_some_iff.mp splits
    cases same
    rfl
  · obtain ⟨_, _, same⟩ := Option.bind_eq_some_iff.mp splits
    cases same
    rfl
  · cases splits

theorem quadraticTerms_of_foldlM {terms : List Term} {parts parts' : Constraints.MaxQuadratic}
    (degrees : ∀ term ∈ terms, term.degree ≤ 1)
    (splits : terms.foldlM Constraint.splitTerm parts = some parts') :
    parts'.quadraticTerms = parts.quadraticTerms := by
  induction terms generalizing parts with
  | nil =>
      rw [List.foldlM_nil] at splits
      cases splits
      rfl
  | cons term terms inductionHypothesis =>
      rw [List.foldlM_cons] at splits
      obtain ⟨next, step, rest⟩ := Option.bind_eq_some_iff.mp splits
      obtain ⟨headDegree, restDegrees⟩ := List.forall_mem_cons.mp degrees
      rw [inductionHypothesis restDegrees rest, quadraticTerms_of_splitTerm headDegree step]

/-- A linear constraint becomes an input of the same value. -/
theorem LookupInput.evaluate_of_ofConstraint {c : Constraint} (shape : c.WellFormed)
    (degree : c.degree ≤ 1) :
    ∃ input, LookupInput.ofConstraint c = some input ∧
      ∀ assignment, input.evaluate assignment = c.evaluate assignment := by
  obtain ⟨n, normalizes, normal, shrinks, sameValue, idempotent⟩ :=
    Constraints.normalize_exact shape (degree.trans Nat.one_le_ofNat)
  have linear : n.degree ≤ 1 := shrinks.trans degree
  obtain ⟨parts, splits, polynomials⟩ := normal.splitMaxQuadratic (linear.trans Nat.one_le_ofNat)
  have noQuadratic : parts.quadraticTerms = [] := by
    rw [Constraint.splitMaxQuadratic, idempotent] at splits
    exact quadraticTerms_of_foldlM (Constraints.degreeOf_le_iff.mp linear) splits
  refine ⟨.expression parts.linearTerms parts.constantTerm, ?_, ?_⟩
  · simp only [LookupInput.ofConstraint, Fft.guard_of degree, normalizes, splits,
      Option.bind_eq_bind, Option.bind_some]
  · intro assignment
    rw [← sameValue assignment, Constraint.evaluate_eq, ← polynomials,
      Constraints.MaxQuadratic.polynomial, noQuadratic]
    simp only [List.map_nil, List.sum_nil, zero_add, map_add, map_list_sum, List.map_map,
      MvPolynomial.eval_C]
    rw [LookupInput.evaluate]
    congr 2
    apply List.map_congr_left
    intro term _
    simp [MvPolynomial.eval_C, MvPolynomial.eval_X]

end Airbender.Compiler
