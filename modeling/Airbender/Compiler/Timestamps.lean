import Airbender.Compiler.LookupExpression
import Airbender.Lib.NestedList

/-!
# Timestamp comparisons

A timestamp has two limbs of 19 bits.  A read at a time before a write is proved by two range
checks on the limbs of the difference, with a boolean borrow between them.
-/

namespace Airbender.Compiler

open Circuit (F fromBoolean IsBoolean)
open Mersenne31 (Element)
open Constraints (Variable Constraint Term)

/-- `TIMESTAMP_COLUMNS_NUM_BITS`. -/
def timestampColumnsNumBits : Nat := 19

/-! ## Shuffle RAM -/

structure ShuffleRamTimestampComparisonPartialData where
  intermediateBorrow : Variable
  readTimestamp : Variable × Variable
  localTimestampInCycle : Nat

/-- The column of a limb of the write timestamp, in the memory or in the setup. -/
def writeTimestampPlace (useCircuitSeq : Bool) (timestampSetupColumns : ColumnSet 2)
    (cycleTimestamp : Option (ColumnSet 2)) (limb : Nat) : Option ColumnAddress :=
  match cycleTimestamp with
  | some cycleTimestamp => do
      guard (useCircuitSeq = false)
      some (.memorySubtree (cycleTimestamp.start + limb))
  | none => do
      guard (useCircuitSeq = true)
      some (.setupSubtree (timestampSetupColumns.start + limb))

/-- The two expressions of one access. -/
def compileTimestampComparison (useCircuitSeq : Bool) (layout : Variable → Option ColumnAddress)
    (timestampSetupColumns : ColumnSet 2) (cycleTimestamp : Option (ColumnSet 2))
    (data : ShuffleRamTimestampComparisonPartialData) : Option (List LookupExpression) := do
  -- low part
  let shift ← Element.fromU64Unchecked (1 <<< timestampColumnsNumBits)
  let borrowPlace ← layout data.intermediateBorrow
  let readLowPlace ← layout data.readTimestamp.1
  let writeLowPlace ← writeTimestampPlace useCircuitSeq timestampSetupColumns cycleTimestamp 0
  let constantCoeff ← Element.fromU64Unchecked (BitVec.ofNat 64 data.localTimestampInCycle)
  let low := LookupExpression.expression
    ⟨[(shift, borrowPlace), (Element.one, readLowPlace), (Element.minusOne, writeLowPlace)],
      constantCoeff.negate⟩
  -- high part
  let readHighPlace ← layout data.readTimestamp.2
  let writeHighPlace ← writeTimestampPlace useCircuitSeq timestampSetupColumns cycleTimestamp 1
  let high := LookupExpression.expression
    ⟨[(Element.one, readHighPlace), (Element.minusOne, writeHighPlace),
      (Element.minusOne, borrowPlace)], shift⟩
  some [low, high]

/-- The expressions, and the offset from which on the circuit sequence contributes. -/
def compileTimestampRangeCheckExpressions (useCircuitSeq : Bool) (traceLen : Nat)
    (inputs : List LookupInput) (partialSets : List ShuffleRamTimestampComparisonPartialData)
    (layout : Variable → Option ColumnAddress) (timestampSetupColumns : ColumnSet 2)
    (cycleTimestamp : Option (ColumnSet 2)) : Option (Nat × List LookupExpression) := do
  let expressions ← inputs.mapM (LookupInput.compile layout)
  let offset := expressions.length
  let comparisons ← partialSets.mapM
    (compileTimestampComparison useCircuitSeq layout timestampSetupColumns cycleTimestamp)
  let expressions := expressions ++ comparisons.flatten
  let offset := if useCircuitSeq then offset else expressions.length
  guard (expressions.length * traceLen < Circuit.modulus)
  some (offset, expressions)

/-! ## Delegation circuits -/

/-- The compiler variables of one register or indirect access. -/
structure DelegationTimestampVariables where
  timestampBorrow : Variable
  readTimestampLow : Variable
  readTimestampHigh : Variable

/-- The expressions that `compile_inner` makes for one access of a delegation circuit.  The
predicate stands in the high one, so that rows without a delegation can be padded. -/
def delegationTimestampComparison (predicate timestampLow timestampHigh : Variable)
    (access : DelegationTimestampVariables) : Option (List LookupInput) := do
  let shift ← Element.fromU64Unchecked (1 <<< timestampColumnsNumBits)
  let exprLow ← LookupInput.ofConstraint
    (((Constraint.empty.addTerm (Term.ofScaledVariable shift access.timestampBorrow)).addTerm
      (Term.ofVariable access.readTimestampLow)).subTerm (Term.ofVariable timestampLow))
  let exprHigh ← LookupInput.ofConstraint
    ((((Constraint.empty.addTerm (Term.ofScaledVariable shift predicate)).addTerm
      (Term.ofVariable access.readTimestampHigh)).subTerm
      (Term.ofVariable timestampHigh)).subTerm (Term.ofVariable access.timestampBorrow))
  some [exprLow, exprHigh]

/-- The loop over the accesses: every register access, each followed by its indirect ones. -/
def delegationTimestampExpressions (predicate timestampLow timestampHigh : Variable)
    (accesses : List DelegationTimestampVariables) : Option (List LookupInput) := do
  let expressions ←
    accesses.mapM (delegationTimestampComparison predicate timestampLow timestampHigh)
  some expressions.flatten

/-! ## The next timestamp -/

/-- The constraints of the unrolled circuits on the timestamps of a cycle.  The high one has no
carry out. -/
def nextTimestampConstraints (startTimestamp endTimestamp : Variable × Variable)
    (intermediateCarry : Variable) : Option (Constraint × Constraint) := do
  let shift := Element.fromU64WithReduction (1 <<< timestampColumnsNumBits)
  let step ← Term.ofU64 timestampStep
  let low := (((Constraint.ofVariable endTimestamp.1).addTerm
    (Term.ofScaledVariable shift intermediateCarry)).subTerm
    (Term.ofVariable startTimestamp.1)).subTerm step
  let high := ((Constraint.ofVariable endTimestamp.2).subTerm
    (Term.ofVariable startTimestamp.2)).subTerm (Term.ofVariable intermediateCarry)
  some (low, high)

/-! ## Range checks -/

/-- The value that is range-checked at an index.  From the offset on, the circuit sequence
contributes to the second expression of each pair. -/
def timestampRangeCheckValue (row : Row) (timestampHighContribution : F) (offset : Nat)
    (expressions : List LookupExpression) (index : Nat) : Option F := do
  let expression ← expressions[index]?
  let value ← expression.evaluateAtRow row
  some (if offset ≤ index ∧ (index - offset) % 2 = 1 then value - timestampHighContribution
    else value)

/-- A field element that the timestamp range check accepts. -/
def IsTimestampLimb (x : F) : Prop := x.val < 2 ^ timestampColumnsNumBits

instance (x : F) : Decidable (IsTimestampLimb x) := inferInstanceAs (Decidable (_ < _))

/-- The range check at an index passes. -/
def PassesTimestampCheck (row : Row) (timestampHighContribution : F) (offset : Nat)
    (expressions : List LookupExpression) (index : Nat) : Prop :=
  ∃ value, timestampRangeCheckValue row timestampHighContribution offset expressions index =
    some value ∧ IsTimestampLimb value

/-- A row with another value in one column of the witness. -/
def Row.setWitness (row : Row) (column : Nat) (value : F) : Row :=
  { row with witness := Function.update row.witness column value }

/-- Both expressions of a pair pass with the borrow in its column. -/
def AcceptsBorrow (row : Row) (timestampHighContribution : F) (offset : Nat)
    (expressions : List LookupExpression) (index column : Nat) (borrow : Bool) : Prop :=
  PassesTimestampCheck (row.setWitness column (fromBoolean borrow)) timestampHighContribution
      offset expressions index ∧
    PassesTimestampCheck (row.setWitness column (fromBoolean borrow)) timestampHighContribution
      offset expressions (index + 1)

/-- The integer that two limbs stand for. -/
def timestampOf (low high : F) : Nat := low.val + 2 ^ timestampColumnsNumBits * high.val

/-! ## The comparison over the integers -/

theorem isTimestampLimb_intCast {z : ℤ} (lower : -2097152 ≤ z) (upper : z < 2097152) :
    IsTimestampLimb (z : F) ↔ 0 ≤ z ∧ z < 524288 := by
  have residue : ((z : F).val : ℤ) = z % 2147483647 := ZMod.val_intCast z
  have width : 2 ^ timestampColumnsNumBits = 524288 := by decide
  rw [IsTimestampLimb, width]
  omega

/-- The limbs of a difference are in range for one borrow, and only if the difference is
negative. -/
theorem limbs_inRange_iff {readLow readHigh writeLow writeHigh borrow : ℤ}
    (readLowRange : 0 ≤ readLow ∧ readLow < 524288)
    (readHighRange : 0 ≤ readHigh ∧ readHigh < 524288)
    (writeLowRange : 0 ≤ writeLow ∧ writeLow < 524288)
    (writeHighRange : 0 ≤ writeHigh ∧ writeHigh < 524288) (boolean : borrow = 0 ∨ borrow = 1) :
    ((0 ≤ 524288 * borrow + readLow - writeLow ∧ 524288 * borrow + readLow - writeLow < 524288) ∧
      0 ≤ 524288 + readHigh - writeHigh - borrow ∧
        524288 + readHigh - writeHigh - borrow < 524288) ↔
      readLow + 524288 * readHigh < writeLow + 524288 * writeHigh ∧
        (borrow = 1 ↔ readLow < writeLow) := by
  omega

/-- Two field expressions of a comparison, against a write timestamp and an access index that
does not carry out of the low limb. -/
theorem comparison_iff {readLow readHigh writeLow writeHigh : F} {i : Nat}
    (readLowRange : IsTimestampLimb readLow) (readHighRange : IsTimestampLimb readHigh)
    (writeLowRange : writeLow.val + i < 2 ^ timestampColumnsNumBits)
    (writeHighRange : IsTimestampLimb writeHigh) (borrow : Bool) :
    (IsTimestampLimb (524288 * fromBoolean borrow + readLow - writeLow - (i : F)) ∧
      IsTimestampLimb (524288 + readHigh - writeHigh - fromBoolean borrow)) ↔
      timestampOf readLow readHigh < timestampOf writeLow writeHigh + i ∧
        (borrow = true ↔ readLow.val < writeLow.val + i) := by
  have width : 2 ^ timestampColumnsNumBits = 524288 := by decide
  rw [IsTimestampLimb, width] at readLowRange readHighRange writeHighRange
  rw [width] at writeLowRange
  have low : 524288 * fromBoolean borrow + readLow - writeLow - (i : F) =
      ((524288 * (borrow.toNat : ℤ) + readLow.val - (writeLow.val + i : ℤ) : ℤ) : F) := by
    rw [Circuit.fromBoolean_eq]
    push_cast [ZMod.natCast_zmod_val]
    ring
  have high : 524288 + readHigh - writeHigh - fromBoolean borrow =
      ((524288 + readHigh.val - writeHigh.val - (borrow.toNat : ℤ) : ℤ) : F) := by
    rw [Circuit.fromBoolean_eq]
    push_cast [ZMod.natCast_zmod_val]
    ring
  have boolean : (borrow.toNat : ℤ) = 0 ∨ (borrow.toNat : ℤ) = 1 := by
    cases borrow with
    | false => exact Or.inl rfl
    | true => exact Or.inr rfl
  have flag : borrow = true ↔ (borrow.toNat : ℤ) = 1 := by
    cases borrow with
    | false => exact iff_of_false nofun (by decide)
    | true => exact iff_of_true rfl rfl
  rw [low, high, isTimestampLimb_intCast (by omega) (by omega),
    isTimestampLimb_intCast (by omega) (by omega),
    limbs_inRange_iff ⟨by omega, by omega⟩ ⟨by omega, by omega⟩ ⟨by omega, by omega⟩
      ⟨by omega, by omega⟩ boolean, timestampOf, timestampOf, width, flag]
  omega

/-! ## What the expressions evaluate to -/

theorem fromU64Unchecked_shift :
    ∃ shift, Element.fromU64Unchecked (1 <<< timestampColumnsNumBits) = some shift ∧
      shift.value = 524288 :=
  ⟨⟨524288, by decide⟩, by decide, rfl⟩

theorem fromU64Unchecked_ofNat {n : Nat} (bound : n < 2 ^ 31) :
    ∃ element, Element.fromU64Unchecked (BitVec.ofNat 64 n) = some element ∧
      element.value = (n : F) := by
  have low : ((BitVec.ofNat 64 n).setWidth 32 : U32).toNat = n := by
    rw [BitVec.toNat_setWidth, BitVec.toNat_ofNat]
    omega
  refine ⟨⟨(BitVec.ofNat 64 n).setWidth 32, by omega⟩, ?_, ?_⟩
  · rw [Element.fromU64Unchecked, dif_pos (by omega)]
  · rw [Element.value, low]

/-- The limb of the write timestamp that a row holds. -/
def writeTimestampLimb (row : Row) (timestampSetupColumns : ColumnSet 2)
    (cycleTimestamp : Option (ColumnSet 2)) (limb : Nat) : F :=
  match cycleTimestamp with
  | some cycleTimestamp => row.memory (cycleTimestamp.start + limb)
  | none => row.setup (timestampSetupColumns.start + limb)

theorem readValue_writeTimestampPlace {useCircuitSeq : Bool} {timestampSetupColumns : ColumnSet 2}
    {cycleTimestamp : Option (ColumnSet 2)} {limb : Nat} {place : ColumnAddress}
    (placed : writeTimestampPlace useCircuitSeq timestampSetupColumns cycleTimestamp limb =
      some place) (row : Row) :
    readValueWithSetupAccess row place =
      some (writeTimestampLimb row timestampSetupColumns cycleTimestamp limb) := by
  cases cycleTimestamp with
  | none =>
      obtain ⟨_, _, same⟩ := Option.bind_eq_some_iff.mp placed
      cases same
      rfl
  | some columns =>
      obtain ⟨_, _, same⟩ := Option.bind_eq_some_iff.mp placed
      cases same
      rfl

theorem evaluateAtRow_of_three {row : Row} {first second third constant : Element}
    {firstPlace secondPlace thirdPlace : ColumnAddress} {x y z : F}
    (readsFirst : readValueWithSetupAccess row firstPlace = some x)
    (readsSecond : readValueWithSetupAccess row secondPlace = some y)
    (readsThird : readValueWithSetupAccess row thirdPlace = some z) :
    LookupExpression.evaluateAtRow row (.expression
      ⟨[(first, firstPlace), (second, secondPlace), (third, thirdPlace)], constant⟩) =
        some (constant.value + x * first.value + y * second.value + z * third.value) := by
  simp only [LookupExpression.evaluateAtRow, CompiledDegree1Constraint.evaluateAtRow,
    List.foldlM_cons, List.foldlM_nil, readsFirst, readsSecond, readsThird, Option.bind_eq_bind,
    Option.bind_some, Option.pure_def]

section ShuffleRam

variable {useCircuitSeq : Bool} {layout : Variable → Option ColumnAddress}
  {timestampSetupColumns : ColumnSet 2} {cycleTimestamp : Option (ColumnSet 2)}

theorem compileTimestampComparison_spec {data : ShuffleRamTimestampComparisonPartialData}
    {pair : List LookupExpression}
    (compiles : compileTimestampComparison useCircuitSeq layout timestampSetupColumns
      cycleTimestamp data = some pair)
    (readable : Readable layout) (localBound : data.localTimestampInCycle < 4) :
    ∃ low high, pair = [low, high] ∧ ∀ row,
      low.evaluateAtRow row = some (524288 * valueOf layout row data.intermediateBorrow +
        valueOf layout row data.readTimestamp.1 -
        writeTimestampLimb row timestampSetupColumns cycleTimestamp 0 -
        (data.localTimestampInCycle : F)) ∧
      high.evaluateAtRow row = some (524288 + valueOf layout row data.readTimestamp.2 -
        writeTimestampLimb row timestampSetupColumns cycleTimestamp 1 -
        valueOf layout row data.intermediateBorrow) := by
  obtain ⟨shift, shiftComputed, shiftValue⟩ := fromU64Unchecked_shift
  obtain ⟨constantCoeff, coeffComputed, coeffValue⟩ :=
    fromU64Unchecked_ofNat (n := data.localTimestampInCycle) (by omega)
  simp only [compileTimestampComparison, shiftComputed, coeffComputed, Option.bind_eq_bind,
    Option.bind_some, Option.bind_eq_some_iff] at compiles
  obtain ⟨borrowPlace, borrowPlaced, readLowPlace, readLowPlaced, writeLowPlace, writeLowPlaced,
    readHighPlace, readHighPlaced, writeHighPlace, writeHighPlaced, same⟩ := compiles
  cases same
  refine ⟨_, _, rfl, ?_⟩
  intro row
  have borrow := readValue_of_readable readable borrowPlaced row
  have readLow := readValue_of_readable readable readLowPlaced row
  have readHigh := readValue_of_readable readable readHighPlaced row
  have writeLow := readValue_writeTimestampPlace writeLowPlaced row
  have writeHigh := readValue_writeTimestampPlace writeHighPlaced row
  constructor
  · rw [evaluateAtRow_of_three borrow readLow writeLow, Element.value_negate, coeffValue,
      shiftValue, Element.value_one, Element.value_minusOne]
    congr 1
    ring
  · rw [evaluateAtRow_of_three readHigh writeHigh borrow, shiftValue, Element.value_one,
      Element.value_minusOne]
    congr 1
    ring

/-- The two values that are range-checked for an access. -/
theorem timestampRangeCheckValue_of_partialSet {traceLen : Nat} {inputs : List LookupInput}
    {partialSets : List ShuffleRamTimestampComparisonPartialData} {offset : Nat}
    {expressions : List LookupExpression}
    (compiles : compileTimestampRangeCheckExpressions useCircuitSeq traceLen inputs partialSets
      layout timestampSetupColumns cycleTimestamp = some (offset, expressions))
    (readable : Readable layout) {i : Nat} {data : ShuffleRamTimestampComparisonPartialData}
    (found : partialSets[i]? = some data) (localBound : data.localTimestampInCycle < 4)
    (row : Row) (timestampHighContribution : F) :
    timestampRangeCheckValue row timestampHighContribution offset expressions
        (inputs.length + 2 * i) =
      some (524288 * valueOf layout row data.intermediateBorrow +
        valueOf layout row data.readTimestamp.1 -
        writeTimestampLimb row timestampSetupColumns cycleTimestamp 0 -
        (data.localTimestampInCycle : F)) ∧
    timestampRangeCheckValue row timestampHighContribution offset expressions
        (inputs.length + 2 * i + 1) =
      some (524288 + valueOf layout row data.readTimestamp.2 -
        (writeTimestampLimb row timestampSetupColumns cycleTimestamp 1 +
          if useCircuitSeq then timestampHighContribution else 0) -
        valueOf layout row data.intermediateBorrow) := by
  simp only [compileTimestampRangeCheckExpressions, Option.bind_eq_bind,
    Option.bind_eq_some_iff] at compiles
  obtain ⟨front, frontCompiles, comparisons, comparisonsCompile, _, _, same⟩ := compiles
  have frontLength := NestedList.length_of_mapM frontCompiles
  obtain ⟨pair, pairFound, pairCompiles⟩ := NestedList.getElem?_of_mapM comparisonsCompile found
  obtain ⟨low, high, rfl, evaluates⟩ :=
    compileTimestampComparison_spec pairCompiles readable localBound
  have pairs : ∀ list ∈ comparisons, list.length = 2 := by
    refine NestedList.forall_mem_of_mapM (p := fun list => list.length = 2) comparisonsCompile ?_
    intro data pair computed
    simp only [compileTimestampComparison, Option.bind_eq_bind, Option.bind_eq_some_iff]
      at computed
    obtain ⟨_, _, _, _, _, _, _, _, _, _, _, _, _, _, shape⟩ := computed
    rw [← Option.some.inj shape]
    rfl
  have lowFound := NestedList.getElem?_flatten_of_length pairs pairFound Nat.two_pos
  have highFound := NestedList.getElem?_flatten_of_length pairs pairFound Nat.one_lt_two
  have lowAt : (front ++ comparisons.flatten)[inputs.length + 2 * i]? = some low := by
    rw [List.getElem?_append_right (by omega), frontLength, Nat.add_sub_cancel_left]
    exact lowFound
  have highAt : (front ++ comparisons.flatten)[inputs.length + 2 * i + 1]? = some high := by
    rw [List.getElem?_append_right (by omega), frontLength, Nat.add_assoc,
      Nat.add_sub_cancel_left]
    exact highFound
  have inside := (List.getElem?_eq_some_iff.mp highAt).1
  have evaluated := evaluates row
  cases same
  cases useCircuitSeq with
  | false =>
      have lowBefore : ¬ ((front ++ comparisons.flatten).length ≤ inputs.length + 2 * i ∧
          (inputs.length + 2 * i - (front ++ comparisons.flatten).length) % 2 = 1) := by omega
      have highBefore : ¬ ((front ++ comparisons.flatten).length ≤ inputs.length + 2 * i + 1 ∧
          (inputs.length + 2 * i + 1 - (front ++ comparisons.flatten).length) % 2 = 1) := by omega
      simp only [timestampRangeCheckValue, lowAt, highAt, evaluated.1, evaluated.2,
        Option.bind_eq_bind, Option.bind_some, Bool.false_eq_true, if_false, if_neg lowBefore,
        if_neg highBefore, add_zero, and_self]
  | true =>
      have lowPlain : ¬ (front.length ≤ inputs.length + 2 * i ∧
          (inputs.length + 2 * i - front.length) % 2 = 1) := by omega
      have highExtra : front.length ≤ inputs.length + 2 * i + 1 ∧
          (inputs.length + 2 * i + 1 - front.length) % 2 = 1 := by omega
      simp only [timestampRangeCheckValue, lowAt, highAt, evaluated.1, evaluated.2,
        Option.bind_eq_bind, Option.bind_some, if_true, if_neg lowPlain, if_pos highExtra,
        true_and]
      congr 1
      ring

end ShuffleRam

/-! ## The borrow -/

/-- The columns of an access: the borrow in the witness, the read timestamp in the memory. -/
structure AccessPlaced (layout : Variable → Option ColumnAddress)
    (borrow readLow readHigh : Variable) (column : Nat) : Prop where
  borrow : layout borrow = some (.witnessSubtree column)
  readLow : ∃ offset, layout readLow = some (.memorySubtree offset)
  readHigh : ∃ offset, layout readHigh = some (.memorySubtree offset)

section Borrow

variable {layout : Variable → Option ColumnAddress} {row : Row} {column : Nat} {value : F}

theorem valueOf_setWitness {var : Variable} (placed : layout var = some (.witnessSubtree column)) :
    valueOf layout (row.setWitness column value) var = value := by
  rw [valueOf, placed]
  exact Function.update_self column value row.witness

theorem valueOf_setWitness_of_memory {var : Variable}
    (placed : ∃ offset, layout var = some (.memorySubtree offset)) :
    valueOf layout (row.setWitness column value) var = valueOf layout row var := by
  obtain ⟨offset, placed⟩ := placed
  rw [valueOf, valueOf, placed]
  rfl

theorem writeTimestampLimb_setWitness (timestampSetupColumns : ColumnSet 2)
    (cycleTimestamp : Option (ColumnSet 2)) (limb : Nat) :
    writeTimestampLimb (row.setWitness column value) timestampSetupColumns cycleTimestamp limb =
      writeTimestampLimb row timestampSetupColumns cycleTimestamp limb := by
  cases cycleTimestamp with
  | none => rfl
  | some columns => rfl

end Borrow

/-- A borrow is accepted exactly for reads before the write, and only one is. -/
def IsExactComparison (accepts : Bool → Prop) (read write : Nat) : Prop :=
  ((∃ borrow, accepts borrow) ↔ read < write) ∧
    ∀ borrow borrow', accepts borrow → accepts borrow' → borrow = borrow'

theorem isExactComparison_of_iff {accepts : Bool → Prop} {read write : Nat} (carries : Prop)
    [Decidable carries]
    (accepted : ∀ borrow, accepts borrow ↔ read < write ∧ (borrow = true ↔ carries)) :
    IsExactComparison accepts read write := by
  constructor
  · constructor
    · rintro ⟨borrow, accepts⟩
      exact ((accepted borrow).mp accepts).1
    · intro before
      exact ⟨decide carries, (accepted _).mpr ⟨before, decide_eq_true_iff⟩⟩
  · intro borrow borrow' accepts accepts'
    have first := ((accepted borrow).mp accepts).2
    have second := ((accepted borrow').mp accepts').2
    exact Bool.eq_iff_iff.mpr (first.trans second.symm)

theorem passesTimestampCheck_iff {row : Row} {timestampHighContribution value : F}
    {offset index : Nat} {expressions : List LookupExpression}
    (checked : timestampRangeCheckValue row timestampHighContribution offset expressions index =
      some value) :
    PassesTimestampCheck row timestampHighContribution offset expressions index ↔
      IsTimestampLimb value := by
  rw [PassesTimestampCheck, checked]
  constructor
  · rintro ⟨other, same, inRange⟩
    cases same
    exact inRange
  · intro inRange
    exact ⟨value, rfl, inRange⟩

theorem aligned_add_lt {n index : Nat} (bound : n < 2 ^ timestampColumnsNumBits)
    (aligned : n % 4 = 0) (small : index < 4) : n + index < 2 ^ timestampColumnsNumBits := by
  have width : 2 ^ timestampColumnsNumBits = 524288 := by decide
  omega

/-! ## Linear constraints -/

section Linear

variable {c : Constraint} (assignment : Variable → F)

theorem evaluate_addTerm (term : Term) :
    (c.addTerm term).evaluate assignment = c.evaluate assignment + term.evaluate assignment := by
  rw [Constraint.evaluate_eq, Constraint.polynomial_addTerm, map_add, ← Constraint.evaluate_eq,
    ← Term.evaluate_eq]

theorem evaluate_subTerm (term : Term) :
    (c.subTerm term).evaluate assignment = c.evaluate assignment - term.evaluate assignment := by
  rw [Constraint.evaluate_eq, Constraint.polynomial_subTerm, map_sub, ← Constraint.evaluate_eq,
    ← Term.evaluate_eq]

theorem evaluate_ofScaledVariable (coeff : Element) (var : Variable) :
    (Term.ofScaledVariable coeff var).evaluate assignment = coeff.value * assignment var := by
  rw [Term.evaluate_eq, Term.polynomial_ofScaledVariable, map_mul, MvPolynomial.eval_C,
    MvPolynomial.eval_X]

theorem evaluate_ofVariable (var : Variable) :
    (Term.ofVariable var).evaluate assignment = assignment var := by
  rw [Term.ofVariable, evaluate_ofScaledVariable, Element.value_one, one_mul]

/-- The shape that a constraint needs as a lookup input. -/
def IsLinear (c : Constraint) : Prop := c.WellFormed ∧ c.degree ≤ 1

theorem isLinear_empty : IsLinear Constraint.empty :=
  ⟨Constraint.wellFormed_empty, Nat.zero_le 1⟩

theorem IsLinear.addScaled (linear : IsLinear c) (coeff : Element) (var : Variable) :
    IsLinear (c.addTerm (Term.ofScaledVariable coeff var)) :=
  ⟨linear.1.addTerm (Term.wellFormed_ofScaledVariable coeff var),
    Constraint.degree_addTerm_le linear.2 (le_refl 1)⟩

theorem IsLinear.addVariable (linear : IsLinear c) (var : Variable) :
    IsLinear (c.addTerm (Term.ofVariable var)) :=
  linear.addScaled Element.one var

theorem IsLinear.subVariable (linear : IsLinear c) (var : Variable) :
    IsLinear (c.subTerm (Term.ofVariable var)) :=
  linear.addScaled (Element.one.mulAssign Element.minusOne) var

end Linear

/-! ## Delegation circuits -/

theorem delegationTimestampComparison_spec (predicate timestampLow timestampHigh : Variable)
    (access : DelegationTimestampVariables) :
    ∃ low high, delegationTimestampComparison predicate timestampLow timestampHigh access =
        some [low, high] ∧ ∀ assignment,
      low.evaluate assignment = 524288 * assignment access.timestampBorrow +
        assignment access.readTimestampLow - assignment timestampLow ∧
      high.evaluate assignment = 524288 * assignment predicate +
        assignment access.readTimestampHigh - assignment timestampHigh -
        assignment access.timestampBorrow := by
  obtain ⟨shift, shiftComputed, shiftValue⟩ := fromU64Unchecked_shift
  have lowLinear := ((isLinear_empty.addScaled shift access.timestampBorrow).addVariable
    access.readTimestampLow).subVariable timestampLow
  have highLinear := (((isLinear_empty.addScaled shift predicate).addVariable
    access.readTimestampHigh).subVariable timestampHigh).subVariable access.timestampBorrow
  obtain ⟨low, lowComputed, lowValue⟩ :=
    LookupInput.evaluate_of_ofConstraint lowLinear.1 lowLinear.2
  obtain ⟨high, highComputed, highValue⟩ :=
    LookupInput.evaluate_of_ofConstraint highLinear.1 highLinear.2
  refine ⟨low, high, ?_, ?_⟩
  · simp only [delegationTimestampComparison, shiftComputed, lowComputed, highComputed,
      Option.bind_eq_bind, Option.bind_some]
  · intro assignment
    have zero : Constraint.empty.evaluate assignment = 0 := rfl
    rw [lowValue, highValue, evaluate_subTerm, evaluate_subTerm, evaluate_subTerm,
      evaluate_addTerm, evaluate_addTerm, evaluate_addTerm, evaluate_addTerm, zero]
    simp only [evaluate_ofScaledVariable, evaluate_ofVariable, shiftValue, zero_add, and_self]

section Delegation

variable {predicate timestampLow timestampHigh : Variable}
  {accesses : List DelegationTimestampVariables} {inputs : List LookupInput}
  {traceLen offset : Nat} {layout : Variable → Option ColumnAddress}
  {timestampSetupColumns : ColumnSet 2} {expressions : List LookupExpression}

/-- The inputs come first, and nothing is added to their values. -/
theorem timestampRangeCheckValue_of_input {useCircuitSeq : Bool}
    {cycleTimestamp : Option (ColumnSet 2)}
    {partialSets : List ShuffleRamTimestampComparisonPartialData}
    (compiles : compileTimestampRangeCheckExpressions useCircuitSeq traceLen inputs partialSets
      layout timestampSetupColumns cycleTimestamp = some (offset, expressions))
    (readable : Readable layout) {i : Nat} {input : LookupInput}
    (found : inputs[i]? = some input) (row : Row) (timestampHighContribution : F) :
    timestampRangeCheckValue row timestampHighContribution offset expressions i =
      some (input.evaluate (valueOf layout row)) := by
  simp only [compileTimestampRangeCheckExpressions, Option.bind_eq_bind,
    Option.bind_eq_some_iff] at compiles
  obtain ⟨front, frontCompiles, comparisons, _, _, _, same⟩ := compiles
  have frontLength := NestedList.length_of_mapM frontCompiles
  obtain ⟨compiled, atIndex, inputCompiles⟩ := NestedList.getElem?_of_mapM frontCompiles found
  have inside := (List.getElem?_eq_some_iff.mp atIndex).1
  have whole : (front ++ comparisons.flatten)[i]? = some compiled := by
    rw [List.getElem?_append_left inside, atIndex]
  have total := @List.length_append _ front comparisons.flatten
  have evaluates := LookupInput.evaluateAtRow_of_compile readable row inputCompiles
  cases same
  have before : ¬ ((if useCircuitSeq = true then front.length
        else (front ++ comparisons.flatten).length) ≤ i ∧
      (i - if useCircuitSeq = true then front.length
        else (front ++ comparisons.flatten).length) % 2 = 1) := by
    split
    · omega
    · omega
  simp only [timestampRangeCheckValue, whole, evaluates, Option.bind_eq_bind, Option.bind_some,
    if_neg before]

/-- The two values that are range-checked for an access of a delegation circuit. -/
theorem timestampRangeCheckValue_of_access
    (expressed : delegationTimestampExpressions predicate timestampLow timestampHigh accesses =
      some inputs)
    (compiles : compileTimestampRangeCheckExpressions true traceLen inputs [] layout
      timestampSetupColumns none = some (offset, expressions))
    (readable : Readable layout) {i : Nat} {access : DelegationTimestampVariables}
    (found : accesses[i]? = some access) (row : Row) (timestampHighContribution : F) :
    timestampRangeCheckValue row timestampHighContribution offset expressions (2 * i) =
      some (524288 * valueOf layout row access.timestampBorrow +
        valueOf layout row access.readTimestampLow - valueOf layout row timestampLow) ∧
    timestampRangeCheckValue row timestampHighContribution offset expressions (2 * i + 1) =
      some (524288 * valueOf layout row predicate +
        valueOf layout row access.readTimestampHigh - valueOf layout row timestampHigh -
        valueOf layout row access.timestampBorrow) := by
  obtain ⟨pairs, pairsComputed, same⟩ := Option.bind_eq_some_iff.mp expressed
  cases same
  have lengths : ∀ list ∈ pairs, list.length = 2 := by
    refine NestedList.forall_mem_of_mapM (p := fun list => list.length = 2) pairsComputed ?_
    intro access pair pairComputed
    obtain ⟨low, high, computed, _⟩ :=
      delegationTimestampComparison_spec predicate timestampLow timestampHigh access
    rw [computed] at pairComputed
    rw [← Option.some.inj pairComputed]
    rfl
  obtain ⟨pair, pairFound, pairComputed⟩ := NestedList.getElem?_of_mapM pairsComputed found
  obtain ⟨low, high, computed, evaluates⟩ :=
    delegationTimestampComparison_spec predicate timestampLow timestampHigh access
  rw [computed] at pairComputed
  cases pairComputed
  have lowFound := NestedList.getElem?_flatten_of_length lengths pairFound Nat.two_pos
  have highFound := NestedList.getElem?_flatten_of_length lengths pairFound Nat.one_lt_two
  have evaluated := evaluates (valueOf layout row)
  constructor
  · rw [← evaluated.1]
    exact timestampRangeCheckValue_of_input compiles readable lowFound row _
  · rw [← evaluated.2]
    exact timestampRangeCheckValue_of_input compiles readable highFound row _

end Delegation

/-! ## The next timestamp -/

/-- The two constraints hold exactly for the next timestamp, with the carry out of the low limb
as their carry. -/
theorem nextTimestampConstraints_iff {startTimestamp endTimestamp : Variable × Variable}
    {intermediateCarry : Variable} {low high : Constraint}
    (computed : nextTimestampConstraints startTimestamp endTimestamp intermediateCarry =
      some (low, high)) {assignment : Variable → F}
    (startLowRange : IsTimestampLimb (assignment startTimestamp.1))
    (startHighRange : IsTimestampLimb (assignment startTimestamp.2))
    (endLowRange : IsTimestampLimb (assignment endTimestamp.1))
    (endHighRange : IsTimestampLimb (assignment endTimestamp.2)) {carry : Bool}
    (boolean : assignment intermediateCarry = fromBoolean carry) :
    (low.evaluate assignment = 0 ∧ high.evaluate assignment = 0) ↔
      timestampOf (assignment endTimestamp.1) (assignment endTimestamp.2) =
          timestampOf (assignment startTimestamp.1) (assignment startTimestamp.2) + 4 ∧
        (carry = true ↔ 2 ^ timestampColumnsNumBits ≤ (assignment startTimestamp.1).val + 4) := by
  have step : Term.ofU64 timestampStep = some (.constant ⟨4, by decide⟩) := by decide
  have stepValue : (Element.mk 4 (by decide)).value = 4 := rfl
  have shiftValue :
      (Element.fromU64WithReduction (1 <<< timestampColumnsNumBits)).value = 524288 := by
    rw [Element.value_fromU64WithReduction]
    rfl
  simp only [nextTimestampConstraints, step, Option.bind_eq_bind, Option.bind_some,
    Option.some.injEq, Prod.mk.injEq] at computed
  obtain ⟨rfl, rfl⟩ := computed
  have constantTerm : ∀ c : Element, (Term.constant c).evaluate assignment = c.value := by
    intro c
    rw [Term.evaluate_eq, Term.polynomial_constant, MvPolynomial.eval_C]
  have single : ∀ var, (Constraint.ofVariable var).evaluate assignment = assignment var := by
    intro var
    rw [Constraint.evaluate_eq, Constraint.ofVariable, Constraint.polynomial_ofTerm,
      Term.polynomial_ofVariable, MvPolynomial.eval_X]
  rw [evaluate_subTerm, evaluate_subTerm, evaluate_addTerm, evaluate_subTerm, evaluate_subTerm,
    single, single, constantTerm, evaluate_ofScaledVariable, evaluate_ofVariable,
    evaluate_ofVariable, evaluate_ofVariable, shiftValue, stepValue, boolean]
  have width : 2 ^ timestampColumnsNumBits = 524288 := by decide
  rw [IsTimestampLimb, width] at startLowRange startHighRange endLowRange endHighRange
  have lowCast : assignment endTimestamp.1 + 524288 * fromBoolean carry -
      assignment startTimestamp.1 - 4 =
        (((assignment endTimestamp.1).val + 524288 * (carry.toNat : ℤ) -
          (assignment startTimestamp.1).val - 4 : ℤ) : F) := by
    rw [Circuit.fromBoolean_eq]
    push_cast [ZMod.natCast_zmod_val]
    ring
  have highCast : assignment endTimestamp.2 - assignment startTimestamp.2 - fromBoolean carry =
      (((assignment endTimestamp.2).val - (assignment startTimestamp.2).val -
        (carry.toNat : ℤ) : ℤ) : F) := by
    rw [Circuit.fromBoolean_eq]
    push_cast [ZMod.natCast_zmod_val]
    ring
  have small := Bool.toNat_le carry
  have flag : carry = true ↔ carry.toNat = 1 := by
    cases carry with
    | false => exact iff_of_false nofun (by decide)
    | true => exact iff_of_true rfl rfl
  have vanishes : ∀ z : ℤ, -2147483647 < z → z < 2147483647 → ((z : F) = 0 ↔ z = 0) := by
    intro z lower upper
    constructor
    · intro zero
      exact Circuit.eq_zero_of_small zero lower upper
    · rintro rfl
      exact Int.cast_zero
  rw [lowCast, highCast, vanishes _ (by omega) (by omega), vanishes _ (by omega) (by omega),
    timestampOf, timestampOf, width, flag]
  omega

/-! ## The comparisons are exact -/

/-- The column of a variable that `compile_inner` puts into the memory. -/
def InMemory (layout : Variable → Option ColumnAddress) (var : Variable) : Prop :=
  ∃ offset, layout var = some (.memorySubtree offset)

/-- An access of the main circuits or of an executor circuit. -/
theorem shuffleRamComparison_exact {useCircuitSeq : Bool} {traceLen offset i column : Nat}
    {inputs : List LookupInput} {partialSets : List ShuffleRamTimestampComparisonPartialData}
    {layout : Variable → Option ColumnAddress} {timestampSetupColumns : ColumnSet 2}
    {cycleTimestamp : Option (ColumnSet 2)} {expressions : List LookupExpression}
    (compiles : compileTimestampRangeCheckExpressions useCircuitSeq traceLen inputs partialSets
      layout timestampSetupColumns cycleTimestamp = some (offset, expressions))
    (readable : Readable layout) {data : ShuffleRamTimestampComparisonPartialData}
    (found : partialSets[i]? = some data) (localBound : data.localTimestampInCycle < 4)
    (placed : AccessPlaced layout data.intermediateBorrow data.readTimestamp.1
      data.readTimestamp.2 column)
    {row : Row} {timestampHighContribution writeLow writeHigh : F}
    (isWriteLow : writeLow = writeTimestampLimb row timestampSetupColumns cycleTimestamp 0)
    (isWriteHigh : writeHigh = writeTimestampLimb row timestampSetupColumns cycleTimestamp 1 +
      if useCircuitSeq then timestampHighContribution else 0)
    (writeLowRange : IsTimestampLimb writeLow) (aligned : writeLow.val % 4 = 0)
    (writeHighRange : IsTimestampLimb writeHigh)
    (readLowRange : IsTimestampLimb (valueOf layout row data.readTimestamp.1))
    (readHighRange : IsTimestampLimb (valueOf layout row data.readTimestamp.2)) :
    IsExactComparison (AcceptsBorrow row timestampHighContribution offset expressions
        (inputs.length + 2 * i) column)
      (timestampOf (valueOf layout row data.readTimestamp.1)
        (valueOf layout row data.readTimestamp.2))
      (timestampOf writeLow writeHigh + data.localTimestampInCycle) := by
  apply isExactComparison_of_iff
    ((valueOf layout row data.readTimestamp.1).val < writeLow.val + data.localTimestampInCycle)
  intro borrow
  have checked := timestampRangeCheckValue_of_partialSet compiles readable found localBound
    (row.setWitness column (fromBoolean borrow)) timestampHighContribution
  rw [valueOf_setWitness placed.borrow, valueOf_setWitness_of_memory placed.readLow,
    valueOf_setWitness_of_memory placed.readHigh, writeTimestampLimb_setWitness,
    writeTimestampLimb_setWitness, ← isWriteLow, ← isWriteHigh] at checked
  rw [AcceptsBorrow, passesTimestampCheck_iff checked.1, passesTimestampCheck_iff checked.2]
  exact comparison_iff readLowRange readHighRange
    (aligned_add_lt writeLowRange aligned localBound) writeHighRange borrow

section DelegationComparison

variable {predicate timestampLow timestampHigh : Variable}
  {accesses : List DelegationTimestampVariables} {inputs : List LookupInput}
  {traceLen offset i column : Nat} {layout : Variable → Option ColumnAddress}
  {timestampSetupColumns : ColumnSet 2} {expressions : List LookupExpression}
  {access : DelegationTimestampVariables} {row : Row}

/-- An access of a delegation circuit, at a row that processes a delegation. -/
theorem delegationComparison_exact
    (expressed : delegationTimestampExpressions predicate timestampLow timestampHigh accesses =
      some inputs)
    (compiles : compileTimestampRangeCheckExpressions true traceLen inputs [] layout
      timestampSetupColumns none = some (offset, expressions))
    (readable : Readable layout) (found : accesses[i]? = some access)
    (placed : AccessPlaced layout access.timestampBorrow access.readTimestampLow
      access.readTimestampHigh column)
    (predicatePlaced : InMemory layout predicate) (lowPlaced : InMemory layout timestampLow)
    (highPlaced : InMemory layout timestampHigh) (timestampHighContribution : F)
    (processes : valueOf layout row predicate = 1)
    (writeLowRange : IsTimestampLimb (valueOf layout row timestampLow))
    (writeHighRange : IsTimestampLimb (valueOf layout row timestampHigh))
    (readLowRange : IsTimestampLimb (valueOf layout row access.readTimestampLow))
    (readHighRange : IsTimestampLimb (valueOf layout row access.readTimestampHigh)) :
    IsExactComparison
      (AcceptsBorrow row timestampHighContribution offset expressions (2 * i) column)
      (timestampOf (valueOf layout row access.readTimestampLow)
        (valueOf layout row access.readTimestampHigh))
      (timestampOf (valueOf layout row timestampLow) (valueOf layout row timestampHigh)) := by
  apply isExactComparison_of_iff
    ((valueOf layout row access.readTimestampLow).val < (valueOf layout row timestampLow).val)
  intro borrow
  have checked := timestampRangeCheckValue_of_access expressed compiles readable found
    (row.setWitness column (fromBoolean borrow)) timestampHighContribution
  rw [valueOf_setWitness placed.borrow, valueOf_setWitness_of_memory placed.readLow,
    valueOf_setWitness_of_memory placed.readHigh, valueOf_setWitness_of_memory predicatePlaced,
    valueOf_setWitness_of_memory lowPlaced, valueOf_setWitness_of_memory highPlaced, processes,
    mul_one] at checked
  rw [AcceptsBorrow, passesTimestampCheck_iff checked.1, passesTimestampCheck_iff checked.2]
  have compared := comparison_iff (i := 0) readLowRange readHighRange writeLowRange
    writeHighRange borrow
  rw [Nat.cast_zero, sub_zero] at compared
  exact compared

/-- At a row without a delegation the conventions make all timestamps zero, and the comparison
accepts that. -/
theorem delegationComparison_ofPadding
    (expressed : delegationTimestampExpressions predicate timestampLow timestampHigh accesses =
      some inputs)
    (compiles : compileTimestampRangeCheckExpressions true traceLen inputs [] layout
      timestampSetupColumns none = some (offset, expressions))
    (readable : Readable layout) (found : accesses[i]? = some access)
    (placed : AccessPlaced layout access.timestampBorrow access.readTimestampLow
      access.readTimestampHigh column)
    (predicatePlaced : InMemory layout predicate) (lowPlaced : InMemory layout timestampLow)
    (highPlaced : InMemory layout timestampHigh) (timestampHighContribution : F)
    (padding : valueOf layout row predicate = 0) (lowZero : valueOf layout row timestampLow = 0)
    (highZero : valueOf layout row timestampHigh = 0)
    (readLowZero : valueOf layout row access.readTimestampLow = 0)
    (readHighZero : valueOf layout row access.readTimestampHigh = 0) (borrow : Bool) :
    AcceptsBorrow row timestampHighContribution offset expressions (2 * i) column borrow ↔
      borrow = false := by
  have checked := timestampRangeCheckValue_of_access expressed compiles readable found
    (row.setWitness column (fromBoolean borrow)) timestampHighContribution
  rw [valueOf_setWitness placed.borrow, valueOf_setWitness_of_memory placed.readLow,
    valueOf_setWitness_of_memory placed.readHigh, valueOf_setWitness_of_memory predicatePlaced,
    valueOf_setWitness_of_memory lowPlaced, valueOf_setWitness_of_memory highPlaced, padding,
    lowZero, highZero, readLowZero, readHighZero] at checked
  rw [AcceptsBorrow, passesTimestampCheck_iff checked.1, passesTimestampCheck_iff checked.2]
  cases borrow with
  | false => decide
  | true => decide

end DelegationComparison

theorem evaluate_variable (assignment : Variable → F) (var : Variable) :
    (LookupInput.variable var).evaluate assignment = assignment var := by
  simp only [LookupInput.evaluate, LookupInput.linearTerms, LookupInput.constantCoeff,
    List.map_cons, List.map_nil, List.sum_cons, List.sum_nil, Element.value_one,
    Element.value_zero, one_mul, add_zero]

/-- The timestamps of a cycle of the unrolled circuits, whose end limbs are the first two
expressions. -/
theorem nextTimestamp_exact {startTimestamp endTimestamp : Variable × Variable}
    {intermediateCarry : Variable} {low high : Constraint}
    (computed : nextTimestampConstraints startTimestamp endTimestamp intermediateCarry =
      some (low, high))
    {traceLen offset : Nat} {partialSets : List ShuffleRamTimestampComparisonPartialData}
    {layout : Variable → Option ColumnAddress} {timestampSetupColumns cycleTimestamp : ColumnSet 2}
    {expressions : List LookupExpression}
    (compiles : compileTimestampRangeCheckExpressions false traceLen
      [.variable endTimestamp.1, .variable endTimestamp.2] partialSets layout
      timestampSetupColumns (some cycleTimestamp) = some (offset, expressions))
    (readable : Readable layout) {row : Row} {timestampHighContribution : F}
    (endLowChecked : PassesTimestampCheck row timestampHighContribution offset expressions 0)
    (endHighChecked : PassesTimestampCheck row timestampHighContribution offset expressions 1)
    (boolean : IsBoolean (valueOf layout row intermediateCarry))
    (startLowRange : IsTimestampLimb (valueOf layout row startTimestamp.1))
    (startHighRange : IsTimestampLimb (valueOf layout row startTimestamp.2)) :
    (low.evaluate (valueOf layout row) = 0 ∧ high.evaluate (valueOf layout row) = 0) ↔
      timestampOf (valueOf layout row endTimestamp.1) (valueOf layout row endTimestamp.2) =
          timestampOf (valueOf layout row startTimestamp.1)
            (valueOf layout row startTimestamp.2) + 4 ∧
        (valueOf layout row intermediateCarry = 1 ↔
          2 ^ timestampColumnsNumBits ≤ (valueOf layout row startTimestamp.1).val + 4) := by
  obtain ⟨carry, isCarry⟩ := boolean.exists_bool
  have lowChecked := timestampRangeCheckValue_of_input compiles readable
    (i := 0) rfl row timestampHighContribution
  have highChecked := timestampRangeCheckValue_of_input compiles readable
    (i := 1) rfl row timestampHighContribution
  rw [passesTimestampCheck_iff lowChecked, evaluate_variable] at endLowChecked
  rw [passesTimestampCheck_iff highChecked, evaluate_variable] at endHighChecked
  have exact := nextTimestampConstraints_iff computed startLowRange startHighRange endLowChecked
    endHighChecked isCarry
  rw [exact, isCarry]
  cases carry with
  | false => simp
  | true => simp

/-- The comparisons of shuffle RAM accesses and of delegation circuits, the rows without a
delegation, and the step of the timestamp from one cycle to the next. -/
theorem timestampComparisons_exact :
    (∀ (useCircuitSeq : Bool) (traceLen : Nat) (inputs : List LookupInput)
      (partialSets : List ShuffleRamTimestampComparisonPartialData)
      (layout : Variable → Option ColumnAddress) (timestampSetupColumns : ColumnSet 2)
      (cycleTimestamp : Option (ColumnSet 2)) (offset : Nat) (expressions : List LookupExpression),
      compileTimestampRangeCheckExpressions useCircuitSeq traceLen inputs partialSets layout
        timestampSetupColumns cycleTimestamp = some (offset, expressions) → Readable layout →
      ∀ (i column : Nat) (data : ShuffleRamTimestampComparisonPartialData),
        partialSets[i]? = some data → data.localTimestampInCycle < 4 →
        AccessPlaced layout data.intermediateBorrow data.readTimestamp.1 data.readTimestamp.2
          column →
      ∀ (row : Row) (timestampHighContribution writeLow writeHigh : F),
        writeLow = writeTimestampLimb row timestampSetupColumns cycleTimestamp 0 →
        (writeHigh = writeTimestampLimb row timestampSetupColumns cycleTimestamp 1 +
          if useCircuitSeq then timestampHighContribution else 0) →
        IsTimestampLimb writeLow → writeLow.val % 4 = 0 → IsTimestampLimb writeHigh →
        IsTimestampLimb (valueOf layout row data.readTimestamp.1) →
        IsTimestampLimb (valueOf layout row data.readTimestamp.2) →
        IsExactComparison (AcceptsBorrow row timestampHighContribution offset expressions
            (inputs.length + 2 * i) column)
          (timestampOf (valueOf layout row data.readTimestamp.1)
            (valueOf layout row data.readTimestamp.2))
          (timestampOf writeLow writeHigh + data.localTimestampInCycle)) ∧
    (∀ (predicate timestampLow timestampHigh : Variable)
      (accesses : List DelegationTimestampVariables) (inputs : List LookupInput) (traceLen : Nat)
      (layout : Variable → Option ColumnAddress) (timestampSetupColumns : ColumnSet 2)
      (offset : Nat) (expressions : List LookupExpression),
      delegationTimestampExpressions predicate timestampLow timestampHigh accesses =
        some inputs →
      compileTimestampRangeCheckExpressions true traceLen inputs [] layout timestampSetupColumns
        none = some (offset, expressions) → Readable layout →
      InMemory layout predicate → InMemory layout timestampLow → InMemory layout timestampHigh →
      ∀ (i column : Nat) (access : DelegationTimestampVariables), accesses[i]? = some access →
        AccessPlaced layout access.timestampBorrow access.readTimestampLow
          access.readTimestampHigh column →
      ∀ (row : Row) (timestampHighContribution : F),
        (valueOf layout row predicate = 1 →
          IsTimestampLimb (valueOf layout row timestampLow) →
          IsTimestampLimb (valueOf layout row timestampHigh) →
          IsTimestampLimb (valueOf layout row access.readTimestampLow) →
          IsTimestampLimb (valueOf layout row access.readTimestampHigh) →
          IsExactComparison
            (AcceptsBorrow row timestampHighContribution offset expressions (2 * i) column)
            (timestampOf (valueOf layout row access.readTimestampLow)
              (valueOf layout row access.readTimestampHigh))
            (timestampOf (valueOf layout row timestampLow) (valueOf layout row timestampHigh))) ∧
        (valueOf layout row predicate = 0 → valueOf layout row timestampLow = 0 →
          valueOf layout row timestampHigh = 0 → valueOf layout row access.readTimestampLow = 0 →
          valueOf layout row access.readTimestampHigh = 0 → ∀ borrow,
            (AcceptsBorrow row timestampHighContribution offset expressions (2 * i) column
              borrow ↔ borrow = false))) ∧
    (∀ (startTimestamp endTimestamp : Variable × Variable) (intermediateCarry : Variable)
      (low high : Constraint) (traceLen offset : Nat)
      (partialSets : List ShuffleRamTimestampComparisonPartialData)
      (layout : Variable → Option ColumnAddress)
      (timestampSetupColumns cycleTimestamp : ColumnSet 2) (expressions : List LookupExpression),
      nextTimestampConstraints startTimestamp endTimestamp intermediateCarry = some (low, high) →
      compileTimestampRangeCheckExpressions false traceLen
        [.variable endTimestamp.1, .variable endTimestamp.2] partialSets layout
        timestampSetupColumns (some cycleTimestamp) = some (offset, expressions) →
      Readable layout → ∀ (row : Row) (timestampHighContribution : F),
        PassesTimestampCheck row timestampHighContribution offset expressions 0 →
        PassesTimestampCheck row timestampHighContribution offset expressions 1 →
        IsBoolean (valueOf layout row intermediateCarry) →
        IsTimestampLimb (valueOf layout row startTimestamp.1) →
        IsTimestampLimb (valueOf layout row startTimestamp.2) →
        ((low.evaluate (valueOf layout row) = 0 ∧ high.evaluate (valueOf layout row) = 0) ↔
          timestampOf (valueOf layout row endTimestamp.1) (valueOf layout row endTimestamp.2) =
              timestampOf (valueOf layout row startTimestamp.1)
                (valueOf layout row startTimestamp.2) + 4 ∧
            (valueOf layout row intermediateCarry = 1 ↔
              2 ^ timestampColumnsNumBits ≤ (valueOf layout row startTimestamp.1).val + 4))) := by
  refine ⟨?_, ?_, ?_⟩
  · intro _ _ _ _ _ _ _ _ _ compiles readable _ _ _ found localBound placed _ _ _ _ isWriteLow
      isWriteHigh writeLowRange aligned writeHighRange readLowRange readHighRange
    exact shuffleRamComparison_exact compiles readable found localBound placed isWriteLow
      isWriteHigh writeLowRange aligned writeHighRange readLowRange readHighRange
  · intro _ _ _ _ _ _ _ _ _ _ expressed compiles readable predicatePlaced lowPlaced highPlaced
      _ _ _ found placed _ contribution
    constructor
    · intro processes writeLowRange writeHighRange readLowRange readHighRange
      exact delegationComparison_exact expressed compiles readable found placed predicatePlaced
        lowPlaced highPlaced contribution processes writeLowRange writeHighRange readLowRange
        readHighRange
    · intro padding lowZero highZero readLowZero readHighZero borrow
      exact delegationComparison_ofPadding expressed compiles readable found placed
        predicatePlaced lowPlaced highPlaced contribution padding lowZero highZero readLowZero
        readHighZero borrow
  · intro _ _ _ _ _ _ _ _ _ _ _ _ computed compiles readable _ _ endLowChecked endHighChecked
      boolean startLowRange startHighRange
    exact nextTimestamp_exact computed compiles readable endLowChecked endHighChecked boolean
      startLowRange startHighRange

/-! ### A layout of three accesses -/

/-- Variables 0 and 1 are borrows or carries in the witness, all others are in the memory. -/
def sampleLayout (var : Variable) : Option ColumnAddress :=
  if var.val < 2 then some (.witnessSubtree var.val) else some (.memorySubtree var.val)

theorem readable_sampleLayout : Readable sampleLayout := by
  intro var offset
  rw [sampleLayout]
  split
  · nofun
  · nofun

def sampleAccess : DelegationTimestampVariables where
  timestampBorrow := 0
  readTimestampLow := 2
  readTimestampHigh := 3

theorem placed_sampleAccess : AccessPlaced sampleLayout 0 2 3 0 where
  borrow := rfl
  readLow := ⟨2, rfl⟩
  readHigh := ⟨3, rfl⟩

/-- A row with all columns zero. -/
def zeroRow : Row where
  witness := fun _ => 0
  memory := fun _ => 0
  setup := fun _ => 0

theorem sampleAccess_compiles : ∃ inputs offset expressions,
    delegationTimestampExpressions 4 5 6 [sampleAccess] = some inputs ∧
      compileTimestampRangeCheckExpressions true (2 ^ 20) inputs [] sampleLayout ⟨0, 1⟩ none =
        some (offset, expressions) := by
  have compiles : ((delegationTimestampExpressions 4 5 6 [sampleAccess]).bind fun inputs =>
      compileTimestampRangeCheckExpressions true (2 ^ 20) inputs [] sampleLayout ⟨0, 1⟩
        none).isSome = true := by decide
  obtain ⟨⟨offset, expressions⟩, computed⟩ := Option.isSome_iff_exists.mp compiles
  obtain ⟨inputs, expressed, compiled⟩ := Option.bind_eq_some_iff.mp computed
  exact ⟨inputs, offset, expressions, expressed, compiled⟩

/-- At a padding row of a delegation circuit the read is not before the write, and the borrow is
accepted all the same. -/
theorem delegationComparison_accepts_padding :
    ∃ inputs offset expressions,
      delegationTimestampExpressions 4 5 6 [sampleAccess] = some inputs ∧
      compileTimestampRangeCheckExpressions true (2 ^ 20) inputs [] sampleLayout ⟨0, 1⟩ none =
        some (offset, expressions) ∧
      (∃ borrow, AcceptsBorrow zeroRow 0 offset expressions 0 0 borrow) ∧
      ¬ timestampOf (valueOf sampleLayout zeroRow 2) (valueOf sampleLayout zeroRow 3) <
        timestampOf (valueOf sampleLayout zeroRow 5) (valueOf sampleLayout zeroRow 6) := by
  obtain ⟨inputs, offset, expressions, expressed, compiles⟩ := sampleAccess_compiles
  refine ⟨inputs, offset, expressions, expressed, compiles, ⟨false, ?_⟩, by decide⟩
  exact (delegationComparison_ofPadding (i := 0) expressed compiles readable_sampleLayout rfl
    placed_sampleAccess ⟨4, rfl⟩ ⟨5, rfl⟩ ⟨6, rfl⟩ 0 rfl rfl rfl rfl rfl false).mpr rfl

/-- A cycle that starts at timestamp 8, or a delegation at timestamp 12, with a read at 9. -/
def sampleRow : Row where
  witness := fun _ => 0
  memory := fun offset => [0, 0, 9, 0, 1, 12, 0, 0, 12, 0, 8].getD offset 0
  setup := fun _ => 0

/-- The read is compared with the third access of the cycle and with the delegation, and the
cycle ends at timestamp 12. -/
theorem timestampComparisons_exact_sample :
    (∃ offset expressions,
      compileTimestampRangeCheckExpressions false (2 ^ 20) [.variable 8, .variable 9]
        [⟨0, (2, 3), 2⟩] sampleLayout ⟨0, 1⟩ (some ⟨10, 1⟩) = some (offset, expressions) ∧
      IsExactComparison (AcceptsBorrow sampleRow 0 offset expressions 2 0) 9 (8 + 2) ∧
      ∃ low high, nextTimestampConstraints (10, 11) (8, 9) 1 = some (low, high) ∧
        low.evaluate (valueOf sampleLayout sampleRow) = 0 ∧
        high.evaluate (valueOf sampleLayout sampleRow) = 0) ∧
    ∃ inputs offset expressions,
      delegationTimestampExpressions 4 5 6 [sampleAccess] = some inputs ∧
      compileTimestampRangeCheckExpressions true (2 ^ 20) inputs [] sampleLayout ⟨0, 1⟩ none =
        some (offset, expressions) ∧
      IsExactComparison (AcceptsBorrow sampleRow 0 offset expressions 0 0) 9 12 := by
  constructor
  · have isSome : (compileTimestampRangeCheckExpressions false (2 ^ 20) [.variable 8, .variable 9]
        [⟨0, (2, 3), 2⟩] sampleLayout ⟨0, 1⟩ (some ⟨10, 1⟩)).isSome = true := by decide
    obtain ⟨⟨offset, expressions⟩, compiles⟩ := Option.isSome_iff_exists.mp isSome
    refine ⟨offset, expressions, compiles, ?_, ?_⟩
    · exact timestampComparisons_exact.1 _ _ _ _ _ _ _ _ _ compiles readable_sampleLayout 0 0 _
        rfl (by decide) ⟨rfl, ⟨2, rfl⟩, ⟨3, rfl⟩⟩ sampleRow 0 8 0 (by decide) (by decide)
        (by decide) (by decide) (by decide) (by decide) (by decide)
    · have constrained : (nextTimestampConstraints (10, 11) (8, 9) 1).isSome = true := by decide
      obtain ⟨⟨low, high⟩, computed⟩ := Option.isSome_iff_exists.mp constrained
      have lowPasses : PassesTimestampCheck sampleRow 0 offset expressions 0 :=
        ⟨_, timestampRangeCheckValue_of_input compiles readable_sampleLayout (i := 0) rfl
          sampleRow 0, by decide⟩
      have highPasses : PassesTimestampCheck sampleRow 0 offset expressions 1 :=
        ⟨_, timestampRangeCheckValue_of_input compiles readable_sampleLayout (i := 1) rfl
          sampleRow 0, by decide⟩
      refine ⟨low, high, computed, ?_⟩
      exact (timestampComparisons_exact.2.2 _ _ _ _ _ _ _ _ _ _ _ _ computed compiles
        readable_sampleLayout sampleRow 0 lowPasses highPasses (by decide) (by decide)
        (by decide)).mpr ⟨by decide, by decide⟩
  · obtain ⟨inputs, offset, expressions, expressed, compiles⟩ := sampleAccess_compiles
    refine ⟨inputs, offset, expressions, expressed, compiles, ?_⟩
    exact (timestampComparisons_exact.2.1 _ _ _ _ _ _ _ _ _ _ expressed compiles
      readable_sampleLayout ⟨4, rfl⟩ ⟨5, rfl⟩ ⟨6, rfl⟩ 0 0 _ rfl placed_sampleAccess sampleRow
      0).1 rfl (by decide) (by decide) (by decide) (by decide)

end Airbender.Compiler
