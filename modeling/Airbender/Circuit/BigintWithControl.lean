import Airbender.Circuit.Machine
import Airbender.Delegations.BigintValue

/-!
# The 256-bit delegation circuit

One chain of additions over virtual operands serves sums, differences, the comparison and the
copy, and one product of bytes serves both halves of the product.
-/

namespace Airbender.Circuit

open Bigint LongArithmetic

/-! ## The control register -/

/-- The bits of the control mask. -/
inductive BigintControlBit where
  | perform (op : BigintOp)
  | carryOrBorrow
deriving DecidableEq, Repr

/-- The control bits in the order of their positions. -/
def BigintControlBit.all : List BigintControlBit :=
  [.perform .add, .perform .sub, .perform .subAndNegate, .perform .mulLow, .perform .mulHigh,
    .perform .eq, .carryOrBorrow, .perform .memcopy]

def BigintControlBit.idx : BigintControlBit → Nat
  | .perform op => op.bit
  | .carryOrBorrow => carryBitIdx

/-- The flags of the operations in the order of their positions. -/
def performSum (control : BigintControlBit → F) : F :=
  (BigintOp.all.map fun op => control (.perform op)).sum

/-- The low limb of the control register splits into eight bits, of which at most one besides the
carry is set.  The high limb is ignored. -/
structure BigintControl (controlMask : Register) (control : BigintControlBit → F) : Prop where
  split : SplitIntoBitmask (BigintControlBit.all.map control) controlMask.low
  atMostOne : performSum control * (performSum control - 1) = 0

/-! ## Range checks -/

/-- `create_u16_split_into_bytes_table`. -/
def createU16SplitIntoBytesTable : List (F × F × F) :=
  (List.range (2 ^ 16)).map fun (a : Nat) => ((a : F), ((a % 2 ^ 8 : Nat) : F), ((a / 2 ^ 8 : Nat) : F))

/-- The bound on the sum of byte products that enters one product word. -/
def productTermsRange (i : Nat) : Nat :=
  ∑ aByteIdx ∈ Finset.range 32, ∑ bByteIdx ∈ Finset.range 32,
    if aByteIdx + bByteIdx = 2 * i then 255 * 255
    else if aByteIdx + bByteIdx = 2 * i + 1 then 2 ^ 8 * (255 * 255)
    else 0

/-- The bound on the carry into a product word. -/
def carryRange : Nat → Nat
  | 0 => 0
  | i + 1 => (carryRange i + productTermsRange i) / 2 ^ 16

/-- `next_power_of_two().trailing_zeros()`. -/
def nextPowerOfTwoBits (number : Nat) : Nat :=
  (List.range 32).findIdx fun bits => number ≤ 2 ^ bits

/-- The width of the range check on the carry out of a product word. -/
def carryBits (i : Nat) : Nat := nextPowerOfTwoBits (carryRange (i + 1))

/-! ## The constraints -/

/-- The columns of a row.  Limbs, bytes and product words are functions of their position. -/
structure BigintRow where
  execute : F
  aLimbs : Nat → F
  bLimbs : Nat → F
  controlMask : Register
  control : BigintControlBit → F
  additiveOpsResult : Nat → F
  intermediateCarry : Nat → F
  aBytes : Nat → F
  bBytes : Nat → F
  fullProduct : Nat → F
  productIntermediate : Nat → F
  mergedRangeCheck : Nat → F
  outputLimbs : Nat → F
  zeroCheckInputs : Nat → F
  firstInverse : F
  firstFlag : F
  secondInverse : F
  secondFlag : F
  allZeroes : F
  valuesAreEqual : F
  performEqBit : F
  performEqResult : F
  x12Write : Register

namespace BigintRow

variable (row : BigintRow)

def perform (op : BigintOp) : F := row.control (.perform op)

def productLow (i : Nat) : F := row.fullProduct i

def productHigh (i : Nat) : F := row.fullProduct (16 + i)

/-- The virtual first operand of the addition. -/
def virtualA (i : Nat) : F :=
  row.perform .add * row.aLimbs i + row.perform .sub * row.additiveOpsResult i +
    row.perform .subAndNegate * row.aLimbs i + row.perform .eq * row.additiveOpsResult i

/-- The virtual second operand. -/
def virtualB (i : Nat) : F :=
  row.perform .add * row.bLimbs i + row.perform .sub * row.bLimbs i +
    row.perform .subAndNegate * row.additiveOpsResult i + row.perform .eq * row.bLimbs i +
    row.perform .memcopy * row.bLimbs i

/-- The virtual sum. -/
def virtualC (i : Nat) : F :=
  row.perform .add * row.additiveOpsResult i + row.perform .sub * row.aLimbs i +
    row.perform .subAndNegate * row.bLimbs i + row.perform .eq * row.aLimbs i +
    row.perform .memcopy * row.additiveOpsResult i

/-- The carry into a limb; the comparison does not use the control bit. -/
def carryInto : Nat → F
  | 0 => row.perform .add * row.control .carryOrBorrow +
      row.perform .sub * row.control .carryOrBorrow +
      row.perform .subAndNegate * row.control .carryOrBorrow +
      row.perform .memcopy * row.control .carryOrBorrow
  | i + 1 => row.intermediateCarry i

def resultOf : F := row.intermediateCarry 15

/-- The byte products that enter one product word. -/
def productTerms (i : Nat) : F :=
  ∑ aByteIdx ∈ Finset.range 32, ∑ bByteIdx ∈ Finset.range 32,
    if aByteIdx + bByteIdx = 2 * i then row.aBytes aByteIdx * row.bBytes bByteIdx
    else if aByteIdx + bByteIdx = 2 * i + 1 then
      (2 ^ 8 : F) * row.aBytes aByteIdx * row.bBytes bByteIdx
    else 0

/-- The carry into a product word, as an expression. -/
def carryConstraint : Nat → F
  | 0 => 0
  | i + 1 => (row.productIntermediate i - row.fullProduct i) * (65536 : F)⁻¹

/-- The value whose range is checked: the additive result or the low product. -/
def resultToCheck (i : Nat) : F :=
  row.perform .add * row.additiveOpsResult i + row.perform .sub * row.additiveOpsResult i +
    row.perform .subAndNegate * row.additiveOpsResult i +
    row.perform .eq * row.additiveOpsResult i + row.perform .memcopy * row.additiveOpsResult i +
    row.perform .mulLow * row.productLow i + row.perform .mulHigh * row.productLow i

def selectedOutput (i : Nat) : F :=
  row.perform .add * row.additiveOpsResult i + row.perform .sub * row.additiveOpsResult i +
    row.perform .subAndNegate * row.additiveOpsResult i + row.perform .eq * row.aLimbs i +
    row.perform .mulLow * row.productLow i + row.perform .mulHigh * row.productHigh i +
    row.perform .memcopy * row.additiveOpsResult i

/-- The sums of both halves of the words to compare with zero. -/
def firstHalf : F := ∑ i ∈ Finset.range 8, row.zeroCheckInputs i

def secondHalf : F := ∑ i ∈ Finset.range 8, row.zeroCheckInputs (8 + i)

/-- The constraints and lookups of `define_u256_ops_extended_control_delegation_circuit`. -/
structure Satisfied : Prop where
  controlBits : BigintControl row.controlMask row.control
  carryBoolean : ∀ i < 16, IsBoolean (row.intermediateCarry i)
  addition : ∀ i < 16, row.virtualA i + row.virtualB i - row.virtualC i -
    65536 * row.intermediateCarry i + row.carryInto i = 0
  aSplit : ∀ i < 16, (row.aLimbs i, row.aBytes (2 * i), row.aBytes (2 * i + 1)) ∈
    createU16SplitIntoBytesTable
  bSplit : ∀ i < 16, (row.bLimbs i, row.bBytes (2 * i), row.bBytes (2 * i + 1)) ∈
    createU16SplitIntoBytesTable
  productHighRange : ∀ i < 16, IsU16 (row.productHigh i)
  productIntermediate : ∀ i < 31, row.carryConstraint i + row.productTerms i -
    row.productIntermediate i = 0
  productLast : row.carryConstraint 31 + row.productTerms 31 - row.fullProduct 31 = 0
  mergedRangeCheck : ∀ i < 16, row.resultToCheck i - row.mergedRangeCheck i = 0
  mergedRange : ∀ i < 16, IsU16 (row.mergedRangeCheck i)
  carryConstraintRange : ∀ i < 31, (row.carryConstraint (i + 1)).val < 2 ^ carryBits i
  output : ∀ i < 16, row.selectedOutput i - row.outputLimbs i = 0
  zeroCheck : ∀ i < 16, row.perform .eq * row.additiveOpsResult i +
    row.perform .mulLow * row.productHigh i - row.zeroCheckInputs i = 0
  firstInverted : row.firstInverse * row.firstHalf - (1 - row.firstFlag) = 0
  firstProduct : (1 - (1 - row.firstFlag)) * row.firstHalf = 0
  secondInverted : row.secondInverse * row.secondHalf - (1 - row.secondFlag) = 0
  secondProduct : (1 - (1 - row.secondFlag)) * row.secondHalf = 0
  allZeroes : row.firstFlag * row.secondFlag - row.allZeroes = 0
  valuesAreEqual : row.allZeroes * (1 - row.resultOf) - row.valuesAreEqual = 0
  performEqBit : row.perform .eq * row.valuesAreEqual - row.performEqBit = 0
  performEqResult : row.performEqBit * row.execute - row.performEqResult = 0
  x12Low : row.perform .add * row.resultOf + row.perform .sub * row.resultOf +
    row.perform .subAndNegate * row.resultOf + row.perform .eq * row.performEqResult +
    row.perform .mulLow * (1 - row.allZeroes) + row.perform .memcopy * row.resultOf -
    row.x12Write.low = 0
  x12High : row.x12Write.high = 0

end BigintRow

/-! ## Tables and ranges -/

section Ranges

theorem mem_u16SplitTable {key low high : F} :
    (key, low, high) ∈ createU16SplitIntoBytesTable ↔
      IsU16 key ∧ low = ((key.val % 2 ^ 8 : Nat) : F) ∧ high = ((key.val / 2 ^ 8 : Nat) : F) := by
  rw [createU16SplitIntoBytesTable, List.mem_map]
  constructor
  · rintro ⟨a, inRange, row⟩
    rcases Prod.mk.inj row with ⟨rfl, rest⟩
    rcases Prod.mk.inj rest with ⟨rfl, rfl⟩
    have bound := List.mem_range.mp inRange
    rw [val_natCast_of_lt (bound.trans (by norm_num))]
    exact ⟨isU16_natCast bound, rfl, rfl⟩
  · rintro ⟨range, rfl, rfl⟩
    refine ⟨key.val, List.mem_range.mpr range, ?_⟩
    rw [ZMod.natCast_zmod_val]

/-- The bytes of a limb that the lookup accepts. -/
theorem bytes_of_split {key low high : F} (split : (key, low, high) ∈ createU16SplitIntoBytesTable) :
    IsU16 key ∧ low.val < 2 ^ 8 ∧ high.val < 2 ^ 8 ∧ key.val = low.val + 2 ^ 8 * high.val := by
  rcases mem_u16SplitTable.mp split with ⟨range, rfl, rfl⟩
  have bound := range
  rw [IsU16] at bound
  have lowBound := Nat.mod_lt key.val (Nat.two_pow_pos 8)
  have modulusValue : modulus = 2147483647 := rfl
  rw [val_natCast_of_lt (by omega), val_natCast_of_lt (by omega)]
  refine ⟨range, lowBound, by omega, by omega⟩

/-- The widths of the range checks fit the carries. -/
theorem carryRange_checked :
    ∀ i < 31, carryRange (i + 1) < 2 ^ carryBits i ∧ carryBits i ≤ 13 := by
  decide +kernel

theorem productTermsRange_lt : ∀ i < 32, productTermsRange i < 2 ^ 30 := by
  decide +kernel

/-- The byte products that enter one product word, as numbers. -/
def productTermsNat (aBytes bBytes : Nat → Nat) (i : Nat) : Nat :=
  convolution 32 aBytes bBytes (2 * i) + 2 ^ 8 * convolution 32 aBytes bBytes (2 * i + 1)

theorem productTermsNat_le {aBytes bBytes : Nat → Nat} (aBound : ∀ i < 32, aBytes i < 2 ^ 8)
    (bBound : ∀ i < 32, bBytes i < 2 ^ 8) (i : Nat) :
    productTermsNat aBytes bBytes i ≤ productTermsRange i := by
  rw [productTermsNat, convolution, convolution, Finset.mul_sum, ← Finset.sum_add_distrib]
  apply Finset.sum_le_sum
  intro j jRange
  rw [Finset.mul_sum, ← Finset.sum_add_distrib]
  apply Finset.sum_le_sum
  intro k kRange
  have byteBound : aBytes j * bBytes k ≤ 255 * 255 :=
    Nat.mul_le_mul (Nat.le_pred_of_lt (aBound j (Finset.mem_range.mp jRange)))
      (Nat.le_pred_of_lt (bBound k (Finset.mem_range.mp kRange)))
  by_cases even : j + k = 2 * i
  · have notOdd : j + k ≠ 2 * i + 1 := by omega
    rw [if_pos even, if_neg notOdd, if_pos even]
    omega
  · rw [if_neg even, if_neg even]
    by_cases odd : j + k = 2 * i + 1
    · rw [if_pos odd, if_pos odd]
      omega
    · rw [if_neg odd, if_neg odd, Nat.mul_zero]

theorem BigintRow.productTerms_eq (row : BigintRow) (i : Nat) :
    row.productTerms i = ((productTermsNat (fun j => (row.aBytes j).val)
      (fun j => (row.bBytes j).val) i : Nat) : F) := by
  rw [productTermsNat, convolution, convolution, Finset.mul_sum, ← Finset.sum_add_distrib,
    Nat.cast_sum, BigintRow.productTerms]
  apply Finset.sum_congr rfl
  intro j _
  rw [Finset.mul_sum, ← Finset.sum_add_distrib, Nat.cast_sum]
  apply Finset.sum_congr rfl
  intro k _
  by_cases even : j + k = 2 * i
  · have notOdd : j + k ≠ 2 * i + 1 := by omega
    rw [if_pos even, if_pos even, if_neg notOdd]
    push_cast
    rw [ZMod.natCast_zmod_val, ZMod.natCast_zmod_val]
    ring
  · rw [if_neg even, if_neg even]
    by_cases odd : j + k = 2 * i + 1
    · rw [if_pos odd, if_pos odd]
      push_cast
      rw [ZMod.natCast_zmod_val, ZMod.natCast_zmod_val]
      ring
    · rw [if_neg odd, if_neg odd]
      simp

/-- The terms of the product words are the product of the numbers. -/
theorem value_productTermsNat (aBytes bBytes : Nat → Nat) :
    value (2 ^ 16) 32 (productTermsNat aBytes bBytes) =
      value (2 ^ 8) 32 aBytes * value (2 ^ 8) 32 bBytes := by
  rw [← value_convolution, ← value_pairs]
  rfl

end Ranges

/-! ## Soundness -/

namespace BigintRow

section Soundness

variable {row : BigintRow} {op : BigintOp} {carry : Bool}

/-- The flags of a row that performs one operation. -/
structure Performs (row : BigintRow) (op : BigintOp) (carry : Bool) : Prop where
  perform : ∀ other, row.perform other = if op = other then 1 else 0
  carry : row.control .carryOrBorrow = fromBoolean carry

theorem Satisfied.performs (satisfied : row.Satisfied)
    (mask : row.controlMask.low = ((op.mask carry : Nat) : F)) : row.Performs op carry := by
  have split := satisfied.controlBits.split
  rw [mask] at split
  have short : (BigintControlBit.all.map row.control).length ≤ 30 := by
    rw [List.length_map]
    decide
  constructor
  · intro other
    have position : (BigintControlBit.all.map row.control)[other.bit]? =
        some (row.perform other) := by
      cases other <;> rfl
    rw [split.flag_eq (op.mask_lt carry) short position]
    cases op <;> cases other <;> cases carry <;> rfl
  · have position : (BigintControlBit.all.map row.control)[carryBitIdx]? =
        some (row.control .carryOrBorrow) := rfl
    rw [split.flag_eq (op.mask_lt carry) short position]
    cases op <;> cases carry <;> rfl

/-- The operand that a flag selects as the first one of the addition. -/
def operandA (row : BigintRow) (op : BigintOp) (i : Nat) : F :=
  match op with
  | .add | .subAndNegate => row.aLimbs i
  | .sub | .eq => row.additiveOpsResult i
  | .mulLow | .mulHigh | .memcopy => 0

def operandB (row : BigintRow) (op : BigintOp) (i : Nat) : F :=
  match op with
  | .add | .sub | .eq | .memcopy => row.bLimbs i
  | .subAndNegate => row.additiveOpsResult i
  | .mulLow | .mulHigh => 0

def operandC (row : BigintRow) (op : BigintOp) (i : Nat) : F :=
  match op with
  | .add | .memcopy => row.additiveOpsResult i
  | .sub | .eq => row.aLimbs i
  | .subAndNegate => row.bLimbs i
  | .mulLow | .mulHigh => 0

/-- The carry that an operation adds to the lowest limb. -/
def carryIn (op : BigintOp) (carry : Bool) : Bool :=
  match op with
  | .add | .sub | .subAndNegate | .memcopy => carry
  | .eq | .mulLow | .mulHigh => false

theorem Performs.virtual_eq (performs : row.Performs op carry) (i : Nat) :
    row.virtualA i = row.operandA op i ∧ row.virtualB i = row.operandB op i ∧
      row.virtualC i = row.operandC op i := by
  simp only [virtualA, virtualB, virtualC, performs.perform]
  cases op <;> simp [operandA, operandB, operandC]

theorem Performs.carryInto_zero (performs : row.Performs op carry) :
    row.carryInto 0 = fromBoolean (carryIn op carry) := by
  simp only [carryInto, performs.perform, performs.carry]
  cases op <;> simp [carryIn]

/-- The value whose range is checked, for each operation. -/
theorem Performs.resultToCheck_eq (performs : row.Performs op carry) (i : Nat) :
    row.resultToCheck i = if op = .mulLow ∨ op = .mulHigh then row.productLow i
      else row.additiveOpsResult i := by
  simp only [resultToCheck, performs.perform]
  cases op <;> simp

theorem Satisfied.result_range (satisfied : row.Satisfied) (performs : row.Performs op carry)
    {i : Nat} (inRange : i < 16) :
    IsU16 (if op = .mulLow ∨ op = .mulHigh then row.productLow i
      else row.additiveOpsResult i) := by
  have checked := sub_eq_zero.mp (satisfied.mergedRangeCheck i inRange)
  rw [← performs.resultToCheck_eq, checked]
  exact satisfied.mergedRange i inRange

theorem isU16_zero : IsU16 (0 : F) := by decide

/-- The operands of the addition are in range. -/
theorem Satisfied.operands_range (satisfied : row.Satisfied) (performs : row.Performs op carry)
    {i : Nat} (inRange : i < 16) :
    IsU16 (row.operandA op i) ∧ IsU16 (row.operandB op i) ∧ IsU16 (row.operandC op i) := by
  have a := (bytes_of_split (satisfied.aSplit i inRange)).1
  have b := (bytes_of_split (satisfied.bSplit i inRange)).1
  have result := satisfied.result_range performs inRange
  cases op with
  | add => exact ⟨a, b, result⟩
  | sub => exact ⟨result, b, a⟩
  | subAndNegate => exact ⟨a, result, b⟩
  | mulLow => exact ⟨isU16_zero, isU16_zero, isU16_zero⟩
  | mulHigh => exact ⟨isU16_zero, isU16_zero, isU16_zero⟩
  | eq => exact ⟨result, b, a⟩
  | memcopy => exact ⟨isU16_zero, b, result⟩

/-- The carries of the addition as numbers. -/
def carriesNat (row : BigintRow) (i : Nat) : Nat := (row.carryInto i).val

/-- The addition over integers. -/
theorem Satisfied.additionChain (satisfied : row.Satisfied) (performs : row.Performs op carry) :
    Chain (2 ^ 16) 16 (fun i => (row.operandA op i).val + (row.operandB op i).val)
      (fun i => (row.operandC op i).val) row.carriesNat := by
  have carryBound (i : Nat) (inRange : i < 17) : (row.carryInto i).val ≤ 1 := by
    cases i with
    | zero =>
        rw [performs.carryInto_zero]
        exact (isBoolean_fromBoolean _).val_le_one
    | succ i => exact (satisfied.carryBoolean i (by omega)).val_le_one
  intro i inRange
  rcases satisfied.operands_range performs inRange with ⟨a, b, c⟩
  rcases performs.virtual_eq i with ⟨virtualA, virtualB, virtualC⟩
  have addition := satisfied.addition i inRange
  have before := carryBound i (by omega)
  have after := carryBound (i + 1) (by omega)
  rw [virtualA, virtualB, virtualC] at addition
  rw [IsU16] at a b c
  have next : row.carryInto (i + 1) = row.intermediateCarry i := rfl
  rw [← next] at addition
  have equation : ((row.operandA op i).val + (row.operandB op i).val - (row.operandC op i).val -
      65536 * (row.carryInto (i + 1)).val + (row.carryInto i).val : ℤ) = 0 := by
    apply eq_zero_of_small
    · simpa using addition
    · omega
    · omega
  simp only [carriesNat]
  omega

end Soundness

end BigintRow

namespace BigintRow

section Results

variable {row : BigintRow} {op : BigintOp} {carry : Bool}

/-- The numbers that the limbs hold. -/
def aValue (row : BigintRow) : Nat := value (2 ^ 16) 16 fun i => (row.aLimbs i).val

def bValue (row : BigintRow) : Nat := value (2 ^ 16) 16 fun i => (row.bLimbs i).val

def outputValue (row : BigintRow) : Nat := value (2 ^ 16) 16 fun i => (row.outputLimbs i).val

def additiveValue (row : BigintRow) : Nat :=
  value (2 ^ 16) 16 fun i => (row.additiveOpsResult i).val

/-- The addition of the operands as numbers. -/
theorem Satisfied.addition_value (satisfied : row.Satisfied) (performs : row.Performs op carry) :
    (value (2 ^ 16) 16 fun i => (row.operandA op i).val) +
        (value (2 ^ 16) 16 fun i => (row.operandB op i).val) + (carryIn op carry).toNat =
      (value (2 ^ 16) 16 fun i => (row.operandC op i).val) + 2 ^ 256 * row.resultOf.val := by
  have total := (satisfied.additionChain performs).value_eq
  have carryIn : row.carriesNat 0 = (carryIn op carry).toNat := by
    rw [carriesNat, performs.carryInto_zero, fromBoolean_eq,
      val_natCast_of_lt (lt_of_le_of_lt (Bool.toNat_le _) (by decide))]
  have carryOut : row.carriesNat 16 = row.resultOf.val := rfl
  rw [value_add, carryIn, carryOut] at total
  rw [total]
  norm_num

/-- Limbs and bytes of an operand hold one number. -/
theorem value_bytes {limbs bytes : Nat → F}
    (split : ∀ i < 16, (limbs i, bytes (2 * i), bytes (2 * i + 1)) ∈
      createU16SplitIntoBytesTable) :
    value (2 ^ 8) 32 (fun i => (bytes i).val) = value (2 ^ 16) 16 fun i => (limbs i).val := by
  have pairs := value_pairs (2 ^ 8) 16 fun i => (bytes i).val
  have base : (2 ^ 8) ^ 2 = 2 ^ 16 := by norm_num
  rw [base] at pairs
  rw [← pairs]
  apply value_congr
  intro i inRange
  exact (bytes_of_split (split i inRange)).2.2.2.symm

theorem bytes_lt {limbs bytes : Nat → F}
    (split : ∀ i < 16, (limbs i, bytes (2 * i), bytes (2 * i + 1)) ∈
      createU16SplitIntoBytesTable) {i : Nat} (inRange : i < 32) : (bytes i).val < 2 ^ 8 := by
  rcases bytes_of_split (split (i / 2) (by omega)) with ⟨_, low, high, _⟩
  rcases Nat.mod_two_eq_zero_or_one i with even | odd
  · have position : 2 * (i / 2) = i := by omega
    rw [position] at low
    exact low
  · have position : 2 * (i / 2) + 1 = i := by omega
    rw [position] at high
    exact high

/-- The carries of the product as numbers; none leaves the last word. -/
def productCarriesNat (row : BigintRow) (i : Nat) : Nat :=
  if i < 32 then (row.carryConstraint i).val else 0

theorem carryConstraint_mul (row : BigintRow) (i : Nat) :
    65536 * row.carryConstraint (i + 1) = row.productIntermediate i - row.fullProduct i := by
  have nonzero : (65536 : F) ≠ 0 := by decide
  rw [carryConstraint, mul_comm, mul_assoc, inv_mul_cancel₀ nonzero, mul_one]

theorem Satisfied.carryConstraint_lt (satisfied : row.Satisfied) {i : Nat} (inRange : i < 32) :
    (row.carryConstraint i).val < 2 ^ 13 := by
  cases i with
  | zero =>
      have zero : row.carryConstraint 0 = 0 := rfl
      rw [zero, ZMod.val_zero]
      exact Nat.two_pow_pos 13
  | succ i =>
      have width := (carryRange_checked i (by omega)).2
      have fits := Nat.pow_le_pow_right (n := 2) Nat.two_pos width
      exact lt_of_lt_of_le (satisfied.carryConstraintRange i (by omega)) fits

/-- The product over integers, if its low words are in range. -/
theorem Satisfied.productChain (satisfied : row.Satisfied)
    (lowRange : ∀ i < 16, IsU16 (row.productLow i)) :
    Chain (2 ^ 16) 32 (productTermsNat (fun i => (row.aBytes i).val) fun i => (row.bBytes i).val)
      (fun i => (row.fullProduct i).val) row.productCarriesNat := by
  have wordRange (i : Nat) (inRange : i < 32) : (row.fullProduct i).val < 2 ^ 16 := by
    by_cases low : i < 16
    · exact lowRange i low
    · have high := satisfied.productHighRange (i - 16) (by omega)
      have position : 16 + (i - 16) = i := by omega
      rw [productHigh, position] at high
      exact high
  intro i inRange
  have terms := (productTermsNat_le (fun j inside => bytes_lt satisfied.aSplit inside)
    (fun j inside => bytes_lt satisfied.bSplit inside) i).trans_lt (productTermsRange_lt i inRange)
  have fieldTerms := row.productTerms_eq i
  generalize productTermsNat (fun i => (row.aBytes i).val) (fun i => (row.bBytes i).val) i = sum
    at terms fieldTerms ⊢
  have before := satisfied.carryConstraint_lt inRange
  have word := wordRange i inRange
  have current : row.productCarriesNat i = (row.carryConstraint i).val := if_pos inRange
  rw [current]
  by_cases last : i = 31
  · have equation : row.carryConstraint i + row.productTerms i - row.fullProduct i = 0 := by
      rw [last]
      exact satisfied.productLast
    have next : row.productCarriesNat (i + 1) = 0 := if_neg (by omega)
    have integers : ((row.carryConstraint i).val + sum - (row.fullProduct i).val : ℤ) = 0 := by
      apply eq_zero_of_small
      · push_cast
        rw [ZMod.natCast_zmod_val, ZMod.natCast_zmod_val, ← fieldTerms]
        exact equation
      · omega
      · omega
    rw [next]
    change sum + (row.carryConstraint i).val = (row.fullProduct i).val + 2 ^ 16 * 0
    omega
  · have after := @Satisfied.carryConstraint_lt row satisfied (i + 1) (by omega)
    have intermediate := satisfied.productIntermediate i (by omega)
    have scaled := row.carryConstraint_mul i
    have next : row.productCarriesNat (i + 1) = (row.carryConstraint (i + 1)).val :=
      if_pos (by omega)
    have integers : ((row.carryConstraint i).val + sum - (row.fullProduct i).val -
        65536 * (row.carryConstraint (i + 1)).val : ℤ) = 0 := by
      apply eq_zero_of_small
      · push_cast
        rw [ZMod.natCast_zmod_val, ZMod.natCast_zmod_val, ZMod.natCast_zmod_val, scaled,
          ← fieldTerms]
        linear_combination intermediate
      · omega
      · omega
    rw [next]
    change sum + (row.carryConstraint i).val =
      (row.fullProduct i).val + 2 ^ 16 * (row.carryConstraint (i + 1)).val
    omega

/-- The words of the product hold the product. -/
theorem Satisfied.product_value (satisfied : row.Satisfied)
    (lowRange : ∀ i < 16, IsU16 (row.productLow i)) :
    row.aValue * row.bValue = (value (2 ^ 16) 16 fun i => (row.productLow i).val) +
      2 ^ 256 * value (2 ^ 16) 16 fun i => (row.productHigh i).val := by
  have total := (satisfied.productChain lowRange).value_eq
  have carryIn : row.productCarriesNat 0 = 0 := rfl
  have carryOut : row.productCarriesNat 32 = 0 := rfl
  rw [value_productTermsNat, value_bytes satisfied.aSplit, value_bytes satisfied.bSplit, carryIn,
    carryOut, Nat.mul_zero, Nat.add_zero, Nat.add_zero, value_append _ 16 16] at total
  rw [aValue, bValue, total]
  norm_num [productLow, productHigh]

/-! ### The zero check -/

/-- The flag of `is_zero_sum`. -/
theorem zeroSum_flag {sum inverse flag : F} (inverted : inverse * sum - (1 - flag) = 0)
    (product : (1 - (1 - flag)) * sum = 0) : flag = if sum = 0 then 1 else 0 := by
  by_cases zero : sum = 0
  · rw [if_pos zero]
    rw [zero] at inverted
    linear_combination inverted
  · rw [if_neg zero]
    have kept := (mul_eq_zero.mp product).resolve_right zero
    linear_combination kept

/-- A sum of eight limbs vanishes only if every limb does. -/
theorem sum_limbs_eq_zero_iff {limbs : Nat → F} (range : ∀ i < 8, IsU16 (limbs i)) :
    ∑ i ∈ Finset.range 8, limbs i = 0 ↔ ∀ i < 8, limbs i = 0 := by
  constructor
  · intro zero
    have cast : ((∑ i ∈ Finset.range 8, (limbs i).val : Nat) : F) = 0 := by
      rw [← zero, Nat.cast_sum]
      apply Finset.sum_congr rfl
      intro i _
      exact ZMod.natCast_zmod_val _
    have bound : ∑ i ∈ Finset.range 8, (limbs i).val ≤ 8 * 2 ^ 16 := by
      have each := Finset.sum_le_card_nsmul (Finset.range 8) (fun i => (limbs i).val) (2 ^ 16)
        fun i inRange => Nat.le_of_lt (range i (Finset.mem_range.mp inRange))
      rw [Finset.card_range, smul_eq_mul] at each
      exact each
    have small : ∑ i ∈ Finset.range 8, (limbs i).val = 0 := by
      have value := congrArg ZMod.val cast
      rw [val_natCast_of_lt (lt_of_le_of_lt bound (by decide)), ZMod.val_zero] at value
      exact value
    intro i inRange
    have limb := Finset.sum_eq_zero_iff.mp small i (Finset.mem_range.mpr inRange)
    exact (ZMod.val_eq_zero _).mp limb
  · intro zero
    apply Finset.sum_eq_zero
    intro i inRange
    exact zero i (Finset.mem_range.mp inRange)

/-- Both flags together say that the number is zero. -/
theorem Satisfied.allZeroes_eq (satisfied : row.Satisfied)
    (range : ∀ i < 16, IsU16 (row.zeroCheckInputs i)) :
    row.allZeroes = fromBoolean
      (decide ((value (2 ^ 16) 16 fun i => (row.zeroCheckInputs i).val) = 0)) := by
  have first := zeroSum_flag satisfied.firstInverted satisfied.firstProduct
  have second := zeroSum_flag satisfied.secondInverted satisfied.secondProduct
  have firstIff := sum_limbs_eq_zero_iff fun i inRange => range i (by omega)
  have secondIff := @sum_limbs_eq_zero_iff (fun i => row.zeroCheckInputs (8 + i))
    fun i inRange => range (8 + i) (by omega)
  have both : (value (2 ^ 16) 16 fun i => (row.zeroCheckInputs i).val) = 0 ↔
      row.firstHalf = 0 ∧ row.secondHalf = 0 := by
    rw [value_eq_zero_iff (Nat.two_pow_pos 16), firstHalf, secondHalf, firstIff, secondIff]
    constructor
    · intro zero
      exact ⟨fun i inRange => (ZMod.val_eq_zero _).mp (zero i (by omega)),
        fun i inRange => (ZMod.val_eq_zero _).mp (zero (8 + i) (by omega))⟩
    · rintro ⟨low, high⟩ i inRange
      by_cases below : i < 8
      · rw [low i below, ZMod.val_zero]
      · have limb := high (i - 8) (by omega)
        have position : 8 + (i - 8) = i := by omega
        rw [position] at limb
        rw [limb, ZMod.val_zero]
  have decided : decide ((value (2 ^ 16) 16 fun i => (row.zeroCheckInputs i).val) = 0) =
      decide (row.firstHalf = 0 ∧ row.secondHalf = 0) := decide_eq_decide.mpr both
  rw [← sub_eq_zero.mp satisfied.allZeroes, first, second, decided]
  by_cases firstZero : row.firstHalf = 0
  · by_cases secondZero : row.secondHalf = 0
    · simp [firstZero, secondZero]
    · simp [secondZero]
  · simp [firstZero]

/-! ### The outputs -/

theorem Performs.selectedOutput_eq (performs : row.Performs op carry) (i : Nat) :
    row.selectedOutput i = match op with
      | .add | .sub | .subAndNegate | .memcopy => row.additiveOpsResult i
      | .mulLow => row.productLow i
      | .mulHigh => row.productHigh i
      | .eq => row.aLimbs i := by
  simp only [selectedOutput, performs.perform]
  cases op <;> simp

theorem resultOf_bool (satisfied : row.Satisfied) :
    ∃ of : Bool, row.resultOf = fromBoolean of ∧ row.resultOf.val = of.toNat := by
  rcases (satisfied.carryBoolean 15 (by decide)).exists_bool with ⟨of, equal⟩
  have isOf : row.resultOf = fromBoolean of := equal
  refine ⟨of, isOf, ?_⟩
  rw [isOf, fromBoolean_eq, val_natCast_of_lt (lt_of_le_of_lt (Bool.toNat_le _) (by decide))]

/-- Sixteen limbs in range hold a number of 256 bits. -/
theorem value_limbs_lt {limbs : Nat → F} (range : ∀ i < 16, IsU16 (limbs i)) :
    (value (2 ^ 16) 16 fun i => (limbs i).val) < 2 ^ 256 := by
  have bound := value_lt range
  rw [← Nat.pow_mul] at bound
  exact bound

theorem Satisfied.aValue_lt (satisfied : row.Satisfied) : row.aValue < 2 ^ 256 :=
  value_limbs_lt fun i inRange => (bytes_of_split (satisfied.aSplit i inRange)).1

theorem Satisfied.bValue_lt (satisfied : row.Satisfied) : row.bValue < 2 ^ 256 :=
  value_limbs_lt fun i inRange => (bytes_of_split (satisfied.bSplit i inRange)).1

/-- An additive operation: what the chain of additions says about its result. -/
theorem Satisfied.additive_value (satisfied : row.Satisfied) (performs : row.Performs op carry)
    (additive : op ≠ .mulLow ∧ op ≠ .mulHigh) :
    row.additiveValue < 2 ^ 256 := by
  apply value_limbs_lt
  intro i inRange
  have result := satisfied.result_range performs inRange
  rw [if_neg (by simp [additive])] at result
  exact result

/-- The output of a satisfied row is in range and holds the result of its operation. -/
theorem Satisfied.output_value (satisfied : row.Satisfied) (performs : row.Performs op carry) :
    (∀ i < 16, IsU16 (row.outputLimbs i)) ∧
      row.outputValue = op.result carry row.aValue row.bValue := by
  have selected (i : Nat) (inRange : i < 16) : row.outputLimbs i = match op with
      | .add | .sub | .subAndNegate | .memcopy => row.additiveOpsResult i
      | .mulLow => row.productLow i
      | .mulHigh => row.productHigh i
      | .eq => row.aLimbs i := by
    rw [← performs.selectedOutput_eq]
    exact (sub_eq_zero.mp (satisfied.output i inRange)).symm
  have range := fun i inRange => @Satisfied.result_range row op carry satisfied performs i inRange
  have addition := satisfied.addition_value performs
  have aBound := satisfied.aValue_lt
  have bBound := satisfied.bValue_lt
  rcases resultOf_bool satisfied with ⟨of, _, ofValue⟩
  have ofBound := Bool.toNat_le of
  rw [ofValue] at addition
  have isOutput {limbs : Nat → F} (same : ∀ i < 16, row.outputLimbs i = limbs i) :
      row.outputValue = value (2 ^ 16) 16 fun i => (limbs i).val :=
    value_congr fun i inRange => by rw [same i inRange]
  have zeroValue : (value (2 ^ 16) 16 fun _ => (0 : F).val) = 0 := by
    rw [ZMod.val_zero]
    exact value_const_zero _ _
  cases op with
  | add =>
      have bound := satisfied.additive_value performs (by decide)
      refine ⟨fun i inRange => by rw [selected i inRange]; exact range i inRange, ?_⟩
      have equation : row.aValue + row.bValue + carry.toNat =
          row.additiveValue + 2 ^ 256 * of.toNat := addition
      have isResult : row.outputValue = row.additiveValue := isOutput selected
      rw [isResult, BigintOp.result, equation, Nat.add_mul_mod_self_left, Nat.mod_eq_of_lt bound]
  | sub =>
      have bound := satisfied.additive_value performs (by decide)
      refine ⟨fun i inRange => by rw [selected i inRange]; exact range i inRange, ?_⟩
      have equation : row.additiveValue + row.bValue + carry.toNat =
          row.aValue + 2 ^ 256 * of.toNat := addition
      have isResult : row.outputValue = row.additiveValue := isOutput selected
      rw [isResult, BigintOp.result]
      omega
  | subAndNegate =>
      have bound := satisfied.additive_value performs (by decide)
      refine ⟨fun i inRange => by rw [selected i inRange]; exact range i inRange, ?_⟩
      have equation : row.aValue + row.additiveValue + carry.toNat =
          row.bValue + 2 ^ 256 * of.toNat := addition
      have isResult : row.outputValue = row.additiveValue := isOutput selected
      rw [isResult, BigintOp.result]
      omega
  | mulLow =>
      have lowRange (i : Nat) (inRange : i < 16) : IsU16 (row.productLow i) := range i inRange
      refine ⟨fun i inRange => by rw [selected i inRange]; exact range i inRange, ?_⟩
      rw [isOutput selected, BigintOp.result, satisfied.product_value lowRange,
        Nat.add_mul_mod_self_left, Nat.mod_eq_of_lt (value_limbs_lt lowRange)]
  | mulHigh =>
      have lowRange (i : Nat) (inRange : i < 16) : IsU16 (row.productLow i) := range i inRange
      refine ⟨fun i inRange => by
        rw [selected i inRange]
        exact satisfied.productHighRange i inRange, ?_⟩
      rw [isOutput selected, BigintOp.result, satisfied.product_value lowRange,
        Nat.add_mul_div_left _ _ (Nat.two_pow_pos 256), Nat.div_eq_of_lt (value_limbs_lt lowRange),
        Nat.zero_add]
  | eq =>
      refine ⟨fun i inRange => by
        rw [selected i inRange]
        exact (bytes_of_split (satisfied.aSplit i inRange)).1, ?_⟩
      exact isOutput selected
  | memcopy =>
      have bound := satisfied.additive_value performs (by decide)
      refine ⟨fun i inRange => by rw [selected i inRange]; exact range i inRange, ?_⟩
      have equation : (value (2 ^ 16) 16 fun _ => (0 : F).val) + row.bValue + carry.toNat =
          row.additiveValue + 2 ^ 256 * of.toNat := addition
      rw [zeroValue, Nat.zero_add] at equation
      have isResult : row.outputValue = row.additiveValue := isOutput selected
      rw [isResult, BigintOp.result, equation, Nat.add_mul_mod_self_left, Nat.mod_eq_of_lt bound]

/-- The words that the zero check sums. -/
theorem Performs.zeroCheck_eq (performs : row.Performs op carry) (i : Nat) :
    row.perform .eq * row.additiveOpsResult i + row.perform .mulLow * row.productHigh i =
      match op with
      | .eq => row.additiveOpsResult i
      | .mulLow => row.productHigh i
      | .add | .sub | .subAndNegate | .mulHigh | .memcopy => 0 := by
  rw [performs.perform, performs.perform]
  cases op <;> simp

theorem Satisfied.zeroCheckInputs_eq (satisfied : row.Satisfied) (performs : row.Performs op carry)
    {i : Nat} (inRange : i < 16) : row.zeroCheckInputs i = match op with
      | .eq => row.additiveOpsResult i
      | .mulLow => row.productHigh i
      | .add | .sub | .subAndNegate | .mulHigh | .memcopy => 0 := by
  rw [← sub_eq_zero.mp (satisfied.zeroCheck i inRange)]
  exact performs.zeroCheck_eq i

theorem one_sub_fromBoolean (value : Bool) : 1 - fromBoolean value = fromBoolean !value := by
  cases value
  · exact sub_zero 1
  · exact sub_self 1

/-- The value written to `x12`, before the equation of each operation is read. -/
theorem Performs.x12Low_eq (performs : row.Performs op carry) :
    row.perform .add * row.resultOf + row.perform .sub * row.resultOf +
        row.perform .subAndNegate * row.resultOf + row.perform .eq * row.performEqResult +
        row.perform .mulLow * (1 - row.allZeroes) + row.perform .memcopy * row.resultOf =
      match op with
      | .add | .sub | .subAndNegate | .memcopy => row.resultOf
      | .eq => row.performEqResult
      | .mulLow => 1 - row.allZeroes
      | .mulHigh => 0 := by
  simp only [performs.perform]
  cases op <;> simp

/-- The carry out of the sum is the flag of the additive operations. -/
theorem Satisfied.resultOf_eq (satisfied : row.Satisfied) (performs : row.Performs op carry)
    (additive : op ∈ [.add, .sub, .subAndNegate, .memcopy]) :
    row.resultOf = fromBoolean (op.flag carry row.aValue row.bValue) := by
  have addition := satisfied.addition_value performs
  have aBound := satisfied.aValue_lt
  have bBound := satisfied.bValue_lt
  rcases resultOf_bool satisfied with ⟨of, isOf, ofValue⟩
  rw [ofValue] at addition
  have bound := satisfied.additive_value performs (by
    constructor <;> rintro rfl <;> simp at additive)
  have decided {P : Prop} [Decidable P] (holds : of.toNat = 1 ↔ P) : of = decide P := by
    rw [Bool.eq_iff_iff, ← Bool.toNat_eq_one, holds, decide_eq_true_iff]
  have flagBound := Bool.toNat_le of
  rw [isOf]
  apply congrArg
  cases op with
  | add =>
      have equation : row.aValue + row.bValue + carry.toNat =
          row.additiveValue + 2 ^ 256 * of.toNat := addition
      have overflows : of.toNat = 1 ↔ 2 ^ 256 ≤ row.aValue + row.bValue + carry.toNat := by omega
      exact decided overflows
  | sub =>
      have equation : row.additiveValue + row.bValue + carry.toNat =
          row.aValue + 2 ^ 256 * of.toNat := addition
      have overflows : of.toNat = 1 ↔ row.aValue < row.bValue + carry.toNat := by omega
      exact decided overflows
  | subAndNegate =>
      have equation : row.aValue + row.additiveValue + carry.toNat =
          row.bValue + 2 ^ 256 * of.toNat := addition
      have overflows : of.toNat = 1 ↔ row.bValue < row.aValue + carry.toNat := by omega
      exact decided overflows
  | memcopy =>
      have equation : (value (2 ^ 16) 16 fun _ => (0 : F).val) + row.bValue + carry.toNat =
          row.additiveValue + 2 ^ 256 * of.toNat := addition
      have zeroValue : (value (2 ^ 16) 16 fun _ => (0 : F).val) = 0 := by
        rw [ZMod.val_zero]
        exact value_const_zero _ _
      rw [zeroValue, Nat.zero_add] at equation
      have overflows : of.toNat = 1 ↔ 2 ^ 256 ≤ row.bValue + carry.toNat := by omega
      exact decided overflows
  | mulLow => simp at additive
  | mulHigh => simp at additive
  | eq => simp at additive

/-- The product overflows unless its high half is zero. -/
theorem Satisfied.allZeroes_mulLow (satisfied : row.Satisfied)
    (performs : row.Performs .mulLow carry) :
    1 - row.allZeroes = fromBoolean (decide (2 ^ 256 ≤ row.aValue * row.bValue)) := by
  have lowRange (i : Nat) (inRange : i < 16) : IsU16 (row.productLow i) :=
    satisfied.result_range performs inRange
  have inputs (i : Nat) (inRange : i < 16) : row.zeroCheckInputs i = row.productHigh i :=
    satisfied.zeroCheckInputs_eq performs inRange
  have zeroes := satisfied.allZeroes_eq fun i inRange => by
    rw [inputs i inRange]
    exact satisfied.productHighRange i inRange
  have same : (value (2 ^ 16) 16 fun i => (row.zeroCheckInputs i).val) =
      value (2 ^ 16) 16 fun i => (row.productHigh i).val :=
    value_congr fun i inRange => by rw [inputs i inRange]
  have lowBound := value_limbs_lt lowRange
  rw [satisfied.product_value lowRange, zeroes, same, one_sub_fromBoolean, ← decide_not]
  generalize (value (2 ^ 16) 16 fun i => (row.productHigh i).val) = high
  generalize (value (2 ^ 16) 16 fun i => (row.productLow i).val) = low at lowBound
  apply congrArg
  apply decide_eq_decide.mpr
  omega

/-- The comparison asks that the difference is zero and does not borrow. -/
theorem Satisfied.performEqResult_eq (satisfied : row.Satisfied)
    (performs : row.Performs .eq carry) (execute : row.execute = 1) :
    row.performEqResult = fromBoolean (decide (row.aValue = row.bValue)) := by
  have addition := satisfied.addition_value performs
  have aBound := satisfied.aValue_lt
  have bBound := satisfied.bValue_lt
  have bound := satisfied.additive_value performs (by decide)
  rcases resultOf_bool satisfied with ⟨of, isOf, ofValue⟩
  have inputs (i : Nat) (inRange : i < 16) : row.zeroCheckInputs i = row.additiveOpsResult i :=
    satisfied.zeroCheckInputs_eq performs inRange
  have zeroes := satisfied.allZeroes_eq fun i inRange => by
    rw [inputs i inRange]
    exact satisfied.result_range performs inRange
  have same : (value (2 ^ 16) 16 fun i => (row.zeroCheckInputs i).val) = row.additiveValue :=
    value_congr fun i inRange => by rw [inputs i inRange]
  rw [ofValue] at addition
  have equation : row.additiveValue + row.bValue + false.toNat =
      row.aValue + 2 ^ 256 * of.toNat := addition
  have selected : row.perform .eq = 1 := performs.perform .eq
  have result : row.performEqResult = row.allZeroes * (1 - row.resultOf) := by
    rw [← sub_eq_zero.mp satisfied.performEqResult, ← sub_eq_zero.mp satisfied.performEqBit,
      ← sub_eq_zero.mp satisfied.valuesAreEqual, selected, execute, one_mul, mul_one]
  rw [result, zeroes, same, isOf, one_sub_fromBoolean]
  generalize row.additiveValue = difference at equation bound
  cases of with
  | false =>
      rw [Bool.toNat_false, Nat.add_zero] at equation
      have equal : difference = 0 ↔ row.aValue = row.bValue := by omega
      rw [decide_eq_decide.mpr equal]
      exact mul_one _
  | true =>
      rw [Bool.toNat_true, Bool.toNat_false, Nat.add_zero] at equation
      have different : row.aValue ≠ row.bValue := by omega
      rw [decide_eq_false different]
      exact mul_zero _

/-- The value written to `x12` is the flag of the operation. -/
theorem Satisfied.flag_value (satisfied : row.Satisfied) (performs : row.Performs op carry)
    (execute : row.execute = 1) :
    row.x12Write.low = fromBoolean (op.flag carry row.aValue row.bValue) := by
  have written := (sub_eq_zero.mp satisfied.x12Low).symm.trans performs.x12Low_eq
  cases op with
  | add => exact written.trans (satisfied.resultOf_eq performs (by decide))
  | sub => exact written.trans (satisfied.resultOf_eq performs (by decide))
  | subAndNegate => exact written.trans (satisfied.resultOf_eq performs (by decide))
  | mulLow => exact written.trans (satisfied.allZeroes_mulLow performs)
  | mulHigh => exact written
  | eq => exact written.trans (satisfied.performEqResult_eq performs execute)
  | memcopy => exact written.trans (satisfied.resultOf_eq performs (by decide))

end Results

end BigintRow

end Airbender.Circuit
