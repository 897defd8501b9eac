import Airbender.Circuit.BigintWithControl

/-!
# The 256-bit delegation circuit computes the bigint operation

A satisfied row writes what the operation returns, and every accepted input has an honest row.
-/

namespace Airbender.Circuit

open Bigint LongArithmetic

/-! ## Digits of the operands -/

/-- The limbs of a number. -/
def limbAt (number i : Nat) : Nat := number / (2 ^ 16) ^ i % 2 ^ 16

/-- The bytes of a number. -/
def byteAt (number i : Nat) : Nat := number / (2 ^ 8) ^ i % 2 ^ 8

section Digits

theorem limbAt_lt (number i : Nat) : limbAt number i < 2 ^ 16 := Nat.mod_lt _ (Nat.two_pow_pos 16)

theorem byteAt_lt (number i : Nat) : byteAt number i < 2 ^ 8 := Nat.mod_lt _ (Nat.two_pow_pos 8)

theorem isU16_limbAt (number i : Nat) : IsU16 (limbAt number i : F) :=
  isU16_natCast (limbAt_lt number i)

theorem val_limbAt (number i : Nat) : (limbAt number i : F).val = limbAt number i :=
  val_natCast_of_lt ((limbAt_lt number i).trans (by decide))

theorem limbAt_zero (i : Nat) : limbAt 0 i = 0 := by
  rw [limbAt, Nat.zero_div, Nat.zero_mod]

theorem value_limbAt {number : Nat} (bound : number < 2 ^ 256) :
    value (2 ^ 16) 16 (limbAt number) = number := by
  have total := @value_digits (2 ^ 16) 16 number
  rw [← Nat.pow_mul, Nat.mod_eq_of_lt bound] at total
  exact total

theorem value_byteAt {number : Nat} (bound : number < 2 ^ 256) :
    value (2 ^ 8) 32 (byteAt number) = number := by
  have total := @value_digits (2 ^ 8) 32 number
  rw [← Nat.pow_mul, Nat.mod_eq_of_lt bound] at total
  exact total

/-- Two bytes make a limb. -/
theorem limb_bytes (number i : Nat) :
    limbAt number i % 2 ^ 8 = byteAt number (2 * i) ∧
      limbAt number i / 2 ^ 8 = byteAt number (2 * i + 1) := by
  have base : (2 ^ 8) ^ (2 * i) = (2 ^ 16) ^ i := by rw [← Nat.pow_mul, ← Nat.pow_mul]; ring_nf
  have next : (2 ^ 8) ^ (2 * i + 1) = (2 ^ 16) ^ i * 2 ^ 8 := by rw [Nat.pow_succ, base]
  rw [limbAt, byteAt, byteAt, next, base, ← Nat.div_div_eq_div_mul]
  generalize number / (2 ^ 16) ^ i = rest
  omega

theorem split_limbAt (number i : Nat) :
    ((limbAt number i : F), (byteAt number (2 * i) : F), (byteAt number (2 * i + 1) : F)) ∈
      createU16SplitIntoBytesTable := by
  rw [mem_u16SplitTable, val_limbAt, (limb_bytes number i).1, (limb_bytes number i).2]
  exact ⟨isU16_limbAt number i, rfl, rfl⟩

end Digits

/-! ## The honest row -/

/-- The result of the chain of additions; a product leaves it unused. -/
def additiveResult (op : BigintOp) (carry : Bool) (a b : Nat) : Nat :=
  match op with
  | .add => (a + b + carry.toNat) % 2 ^ 256
  | .sub => (a + 2 ^ 257 - (b + carry.toNat)) % 2 ^ 256
  | .subAndNegate => (b + 2 ^ 257 - (a + carry.toNat)) % 2 ^ 256
  | .eq => (a + 2 ^ 257 - b) % 2 ^ 256
  | .memcopy => (b + carry.toNat) % 2 ^ 256
  | .mulLow | .mulHigh => 0

/-- The numbers whose sum the additions check. -/
def chainOperands (op : BigintOp) (carry : Bool) (a b : Nat) : Nat × Nat × Nat :=
  let result := additiveResult op carry a b
  match op with
  | .add => (a, b, result)
  | .sub | .eq => (result, b, a)
  | .subAndNegate => (a, result, b)
  | .memcopy => (0, b, result)
  | .mulLow | .mulHigh => (0, 0, 0)

def chainCarry (op : BigintOp) (carry : Bool) (a b i : Nat) : Nat :=
  LongArithmetic.carry (2 ^ 16) (BigintRow.carryIn op carry).toNat
    (fun i => limbAt (chainOperands op carry a b).1 i + limbAt (chainOperands op carry a b).2.1 i) i

def productCarry (a b i : Nat) : Nat :=
  LongArithmetic.carry (2 ^ 16) 0 (productTermsNat (byteAt a) (byteAt b)) i

/-- The words that the honest row compares with zero. -/
def zeroCheckWord (op : BigintOp) (carry : Bool) (a b i : Nat) : Nat :=
  match op with
  | .eq => limbAt (additiveResult op carry a b) i
  | .mulLow => limbAt (a * b) (16 + i)
  | .add | .sub | .subAndNegate | .mulHigh | .memcopy => 0

def checkedWord (op : BigintOp) (carry : Bool) (a b i : Nat) : Nat :=
  match op with
  | .mulLow | .mulHigh => limbAt (a * b) i
  | .add | .sub | .subAndNegate | .eq | .memcopy => limbAt (additiveResult op carry a b) i

def outputWord (op : BigintOp) (carry : Bool) (a b i : Nat) : Nat :=
  match op with
  | .add | .sub | .subAndNegate | .memcopy => limbAt (additiveResult op carry a b) i
  | .eq => limbAt a i
  | .mulLow => limbAt (a * b) i
  | .mulHigh => limbAt (a * b) (16 + i)

/-- The half of the zero check that starts at a word. -/
def zeroCheckHalf (op : BigintOp) (carry : Bool) (a b start : Nat) : F :=
  ∑ i ∈ Finset.range 8, (zeroCheckWord op carry a b (start + i) : F)

def zeroFlag (x : F) : F := if x = 0 then 1 else 0

def honestAllZeroes (op : BigintOp) (carry : Bool) (a b : Nat) : F :=
  zeroFlag (zeroCheckHalf op carry a b 0) * zeroFlag (zeroCheckHalf op carry a b 8)

def honestEqual (op : BigintOp) (carry : Bool) (a b : Nat) : F :=
  honestAllZeroes op carry a b * (1 - (chainCarry op carry a b 16 : F))

/-- The row that the witness evaluation fills in. -/
def honestRow (op : BigintOp) (carry : Bool) (a b : Nat) (controlMask : Register) : BigintRow where
  execute := 1
  aLimbs i := (limbAt a i : F)
  bLimbs i := (limbAt b i : F)
  controlMask := controlMask
  control
    | .perform other => if op = other then 1 else 0
    | .carryOrBorrow => fromBoolean carry
  additiveOpsResult i := (limbAt (additiveResult op carry a b) i : F)
  intermediateCarry i := (chainCarry op carry a b (i + 1) : F)
  aBytes i := (byteAt a i : F)
  bBytes i := (byteAt b i : F)
  fullProduct i := (limbAt (a * b) i : F)
  productIntermediate i :=
    ((productTermsNat (byteAt a) (byteAt b) i + productCarry a b i : Nat) : F)
  mergedRangeCheck i := (checkedWord op carry a b i : F)
  outputLimbs i := (outputWord op carry a b i : F)
  zeroCheckInputs i := (zeroCheckWord op carry a b i : F)
  firstInverse := (zeroCheckHalf op carry a b 0)⁻¹
  firstFlag := zeroFlag (zeroCheckHalf op carry a b 0)
  secondInverse := (zeroCheckHalf op carry a b 8)⁻¹
  secondFlag := zeroFlag (zeroCheckHalf op carry a b 8)
  allZeroes := honestAllZeroes op carry a b
  valuesAreEqual := honestEqual op carry a b
  performEqBit := if op = .eq then honestEqual op carry a b else 0
  performEqResult := if op = .eq then honestEqual op carry a b else 0
  x12Write := ⟨match op with
    | .add | .sub | .subAndNegate | .memcopy => (chainCarry op carry a b 16 : F)
    | .eq => honestEqual op carry a b
    | .mulLow => 1 - honestAllZeroes op carry a b
    | .mulHigh => 0, 0⟩

namespace BigintRow

section Honest

variable {op : BigintOp} {carry : Bool} {a b : Nat} {controlMask : Register}

theorem performs_honestRow : (honestRow op carry a b controlMask).Performs op carry :=
  ⟨fun _ => rfl, rfl⟩

theorem honest_control (mask : controlMask.low = ((op.mask carry : Nat) : F)) :
    BigintControl controlMask (honestRow op carry a b controlMask).control := by
  constructor
  · have flags : BigintControlBit.all.map (honestRow op carry a b controlMask).control =
        bitmaskFlags (op.mask carry) 8 := by
      cases op <;> cases carry <;> rfl
    rw [flags, mask]
    exact splitIntoBitmask_flags (op.mask_lt carry)
  · have one : performSum (honestRow op carry a b controlMask).control = 1 := by
      cases op <;> rfl
    rw [one, sub_self, mul_zero]

/-- The equation between the operands of the chain. -/
theorem chainOperands_sum (aBound : a < 2 ^ 256) (bBound : b < 2 ^ 256) :
    ∃ carryOut, carryOut ≤ 1 ∧
      (chainOperands op carry a b).1 + (chainOperands op carry a b).2.1 +
          (carryIn op carry).toNat =
        (chainOperands op carry a b).2.2 + 2 ^ 256 * carryOut := by
  have carryBound := Bool.toNat_le carry
  cases op with
  | add =>
      refine ⟨(a + b + carry.toNat) / 2 ^ 256, by omega, ?_⟩
      simp only [chainOperands, additiveResult, carryIn]
      omega
  | sub =>
      refine ⟨if a < b + carry.toNat then 1 else 0, by split <;> omega, ?_⟩
      simp only [chainOperands, additiveResult, carryIn]
      split <;> omega
  | subAndNegate =>
      refine ⟨if b < a + carry.toNat then 1 else 0, by split <;> omega, ?_⟩
      simp only [chainOperands, additiveResult, carryIn]
      split <;> omega
  | eq =>
      refine ⟨if a < b then 1 else 0, by split <;> omega, ?_⟩
      simp only [chainOperands, additiveResult, carryIn, Bool.toNat_false]
      split <;> omega
  | memcopy =>
      refine ⟨(b + carry.toNat) / 2 ^ 256, by omega, ?_⟩
      simp only [chainOperands, additiveResult, carryIn]
      omega
  | mulLow => exact ⟨0, Nat.zero_le 1, rfl⟩
  | mulHigh => exact ⟨0, Nat.zero_le 1, rfl⟩

theorem additiveResult_lt : additiveResult op carry a b < 2 ^ 256 := by
  cases op with
  | mulLow => exact Nat.two_pow_pos 256
  | mulHigh => exact Nat.two_pow_pos 256
  | _ => exact Nat.mod_lt _ (Nat.two_pow_pos 256)

theorem chainOperands_lt (aBound : a < 2 ^ 256) (bBound : b < 2 ^ 256) :
    (chainOperands op carry a b).1 < 2 ^ 256 ∧ (chainOperands op carry a b).2.1 < 2 ^ 256 ∧
      (chainOperands op carry a b).2.2 < 2 ^ 256 := by
  have result := @additiveResult_lt op carry a b
  have zero : 0 < 2 ^ 256 := Nat.two_pow_pos 256
  cases op with
  | add => exact ⟨aBound, bBound, result⟩
  | sub => exact ⟨result, bBound, aBound⟩
  | subAndNegate => exact ⟨aBound, result, bBound⟩
  | eq => exact ⟨result, bBound, aBound⟩
  | memcopy => exact ⟨zero, bBound, result⟩
  | mulLow => exact ⟨zero, zero, zero⟩
  | mulHigh => exact ⟨zero, zero, zero⟩

/-- The carries of the honest row add up its operands. -/
theorem honest_chain (aBound : a < 2 ^ 256) (bBound : b < 2 ^ 256) :
    Chain (2 ^ 16) 16
      (fun i => limbAt (chainOperands op carry a b).1 i + limbAt (chainOperands op carry a b).2.1 i)
      (limbAt (chainOperands op carry a b).2.2) (chainCarry op carry a b) := by
  rcases @chainOperands_sum op carry a b aBound bBound with ⟨carryOut, _, total⟩
  rcases @chainOperands_lt op carry a b aBound bBound with ⟨first, second, third⟩
  refine (@chain_of_value_eq (2 ^ 16) 16 _ _ (Nat.two_pow_pos 16) _ carryOut
    (fun i _ => limbAt_lt _ i) ?_).1
  rw [value_add, value_limbAt first, value_limbAt second, value_limbAt third, total]
  norm_num

theorem chainCarry_le_one {i : Nat} (inRange : i ≤ 16) : chainCarry op carry a b i ≤ 1 := by
  apply carry_le_one (Nat.two_pow_pos 16) (Bool.toNat_le _) _ inRange
  intro j _
  have first := limbAt_lt (chainOperands op carry a b).1 j
  have second := limbAt_lt (chainOperands op carry a b).2.1 j
  omega

/-- The operands of the row are those of the chain. -/
theorem honest_operands (i : Nat) :
    (honestRow op carry a b controlMask).operandA op i = (limbAt (chainOperands op carry a b).1 i : F) ∧
      (honestRow op carry a b controlMask).operandB op i =
        (limbAt (chainOperands op carry a b).2.1 i : F) ∧
      (honestRow op carry a b controlMask).operandC op i =
        (limbAt (chainOperands op carry a b).2.2 i : F) := by
  have zero : (0 : F) = (limbAt 0 i : F) := by rw [limbAt_zero, Nat.cast_zero]
  cases op with
  | memcopy => exact ⟨zero, rfl, rfl⟩
  | mulLow => exact ⟨zero, zero, zero⟩
  | mulHigh => exact ⟨zero, zero, zero⟩
  | _ => exact ⟨rfl, rfl, rfl⟩

theorem honest_carryInto (i : Nat) :
    (honestRow op carry a b controlMask).carryInto i = (chainCarry op carry a b i : F) := by
  cases i with
  | zero =>
      rw [performs_honestRow.carryInto_zero, fromBoolean_eq, chainCarry, carry_zero]
  | succ i => rfl

theorem honest_addition (aBound : a < 2 ^ 256) (bBound : b < 2 ^ 256) {i : Nat}
    (inRange : i < 16) :
    (honestRow op carry a b controlMask).virtualA i +
        (honestRow op carry a b controlMask).virtualB i -
        (honestRow op carry a b controlMask).virtualC i -
        65536 * (honestRow op carry a b controlMask).intermediateCarry i +
        (honestRow op carry a b controlMask).carryInto i = 0 := by
  have limb := @honest_chain op carry a b aBound bBound i inRange
  have cast := congrArg (Nat.cast : Nat → F) limb
  rcases @performs_honestRow op carry a b controlMask |>.virtual_eq i with ⟨first, second, third⟩
  rcases @honest_operands op carry a b controlMask i with ⟨operandA, operandB, operandC⟩
  have next : (honestRow op carry a b controlMask).intermediateCarry i =
      (chainCarry op carry a b (i + 1) : F) := rfl
  rw [first, second, third, operandA, operandB, operandC, honest_carryInto, next]
  push_cast at cast
  linear_combination cast

/-- The carries of the product stay in the ranges that the circuit computes. -/
theorem productCarry_le (a b : Nat) : ∀ i, productCarry a b i ≤ carryRange i := by
  intro i
  induction i with
  | zero => exact (carry_zero _ _ _).le
  | succ i hypothesis =>
      have terms := productTermsNat_le (fun j _ => byteAt_lt a j) (fun j _ => byteAt_lt b j) i
      rw [productCarry, carry_succ (Nat.two_pow_pos 16)]
      apply Nat.div_le_div_right
      rw [Nat.add_comm]
      exact Nat.add_le_add hypothesis terms

theorem mul_lt (aBound : a < 2 ^ 256) (bBound : b < 2 ^ 256) : a * b < (2 ^ 16) ^ 32 := by
  have half : (2 ^ 16) ^ 16 = 2 ^ 256 := by norm_num
  calc
    a * b < 2 ^ 256 * 2 ^ 256 := Nat.mul_lt_mul'' aBound bBound
    _ = (2 ^ 16) ^ (16 + 16) := by rw [Nat.pow_add, half]

/-- The carries of the honest row add up the product. -/
theorem honest_productChain (aBound : a < 2 ^ 256) (bBound : b < 2 ^ 256) :
    Chain (2 ^ 16) 32 (productTermsNat (byteAt a) (byteAt b)) (limbAt (a * b)) (productCarry a b) ∧
      productCarry a b 32 = 0 := by
  apply chain_of_value_eq (Nat.two_pow_pos 16) fun i _ => limbAt_lt _ i
  rw [value_productTermsNat, value_byteAt aBound, value_byteAt bBound]
  have words := @value_digits (2 ^ 16) 32 (a * b)
  rw [Nat.mod_eq_of_lt (mul_lt aBound bBound)] at words
  rw [Nat.mul_zero, Nat.add_zero, Nat.add_zero]
  exact words.symm

theorem honest_productTerms (i : Nat) :
    (honestRow op carry a b controlMask).productTerms i =
      (productTermsNat (byteAt a) (byteAt b) i : F) := by
  have bytes (number j : Nat) : ((byteAt number j : Nat) : F).val = byteAt number j :=
    val_natCast_of_lt ((byteAt_lt number j).trans (by decide))
  rw [productTerms_eq]
  simp only [honestRow, bytes]

/-- The carry expression of the row is the carry of the product. -/
theorem honest_carryConstraint (aBound : a < 2 ^ 256) (bBound : b < 2 ^ 256) {i : Nat}
    (inRange : i < 32) :
    (honestRow op carry a b controlMask).carryConstraint i = (productCarry a b i : F) := by
  cases i with
  | zero =>
      have zero : productCarry a b 0 = 0 := carry_zero _ _ _
      rw [zero, Nat.cast_zero]
      rfl
  | succ i =>
      have nonzero : (65536 : F) ≠ 0 := by decide
      have word := (honest_productChain aBound bBound).1 i (by omega)
      have cast : ((productTermsNat (byteAt a) (byteAt b) i + productCarry a b i : Nat) : F) =
          ((limbAt (a * b) i + 2 ^ 16 * productCarry a b (i + 1) : Nat) : F) := congrArg _ word
      have intermediate : (honestRow op carry a b controlMask).productIntermediate i =
          ((productTermsNat (byteAt a) (byteAt b) i + productCarry a b i : Nat) : F) := rfl
      have product : (honestRow op carry a b controlMask).fullProduct i =
          (limbAt (a * b) i : F) := rfl
      rw [carryConstraint, mul_inv_eq_iff_eq_mul₀ nonzero, intermediate, product, cast]
      push_cast
      ring

/-- One word of the product with the carries around it. -/
theorem honest_productWord (aBound : a < 2 ^ 256) (bBound : b < 2 ^ 256) {i : Nat}
    (inRange : i < 32) :
    (honestRow op carry a b controlMask).carryConstraint i +
        (honestRow op carry a b controlMask).productTerms i -
        (honestRow op carry a b controlMask).fullProduct i =
      65536 * (productCarry a b (i + 1) : F) := by
  have word := (honest_productChain aBound bBound).1 i inRange
  have cast : ((productTermsNat (byteAt a) (byteAt b) i + productCarry a b i : Nat) : F) =
      ((limbAt (a * b) i + 2 ^ 16 * productCarry a b (i + 1) : Nat) : F) := congrArg _ word
  have product : (honestRow op carry a b controlMask).fullProduct i = (limbAt (a * b) i : F) := rfl
  rw [honest_carryConstraint aBound bBound inRange, honest_productTerms, product]
  push_cast at cast
  linear_combination cast

theorem isBoolean_natCast {n : Nat} (bound : n ≤ 1) : IsBoolean (n : F) := by
  rcases Nat.le_one_iff_eq_zero_or_eq_one.mp bound with rfl | rfl
  · exact isBoolean_iff.mpr (Or.inl Nat.cast_zero)
  · exact isBoolean_iff.mpr (Or.inr Nat.cast_one)

/-- A flag of zero with its inverse. -/
theorem zeroFlag_checks (x : F) :
    x⁻¹ * x - (1 - zeroFlag x) = 0 ∧ (1 - (1 - zeroFlag x)) * x = 0 := by
  rw [zeroFlag]
  by_cases zero : x = 0
  · rw [if_pos zero, zero]
    simp
  · rw [if_neg zero, inv_mul_cancel₀ zero]
    simp

theorem honest_resultToCheck (i : Nat) :
    (honestRow op carry a b controlMask).resultToCheck i = (checkedWord op carry a b i : F) := by
  rw [performs_honestRow.resultToCheck_eq]
  cases op <;> rfl

theorem honest_resultOf :
    (honestRow op carry a b controlMask).resultOf = (chainCarry op carry a b 16 : F) :=
  honest_carryInto 16

/-- The honest row satisfies every constraint. -/
theorem honestRow_satisfied (aBound : a < 2 ^ 256) (bBound : b < 2 ^ 256)
    (mask : controlMask.low = ((op.mask carry : Nat) : F)) :
    (honestRow op carry a b controlMask).Satisfied where
  controlBits := honest_control mask
  carryBoolean i inRange := isBoolean_natCast (chainCarry_le_one (by omega))
  addition _ inRange := honest_addition aBound bBound inRange
  aSplit i _ := split_limbAt a i
  bSplit i _ := split_limbAt b i
  productHighRange _ _ := isU16_limbAt _ _
  productIntermediate i inRange := by
    have intermediate : (honestRow op carry a b controlMask).productIntermediate i =
        ((productTermsNat (byteAt a) (byteAt b) i + productCarry a b i : Nat) : F) := rfl
    rw [honest_carryConstraint aBound bBound (by omega), honest_productTerms, intermediate]
    push_cast
    ring
  productLast := by
    have last := @honest_productWord op carry a b controlMask aBound bBound 31 (by decide)
    rw [(honest_productChain aBound bBound).2, Nat.cast_zero, mul_zero] at last
    exact last
  mergedRangeCheck i _ := by
    rw [honest_resultToCheck]
    exact sub_self _
  mergedRange i _ := by
    cases op <;> exact isU16_limbAt _ _
  carryConstraintRange i inRange := by
    have bound := (productCarry_le a b (i + 1)).trans_lt (carryRange_checked i inRange).1
    have width := Nat.pow_le_pow_right (n := 2) Nat.two_pos (carryRange_checked i inRange).2
    rw [honest_carryConstraint aBound bBound (by omega),
      val_natCast_of_lt ((bound.trans_le width).trans (by decide))]
    exact bound
  output i _ := by
    rw [performs_honestRow.selectedOutput_eq, sub_eq_zero]
    cases op <;> rfl
  zeroCheck i _ := by
    rw [performs_honestRow.zeroCheck_eq, sub_eq_zero]
    cases op with
    | eq => rfl
    | mulLow => rfl
    | _ => exact Nat.cast_zero.symm
  firstInverted := by
    have half : (honestRow op carry a b controlMask).firstHalf = zeroCheckHalf op carry a b 0 :=
      Finset.sum_congr rfl fun i _ => by simp only [honestRow, Nat.zero_add]
    rw [half]
    exact (zeroFlag_checks _).1
  firstProduct := by
    have half : (honestRow op carry a b controlMask).firstHalf = zeroCheckHalf op carry a b 0 :=
      Finset.sum_congr rfl fun i _ => by simp only [honestRow, Nat.zero_add]
    rw [half]
    exact (zeroFlag_checks _).2
  secondInverted := (zeroFlag_checks (zeroCheckHalf op carry a b 8)).1
  secondProduct := (zeroFlag_checks (zeroCheckHalf op carry a b 8)).2
  allZeroes := by
    simp only [honestRow]
    rw [honestAllZeroes, sub_self]
  valuesAreEqual := by
    rw [honest_resultOf]
    simp only [honestRow]
    rw [honestEqual, sub_self]
  performEqBit := by
    rw [performs_honestRow.perform, sub_eq_zero]
    simp only [honestRow]
    split
    · exact one_mul _
    · exact zero_mul _
  performEqResult := by
    simp only [honestRow]
    rw [mul_one, sub_self]
  x12Low := by
    rw [performs_honestRow.x12Low_eq, honest_resultOf, sub_eq_zero]
    cases op <;> simp only [honestRow, if_true]
  x12High := rfl

end Honest

end BigintRow

/-! ## The words of a row -/

/-- The eight words that sixteen limbs hold. -/
def words (limbs : Nat → F) : List U32 :=
  (List.range 8).map fun i => wordOf (limbs (2 * i)) (limbs (2 * i + 1))

section Words

variable {limbs : Nat → F}

theorem length_words (limbs : Nat → F) : (words limbs).length = 8 := by
  rw [words, List.length_map, List.length_range]

theorem wordsValue_words (range : ∀ i < 16, IsU16 (limbs i)) :
    wordsValue (words limbs) = value (2 ^ 16) 16 fun i => (limbs i).val := by
  have pairs := value_pairs (2 ^ 16) 8 fun i => (limbs i).val
  have base : (2 ^ 16) ^ 2 = 2 ^ 32 := by norm_num
  rw [base] at pairs
  rw [wordsValue, length_words, ← pairs]
  apply value_congr
  intro i inRange
  have word : (words limbs).getD i 0 = wordOf (limbs (2 * i)) (limbs (2 * i + 1)) := by
    rw [List.getD_eq_getElem _ _ (by simpa [words] using inRange)]
    simp [words]
  rw [word, toNat_wordOf (range _ (by omega)) (range _ (by omega))]

theorem wordsValue_lt {list : List U32} (length : list.length = 8) : wordsValue list < 2 ^ 256 := by
  have bound := @value_lt (2 ^ 32) list.length (fun i => (list.getD i 0).toNat)
    fun _ _ => BitVec.isLt _
  rw [length, ← Nat.pow_mul] at bound
  rw [wordsValue, length]
  exact bound

/-- The limbs of the value of some words hold the words. -/
theorem words_limbAt {list : List U32} (length : list.length = 8) :
    (words fun i => (limbAt (wordsValue list) i : F)) = list := by
  apply words_eq_of_value_eq
  · rw [length_words, length]
  · rw [wordsValue_words fun i _ => isU16_limbAt _ i]
    simp only [val_limbAt]
    exact value_limbAt (wordsValue_lt length)

theorem limbsValue_words (range : ∀ i < 16, IsU16 (limbs i)) :
    limbsValue (limbsOfWords 4 (words limbs)) = value (2 ^ 16) 16 fun i => (limbs i).val := by
  rw [limbsValue_limbsOfWords 4 _ (length_words limbs), wordsValue_words range]

end Words

/-! ## The circuit and the operation -/

section Exact

variable [Ruint]

/-- A satisfied row whose control the operation accepts performs one operation. -/
theorem BigintRow.exists_performs {row : BigintRow} {a b : U256} {outcome : U256 × Bool}
    (satisfied : row.Satisfied) (range : row.controlMask.RangeChecked)
    (accepted : bigintImpl a b row.controlMask.value = some outcome) :
    ∃ op carry, row.controlMask.value = BitVec.ofNat 32 (op.mask carry) ∧
      row.Performs op carry := by
  rcases exists_op_of_bigintImpl accepted with ⟨op, carry, mask⟩
  refine ⟨op, carry, mask, satisfied.performs ?_⟩
  have small := op.mask_lt carry
  rw [range.eq_ofU32, mask, Register.low_ofU32, BitVec.toNat_ofNat,
    Nat.mod_eq_of_lt (small.trans (by decide)), Nat.mod_eq_of_lt (small.trans (by decide))]

/-- A row that the circuit accepts writes the result and the flag of the operation. -/
theorem BigintRow.Satisfied.outputs [LawfulRuint] {row : BigintRow} {result : U256} {flag : Bool}
    (satisfied : row.Satisfied) (execute : row.execute = 1) (range : row.controlMask.RangeChecked)
    (accepted : bigintImpl (limbsOfWords 4 (words row.aLimbs)) (limbsOfWords 4 (words row.bLimbs))
      row.controlMask.value = some (result, flag)) :
    (∀ i < 16, IsU16 (row.outputLimbs i)) ∧ words row.outputLimbs = wordsOfLimbs result.toList ∧
      row.x12Write = Register.ofU32 (if flag then 1 else 0) := by
  rcases exists_performs satisfied range accepted with ⟨op, carry, mask, performs⟩
  rcases bigintImpl_value op carry (limbsOfWords 4 (words row.aLimbs))
    (limbsOfWords 4 (words row.bLimbs)) with ⟨result', flag', returned, resultValue, flagValue⟩
  rw [mask, returned, Option.some.injEq, Prod.mk.injEq] at accepted
  rcases accepted with ⟨rfl, rfl⟩
  have aValue : limbsValue (limbsOfWords 4 (words row.aLimbs)) = row.aValue :=
    limbsValue_words fun i inRange => (bytes_of_split (satisfied.aSplit i inRange)).1
  have bValue : limbsValue (limbsOfWords 4 (words row.bLimbs)) = row.bValue :=
    limbsValue_words fun i inRange => (bytes_of_split (satisfied.bSplit i inRange)).1
  rcases satisfied.output_value performs with ⟨outputRange, output⟩
  rw [aValue, bValue] at resultValue flagValue
  refine ⟨outputRange, ?_, ?_⟩
  · apply words_eq_of_value_eq
    · rw [length_words, length_wordsOfLimbs, Vector.length_toList]
    · rw [wordsValue_words outputRange, wordsValue_wordsOfLimbs]
      exact output.trans resultValue.symm
  · have low := satisfied.flag_value performs execute
    rw [← flagValue] at low
    rcases written : row.x12Write with ⟨writtenLow, writtenHigh⟩
    have high := satisfied.x12High
    rw [written] at low high
    change writtenLow = fromBoolean flag' at low
    change writtenHigh = 0 at high
    rw [low, high]
    cases flag' <;> rfl

omit [Ruint] in
/-- The honest row of an accepted input satisfies the circuit and holds the input. -/
theorem honestRow_of_words {a b : List U32} (aLength : a.length = 8) (bLength : b.length = 8)
    (op : BigintOp) (carry : Bool) :
    let controlMask := Register.ofU32 (BitVec.ofNat 32 (op.mask carry))
    let row := honestRow op carry (wordsValue a) (wordsValue b) controlMask
    row.Satisfied ∧ words row.aLimbs = a ∧ words row.bLimbs = b := by
  have small := op.mask_lt carry
  refine ⟨?_, words_limbAt aLength, words_limbAt bLength⟩
  apply BigintRow.honestRow_satisfied (wordsValue_lt aLength) (wordsValue_lt bLength)
  rw [Register.low_ofU32, BitVec.toNat_ofNat, Nat.mod_eq_of_lt (small.trans (by decide)),
    Nat.mod_eq_of_lt (small.trans (by decide))]

/-- The circuit is the operation: a satisfied row writes its outcome, and the honest row of every
accepted input satisfies the circuit and writes the outcome. -/
theorem bigintWithControl_exact [LawfulRuint] :
    (∀ (row : BigintRow) (result : U256) (flag : Bool),
      row.Satisfied → row.execute = 1 → row.controlMask.RangeChecked →
      (∀ i < 16, IsU16 (row.aLimbs i)) → (∀ i < 16, IsU16 (row.bLimbs i)) →
      bigintImpl (limbsOfWords 4 (words row.aLimbs)) (limbsOfWords 4 (words row.bLimbs))
        row.controlMask.value = some (result, flag) →
      (∀ i < 16, IsU16 (row.outputLimbs i)) ∧ words row.outputLimbs = wordsOfLimbs result.toList ∧
        row.x12Write = Register.ofU32 (if flag then 1 else 0)) ∧
    ∀ (a b : List U32) (x12 : U32) (result : U256) (flag : Bool),
      a.length = 8 → b.length = 8 →
      bigintImpl (limbsOfWords 4 a) (limbsOfWords 4 b) x12 = some (result, flag) →
      ∃ (op : BigintOp) (carry : Bool) (row : BigintRow),
        x12 = BitVec.ofNat 32 (op.mask carry) ∧
        row = honestRow op carry (wordsValue a) (wordsValue b) (Register.ofU32 x12) ∧
        row.Satisfied ∧ row.execute = 1 ∧
        row.controlMask = Register.ofU32 x12 ∧ words row.aLimbs = a ∧ words row.bLimbs = b ∧
        words row.outputLimbs = wordsOfLimbs result.toList ∧
        row.x12Write = Register.ofU32 (if flag then 1 else 0) := by
  constructor
  · intro row result flag satisfied execute range _ _ accepted
    exact satisfied.outputs execute range accepted
  · intro a b x12 result flag aLength bLength accepted
    rcases exists_op_of_bigintImpl accepted with ⟨op, carry, rfl⟩
    rcases honestRow_of_words aLength bLength op carry with ⟨satisfied, aWords, bWords⟩
    let controlMask := Register.ofU32 (BitVec.ofNat 32 (op.mask carry))
    let row := honestRow op carry (wordsValue a) (wordsValue b) controlMask
    have accepts : bigintImpl (limbsOfWords 4 (words row.aLimbs))
        (limbsOfWords 4 (words row.bLimbs)) row.controlMask.value = some (result, flag) := by
      have control : row.controlMask.value = BitVec.ofNat 32 (op.mask carry) :=
        Register.value_ofU32 _
      rw [aWords, bWords, control]
      exact accepted
    rcases satisfied.outputs rfl (Register.rangeChecked_ofU32 _) accepts with
      ⟨_, output, written⟩
    exact ⟨op, carry, _, rfl, rfl, satisfied, rfl, rfl, aWords, bWords, output, written⟩

end Exact

/-- The product of `3` and `5` is proved by a row, with the arithmetic of the crate. -/
theorem bigintWithControl_exact_mul :
    ∃ (op : BigintOp) (carry : Bool) (row : BigintRow), 8 = BitVec.ofNat 32 (op.mask carry) ∧
      row = honestRow op carry (wordsValue [3, 0, 0, 0, 0, 0, 0, 0])
        (wordsValue [5, 0, 0, 0, 0, 0, 0, 0]) (Register.ofU32 8) ∧
      row.Satisfied ∧ row.execute = 1 ∧
      row.controlMask = Register.ofU32 8 ∧ words row.aLimbs = [3, 0, 0, 0, 0, 0, 0, 0] ∧
      words row.bLimbs = [5, 0, 0, 0, 0, 0, 0, 0] ∧
      words row.outputLimbs = [15, 0, 0, 0, 0, 0, 0, 0] ∧ row.x12Write = Register.ofU32 0 := by
  have product : @bigintImpl fixedWidthRuint (limbsOfWords 4 [3, 0, 0, 0, 0, 0, 0, 0])
      (limbsOfWords 4 [5, 0, 0, 0, 0, 0, 0, 0]) 8 = some (#v[15, 0, 0, 0], false) := by
    decide +kernel
  exact (@bigintWithControl_exact fixedWidthRuint _).2 _ _ _ _ _ rfl rfl product

end Airbender.Circuit
