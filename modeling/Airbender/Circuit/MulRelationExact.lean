import Airbender.Circuit.MulRelation

/-!
# The witness of the multiplication relation

The gadget computes the bytes of the operands and every carry from the columns of the callers.  If
these hold a multiplication, the witness satisfies all constraints.
-/

namespace Airbender.Circuit

/-! ## The witness -/

/-- `placer.get_u8`, widened. -/
def getU8 (x : F) : U32 := (BitVec.ofNat 8 x.val).setWidth 32

/-- `placer.get_u16`, widened. -/
def getU16 (x : F) : U32 := (BitVec.ofNat 16 x.val).setWidth 32

/-- `from_mask` of `placer.get_boolean`. -/
def getMask (x : F) : U32 := if x = 1 then 1 else 0

/-- The bytes that `parse_reg` assigns. -/
def Register.parseReg (register : Register) : Fin 4 → F :=
  let lowLimb := BitVec.ofNat 16 register.low.val
  let highLimb := BitVec.ofNat 16 register.high.val
  let byte (value : U16) : F := ((value.setWidth 8).toNat : F)
  ![byte lowLimb, byte (lowLimb >>> 8), byte highLimb, byte (highLimb >>> 8)]

namespace Carry

/-- The carry of a value whose low limb has cancelled. -/
def ofValue (numBits : Nat) (value : U32) : Carry numBits :=
  let value := value >>> 16
  let byte := (value.setWidth 16).setWidth 8
  let value := value >>> 8
  { byte := (byte.toNat : F)
    bit := fun i => fromBoolean (value.getLsbD i.val) }

/-- The carry as the next equation reads it. -/
def toU32 {numBits : Nat} (carry : Carry numBits) : U32 :=
  getU8 carry.byte + ∑ i, getMask (carry.bit i) <<< (8 + i.val)

end Carry

/-- The carry of one equation.  A shift by a byte is a factor of `2^8`, in wrapping arithmetic. -/
def limbWitness (numBits : Nat) (carryIn : U32) (op1 op2 : Nat → U32)
    (products : List LimbProduct) (additive limb : U32) : Carry numBits :=
  .ofValue numBits (carryIn + productSum op1 op2 products + additive - limb)

/-- The byte of a sign.  Equations without signs do not read it. -/
def Num.signWord (scale : U32) : Num → U32
  | .var value => getMask value * scale
  | .constant _ => 0

namespace MulOperands

variable (operands : MulOperands)

def op1Words : Nat → U32 :=
  extendedBytes (fun i => getU8 (operands.op1.parseReg i)) (operands.op1Sign.signWord 0xff)

def op2Words : Nat → U32 :=
  extendedBytes (fun i => getU8 (operands.op2.parseReg i)) (operands.op2Sign.signWord 0xff)

def lowestWitness : Carry 1 :=
  limbWitness 1 0 operands.op1Words operands.op2Words lowestProducts
    (getU16 operands.additiveTerm.low) (getU16 operands.mulLow.low)

def secondWitness : Carry 2 :=
  limbWitness 2 operands.lowestWitness.toU32 operands.op1Words operands.op2Words secondProducts
    (getU16 operands.additiveTerm.high) (getU16 operands.mulLow.high)

def signedThirdWitness : Carry 3 :=
  limbWitness 3 operands.secondWitness.toU32 operands.op1Words operands.op2Words
    signedThirdProducts (operands.additiveTermSign.signWord 0xffff) (getU16 operands.mulHigh.low)

def signedFourthWitness : Carry 3 :=
  limbWitness 3 operands.signedThirdWitness.toU32 operands.op1Words operands.op2Words
    signedFourthProducts (operands.additiveTermSign.signWord 0xffff) (getU16 operands.mulHigh.high)

def unsignedThirdWitness : Carry 1 :=
  limbWitness 1 operands.secondWitness.toU32 operands.op1Words operands.op2Words
    unsignedThirdProducts 0 (getU16 operands.mulHigh.low)

/-- The columns that the gadget assigns. -/
def witness : MulColumns where
  op1Decomposition := operands.op1.parseReg
  op2Decomposition := operands.op2.parseReg
  lowest := operands.lowestWitness
  second := operands.secondWitness
  high :=
    match operands.additiveTermSign with
    | .var _ => .signed operands.signedThirdWitness operands.signedFourthWitness
    | .constant _ => .unsigned operands.unsignedThirdWitness

end MulOperands

/-! ## Columns as words -/

theorem getU8_eq {x : F} (range : IsU8 x) : getU8 x = ((x.val : ℕ) : U32) := by
  rw [IsU8] at range
  apply BitVec.eq_of_toNat_eq
  rw [getU8, BitVec.toNat_setWidth, BitVec.toNat_ofNat, BitVec.natCast_eq_ofNat,
    BitVec.toNat_ofNat]
  omega

theorem getU16_eq {x : F} (range : IsU16 x) : getU16 x = ((x.val : ℕ) : U32) := by
  rw [IsU16] at range
  apply BitVec.eq_of_toNat_eq
  rw [getU16, BitVec.toNat_setWidth, BitVec.toNat_ofNat, BitVec.natCast_eq_ofNat,
    BitVec.toNat_ofNat]
  omega

theorem getMask_eq {x : F} (boolean : IsBoolean x) : getMask x = ((x.val : ℕ) : U32) := by
  rcases isBoolean_iff.mp boolean with rfl | rfl
  · rw [getMask, if_neg zero_ne_one, ZMod.val_zero, Nat.cast_zero]
  · rw [getMask, if_pos rfl, ZMod.val_one, Nat.cast_one]

theorem low_byte {limb : F} (range : IsU16 limb) :
    ((((BitVec.ofNat 16 limb.val).setWidth 8).toNat : ℕ) : F) = ((limb.val % 2 ^ 8 : ℕ) : F) := by
  rw [IsU16] at range
  rw [BitVec.toNat_setWidth, BitVec.toNat_ofNat, Nat.mod_eq_of_lt range]

theorem high_byte {limb : F} (range : IsU16 limb) :
    ((((BitVec.ofNat 16 limb.val >>> 8).setWidth 8).toNat : ℕ) : F) =
      ((limb.val / 2 ^ 8 : ℕ) : F) := by
  rw [IsU16] at range
  have small : limb.val / 2 ^ 8 < 2 ^ 8 := by omega
  rw [BitVec.toNat_setWidth, BitVec.toNat_ushiftRight, BitVec.toNat_ofNat, Nat.mod_eq_of_lt range,
    Nat.shiftRight_eq_div_pow, Nat.mod_eq_of_lt small]

theorem bytes_of_limb {limb : F} :
    ((limb.val / 2 ^ 8 : ℕ) : F) * 2 ^ 8 + ((limb.val % 2 ^ 8 : ℕ) : F) - limb = 0 := by
  have whole := congrArg (Nat.cast (R := F)) (Nat.div_add_mod limb.val (2 ^ 8))
  rw [ZMod.natCast_zmod_val] at whole
  push_cast at whole
  linear_combination whole

/-- The assigned bytes pass their range checks and add up to the register. -/
theorem Register.RangeChecked.parsedBy {register : Register} (range : register.RangeChecked) :
    register.ParsedBy register.parseReg where
  bytes := by
    intro i
    fin_cases i <;> exact isU8_natCast (BitVec.isLt _)
  low := by
    change ((((BitVec.ofNat 16 register.low.val >>> 8).setWidth 8).toNat : ℕ) : F) * 2 ^ 8 +
      ((((BitVec.ofNat 16 register.low.val).setWidth 8).toNat : ℕ) : F) - register.low = 0
    rw [low_byte range.1, high_byte range.1]
    exact bytes_of_limb
  high := by
    change ((((BitVec.ofNat 16 register.high.val >>> 8).setWidth 8).toNat : ℕ) : F) * 2 ^ 8 +
      ((((BitVec.ofNat 16 register.high.val).setWidth 8).toNat : ℕ) : F) - register.high = 0
    rw [low_byte range.2, high_byte range.2]
    exact bytes_of_limb

/-! ## Carries as words -/

namespace Carry

variable {numBits : Nat}

theorem sum_testBit (x n : Nat) : ∑ i : Fin n, 2 ^ i.val * (x / 2 ^ i.val % 2) = x % 2 ^ n := by
  induction n with
  | zero => rw [Nat.pow_zero, Nat.mod_one]; rfl
  | succ n inductionHypothesis =>
      rw [Fin.sum_univ_castSucc]
      simp only [Fin.val_castSucc, Fin.val_last]
      rw [inductionHypothesis, Nat.mod_pow_succ]

/-- The bits and the byte of a value whose low limb is zero hold the rest of it. -/
theorem number_ofValue {k : Nat} (bound : k < 2 ^ (8 + numBits)) (few : numBits ≤ 8) :
    (ofValue numBits ((2 ^ 16 * k : ℕ) : U32)).number = k := by
  have small : k < 2 ^ 16 :=
    bound.trans_le (Nat.pow_le_pow_right Nat.two_pos (by omega))
  have shifted : (((2 ^ 16 * k : ℕ) : U32) >>> 16).toNat = k := by
    rw [BitVec.natCast_eq_ofNat, BitVec.toNat_ushiftRight, BitVec.toNat_ofNat,
      Nat.shiftRight_eq_div_pow]
    omega
  have byte : (ofValue numBits ((2 ^ 16 * k : ℕ) : U32)).byte.val = k % 2 ^ 8 := by
    rw [ofValue]
    simp only [BitVec.toNat_setWidth, shifted]
    rw [Nat.mod_eq_of_lt small]
    exact val_natCast_of_lt ((Nat.mod_lt _ (Nat.two_pow_pos 8)).trans (by norm_num))
  have bits : ∀ i : Fin numBits, ((ofValue numBits ((2 ^ 16 * k : ℕ) : U32)).bit i).val =
      k / 2 ^ 8 / 2 ^ i.val % 2 := by
    intro i
    have bit : ((((2 ^ 16 * k : ℕ) : U32) >>> 16) >>> 8).getLsbD i.val =
        (k / 2 ^ 8).testBit i.val := by
      rw [BitVec.getLsbD, BitVec.toNat_ushiftRight, shifted, Nat.shiftRight_eq_div_pow]
    rw [ofValue]
    simp only [bit]
    rw [Nat.testBit_eq_decide_div_mod_eq]
    rcases Nat.mod_two_eq_zero_or_one (k / 2 ^ 8 / 2 ^ i.val) with even | odd
    · rw [even]
      exact ZMod.val_zero
    · rw [odd]
      exact ZMod.val_one _
  rw [number, byte]
  simp only [bits]
  rw [sum_testBit]
  have high : k / 2 ^ 8 < 2 ^ numBits := by
    rw [Nat.pow_add] at bound
    exact Nat.div_lt_of_lt_mul bound
  rw [Nat.mod_eq_of_lt high]
  omega

theorem rangeChecked_ofValue (value : U32) : (ofValue numBits value).RangeChecked where
  byte := isU8_natCast (BitVec.isLt _)
  bit := fun _ => isBoolean_fromBoolean _

theorem shiftLeft_natCast (x n : Nat) : ((x : ℕ) : U32) <<< n = ((x * 2 ^ n : ℕ) : U32) := by
  apply BitVec.eq_of_toNat_eq
  rw [BitVec.natCast_eq_ofNat, BitVec.natCast_eq_ofNat, BitVec.toNat_shiftLeft, BitVec.toNat_ofNat,
    BitVec.toNat_ofNat, Nat.shiftLeft_eq, Nat.mod_mul_mod]

theorem toU32_eq {carry : Carry numBits} (range : carry.RangeChecked) :
    carry.toU32 = ((carry.number : ℕ) : U32) := by
  rw [toU32, number, getU8_eq range.byte]
  push_cast
  rw [Finset.mul_sum]
  congr 1
  apply Finset.sum_congr rfl
  intro i _
  rw [getMask_eq (range.bit i), shiftLeft_natCast, pow_add]
  push_cast
  ring

end Carry

/-! ## The witness of an equation -/

/-- An equation of numbers determines the witness of its carry. -/
theorem number_limbWitness {numBits : Nat} {op1 op2 : Nat → Nat} {products : List LimbProduct}
    {carryIn additive limb k : Nat} (bound : k < 2 ^ (8 + numBits)) (few : numBits ≤ 8)
    (equation : carryIn + productSum op1 op2 products + additive = limb + 2 ^ 16 * k) :
    (limbWitness numBits ((carryIn : ℕ) : U32) (fun i => ((op1 i : ℕ) : U32))
      (fun i => ((op2 i : ℕ) : U32)) products ((additive : ℕ) : U32) ((limb : ℕ) : U32)).number =
      k := by
  have words := congrArg (Nat.cast (R := U32)) equation
  rw [Nat.cast_add, Nat.cast_add, Nat.cast_add, cast_productSum] at words
  have value : ((carryIn : ℕ) : U32) + productSum (fun i => ((op1 i : ℕ) : U32))
      (fun i => ((op2 i : ℕ) : U32)) products + ((additive : ℕ) : U32) - ((limb : ℕ) : U32) =
      ((2 ^ 16 * k : ℕ) : U32) := by
    rw [words, add_sub_cancel_left]
  rw [limbWitness, value, Carry.number_ofValue bound few]

/-- Limbs that agree modulo `2^64` have carries between them. -/
theorem exists_carries {t0 t1 t2 t3 l0 l1 h0 h1 : Nat} (l0Bound : l0 < 2 ^ 16)
    (l1Bound : l1 < 2 ^ 16) (h0Bound : h0 < 2 ^ 16) (h1Bound : h1 < 2 ^ 16)
    (same : t0 + 2 ^ 16 * t1 + 2 ^ 32 * t2 + 2 ^ 48 * t3 ≡
      l0 + 2 ^ 16 * l1 + 2 ^ 32 * h0 + 2 ^ 48 * h1 [MOD 2 ^ 64]) :
    ∃ k0 k1 k2 k3, t0 = l0 + 2 ^ 16 * k0 ∧ k0 + t1 = l1 + 2 ^ 16 * k1 ∧
      k1 + t2 = h0 + 2 ^ 16 * k2 ∧ k2 + t3 = h1 + 2 ^ 16 * k3 := by
  rw [Nat.ModEq] at same
  refine ⟨t0 / 2 ^ 16, (t0 / 2 ^ 16 + t1) / 2 ^ 16, ((t0 / 2 ^ 16 + t1) / 2 ^ 16 + t2) / 2 ^ 16,
    (((t0 / 2 ^ 16 + t1) / 2 ^ 16 + t2) / 2 ^ 16 + t3) / 2 ^ 16, ?_, ?_, ?_, ?_⟩
  all_goals omega

namespace MulOperands

variable {operands : MulOperands}

theorem signWord_eq {sign : Num} (boolean : IsBoolean sign.value) (scale : Nat)
    (zero : ∀ value, sign = .constant value → value = 0) :
    sign.signWord (scale : U32) = ((scale * sign.value.val : ℕ) : U32) := by
  cases sign with
  | var value =>
      rw [Num.value] at boolean
      rw [Num.signWord, getMask_eq boolean, Num.value, Nat.cast_mul, mul_comm]
  | constant value =>
      rw [Num.signWord, Num.value, zero value rfl, ZMod.val_zero, Nat.mul_zero, Nat.cast_zero]

theorem constant_eq_zero (supported : operands.Supported) :
    (∀ value, operands.op1Sign = .constant value → value = 0) ∧
      (∀ value, operands.op2Sign = .constant value → value = 0) ∧
        ∀ value, operands.additiveTermSign = .constant value → value = 0 := by
  cases supported with
  | signed =>
      refine ⟨?_, ?_, ?_⟩
      all_goals
        intro value impossible
        cases impossible
  | unsigned =>
      refine ⟨?_, ?_, ?_⟩
      all_goals
        intro value same
        cases same
        rfl

theorem extendedWords_eq {register : Register} {sign : Num} (range : register.RangeChecked)
    (boolean : IsBoolean sign.value) (zero : ∀ value, sign = .constant value → value = 0) :
    extendedBytes (fun i => getU8 (register.parseReg i)) (sign.signWord 0xff) = fun idx =>
      ((extendedBytes (fun i => (register.parseReg i).val) (255 * sign.value.val) idx : ℕ) :
        U32) := by
  have scale : sign.signWord 0xff = ((255 * sign.value.val : ℕ) : U32) :=
    signWord_eq boolean 255 zero
  rw [cast_extendedBytes, scale]
  congr 1
  funext i
  exact getU8_eq (range.parsedBy.bytes i)

theorem op1Words_eq (range : operands.RangeChecked) (supported : operands.Supported) :
    operands.op1Words = fun idx => ((operands.op1Bytes operands.witness idx : ℕ) : U32) :=
  extendedWords_eq range.op1 range.op1Sign (constant_eq_zero supported).1

theorem op2Words_eq (range : operands.RangeChecked) (supported : operands.Supported) :
    operands.op2Words = fun idx => ((operands.op2Bytes operands.witness idx : ℕ) : U32) :=
  extendedWords_eq range.op2 range.op2Sign (constant_eq_zero supported).2.1

/-- An equation of numbers is an equation of the field. -/
theorem limbConstraint_eq_zero {columns : MulColumns} (range : operands.RangeChecked)
    {products : List LimbProduct} {carryIn additive carryOut : Nat} {limb : F}
    (equation : carryIn + productSum (operands.op1Bytes columns) (operands.op2Bytes columns)
      products + additive = limb.val + 2 ^ 16 * carryOut) :
    operands.limbConstraint columns carryIn products additive limb
      ((2 ^ 16 * carryOut : ℕ) : F) = 0 := by
  have cast := congrArg (Nat.cast (R := F)) equation
  rw [Nat.cast_add, Nat.cast_add, Nat.cast_add, ZMod.natCast_zmod_val] at cast
  rw [limbConstraint, op1Terms, op2Terms, extendedTerms_eq range.op1Sign,
    extendedTerms_eq range.op2Sign, ← cast_productSum, ← op1Bytes, ← op2Bytes]
  linear_combination cast

/-- The next carry, when the equation is one of numbers. -/
theorem number_next {numBits before : Nat} (few : numBits ≤ 8) (range : operands.RangeChecked)
    (supported : operands.Supported) {carry : Carry before} (carryRange : carry.RangeChecked)
    {products : List LimbProduct} {additive k : Nat} {limb : F} (limbRange : IsU16 limb)
    (bound : k < 2 ^ (8 + numBits))
    (equation : carry.number + productSum (operands.op1Bytes operands.witness)
      (operands.op2Bytes operands.witness) products + additive = limb.val + 2 ^ 16 * k) :
    (limbWitness numBits carry.toU32 operands.op1Words operands.op2Words products
      ((additive : ℕ) : U32) (getU16 limb)).number = k := by
  rw [Carry.toU32_eq carryRange, op1Words_eq range supported, op2Words_eq range supported,
    getU16_eq limbRange]
  exact number_limbWitness bound few equation

/-- The bytes of the witness as the sums read them. -/
def witnessSum (operands : MulOperands) (products : List LimbProduct) : Nat :=
  productSum (operands.op1Bytes operands.witness) (operands.op2Bytes operands.witness) products

theorem witnessSum_le (range : operands.RangeChecked) (products : List LimbProduct) :
    operands.witnessSum products ≤ productWeight products * 65025 :=
  productSum_le (extendedBytes_val_lt range.op1.parsedBy.bytes range.op1Sign)
    (extendedBytes_val_lt range.op2.parsedBy.bytes range.op2Sign) products

theorem number_lowestWitness (range : operands.RangeChecked) (supported : operands.Supported)
    {k : Nat} (equation : operands.witnessSum lowestProducts + operands.additiveTerm.low.val =
      operands.mulLow.low.val + 2 ^ 16 * k) : operands.lowestWitness.number = k := by
  have sum : operands.witnessSum lowestProducts ≤ 513 * 65025 := witnessSum_le range lowestProducts
  have additive := range.additiveTerm.1
  rw [IsU16] at additive
  have bound : k < 2 ^ (8 + 1) := by omega
  rw [lowestWitness, op1Words_eq range supported, op2Words_eq range supported,
    getU16_eq range.additiveTerm.1, getU16_eq range.mulLow.1, ← Nat.cast_zero (R := U32)]
  apply number_limbWitness bound (by decide)
  rw [Nat.zero_add]
  exact equation

theorem number_secondWitness (range : operands.RangeChecked) (supported : operands.Supported)
    {k : Nat} (equation : operands.lowestWitness.number + operands.witnessSum secondProducts +
      operands.additiveTerm.high.val = operands.mulLow.high.val + 2 ^ 16 * k) :
    operands.secondWitness.number = k := by
  have sum : operands.witnessSum secondProducts ≤ 1027 * 65025 := witnessSum_le range secondProducts
  have lowestRange : operands.lowestWitness.RangeChecked := Carry.rangeChecked_ofValue _
  have carried : operands.lowestWitness.number < 2 ^ 9 := lowestRange.number_lt
  have additive := range.additiveTerm.2
  rw [IsU16] at additive
  have bound : k < 2 ^ (8 + 2) := by omega
  rw [secondWitness, getU16_eq range.additiveTerm.2]
  exact number_next (by decide) range supported lowestRange range.mulLow.2 bound equation

theorem number_signedThirdWitness (range : operands.RangeChecked) (supported : operands.Supported)
    {k : Nat} (equation : operands.secondWitness.number + operands.witnessSum signedThirdProducts +
      65535 * operands.additiveTermSign.value.val = operands.mulHigh.low.val + 2 ^ 16 * k) :
    operands.signedThirdWitness.number = k := by
  have sum : operands.witnessSum signedThirdProducts ≤ 1541 * 65025 :=
    witnessSum_le range signedThirdProducts
  have secondRange : operands.secondWitness.RangeChecked := Carry.rangeChecked_ofValue _
  have carried : operands.secondWitness.number < 2 ^ 10 := secondRange.number_lt
  have additive := additiveTermSign_lt range
  have bound : k < 2 ^ (8 + 3) := by omega
  have sign : operands.additiveTermSign.signWord 0xffff =
      ((65535 * operands.additiveTermSign.value.val : ℕ) : U32) :=
    signWord_eq range.additiveTermSign 65535 (constant_eq_zero supported).2.2
  rw [signedThirdWitness, sign]
  exact number_next (by decide) range supported secondRange range.mulHigh.1 bound equation

theorem number_signedFourthWitness (range : operands.RangeChecked)
    (supported : operands.Supported) {k : Nat}
    (equation : operands.signedThirdWitness.number + operands.witnessSum signedFourthProducts +
      65535 * operands.additiveTermSign.value.val = operands.mulHigh.high.val + 2 ^ 16 * k) :
    operands.signedFourthWitness.number = k := by
  have sum : operands.witnessSum signedFourthProducts ≤ 2055 * 65025 :=
    witnessSum_le range signedFourthProducts
  have thirdRange : operands.signedThirdWitness.RangeChecked := Carry.rangeChecked_ofValue _
  have carried : operands.signedThirdWitness.number < 2 ^ 11 := thirdRange.number_lt
  have additive := additiveTermSign_lt range
  have bound : k < 2 ^ (8 + 3) := by omega
  have sign : operands.additiveTermSign.signWord 0xffff =
      ((65535 * operands.additiveTermSign.value.val : ℕ) : U32) :=
    signWord_eq range.additiveTermSign 65535 (constant_eq_zero supported).2.2
  rw [signedFourthWitness, sign]
  exact number_next (by decide) range supported thirdRange range.mulHigh.2 bound equation

theorem number_unsignedThirdWitness (range : operands.RangeChecked)
    (supported : operands.Supported) {k : Nat}
    (equation : operands.secondWitness.number + operands.witnessSum unsignedThirdProducts + 0 =
      operands.mulHigh.low.val + 2 ^ 16 * k) : operands.unsignedThirdWitness.number = k := by
  have sum : operands.witnessSum unsignedThirdProducts ≤ 515 * 65025 :=
    witnessSum_le range unsignedThirdProducts
  have secondRange : operands.secondWitness.RangeChecked := Carry.rangeChecked_ofValue _
  have carried : operands.secondWitness.number < 2 ^ 10 := secondRange.number_lt
  have bound : k < 2 ^ (8 + 1) := by omega
  rw [unsignedThirdWitness, ← Nat.cast_zero (R := U32)]
  exact number_next (by decide) range supported secondRange range.mulHigh.1 bound equation

/-- An equation between carries as columns. -/
theorem carryConstraint_eq_zero {before after : Nat} (range : operands.RangeChecked)
    (carry : Carry before) (next : Carry after) {products : List LimbProduct} {additive : Nat}
    {limb : F} (equation : carry.number + operands.witnessSum products + additive =
      limb.val + 2 ^ 16 * next.number) :
    operands.limbConstraint operands.witness (carry.terms 0) products ((additive : ℕ) : F) limb
      (next.terms 16) = 0 := by
  rw [Carry.terms_zero, Carry.terms_eq]
  exact limbConstraint_eq_zero range equation

/-- The constraints of the lower half and the ranges, for carries that fit the equations. -/
theorem enforced_of_high (range : operands.RangeChecked)
    (lowest : operands.witnessSum lowestProducts + operands.additiveTerm.low.val =
      operands.mulLow.low.val + 2 ^ 16 * operands.lowestWitness.number)
    (second : operands.lowestWitness.number + operands.witnessSum secondProducts +
      operands.additiveTerm.high.val =
        operands.mulLow.high.val + 2 ^ 16 * operands.secondWitness.number)
    (high : operands.HighEnforced operands.witness) : operands.Enforced operands.witness where
  op1 := range.op1.parsedBy
  op2 := range.op2.parsedBy
  lowestRange := Carry.rangeChecked_ofValue _
  secondRange := Carry.rangeChecked_ofValue _
  lowest := by
    have equation : 0 + operands.witnessSum lowestProducts + operands.additiveTerm.low.val =
        operands.mulLow.low.val + 2 ^ 16 * operands.lowestWitness.number := by
      rw [Nat.zero_add]
      exact lowest
    have zero := limbConstraint_eq_zero range equation
    rw [Nat.cast_zero, ZMod.natCast_zmod_val, ← Carry.terms_eq] at zero
    exact zero
  second := by
    have zero := carryConstraint_eq_zero range operands.lowestWitness operands.secondWitness second
    rw [ZMod.natCast_zmod_val] at zero
    exact zero
  high := high

theorem signedHigh_enforced (range : operands.RangeChecked) {a b c : F}
    (op1Sign : operands.op1Sign = .var a) (op2Sign : operands.op2Sign = .var b)
    (additiveTermSign : operands.additiveTermSign = .var c)
    (third : operands.secondWitness.number + operands.witnessSum signedThirdProducts +
      65535 * operands.additiveTermSign.value.val =
        operands.mulHigh.low.val + 2 ^ 16 * operands.signedThirdWitness.number)
    (fourth : operands.signedThirdWitness.number + operands.witnessSum signedFourthProducts +
      65535 * operands.additiveTermSign.value.val =
        operands.mulHigh.high.val + 2 ^ 16 * operands.signedFourthWitness.number) :
    operands.HighEnforced operands.witness := by
  have sign : operands.additiveTermSign.signTerm 0xffff =
      ((65535 * operands.additiveTermSign.value.val : ℕ) : F) :=
    Num.signTerm_eq range.additiveTermSign 65535
  have thirdZero := carryConstraint_eq_zero range operands.secondWitness
    operands.signedThirdWitness third
  have fourthZero := carryConstraint_eq_zero range operands.signedThirdWitness
    operands.signedFourthWitness fourth
  rw [← sign] at thirdZero fourthZero
  have columns : operands.witness.high =
      .signed operands.signedThirdWitness operands.signedFourthWitness := by
    rw [witness, additiveTermSign]
  rw [HighEnforced]
  split
  case h_1 thirdCarry fourthCarry _ _ _ selected =>
    rw [columns] at selected
    obtain ⟨rfl, rfl⟩ := HighColumns.signed.inj selected
    exact ⟨Carry.rangeChecked_ofValue _, Carry.rangeChecked_ofValue _, thirdZero, fourthZero⟩
  case h_2 _ _ _ selected =>
    rw [columns] at selected
    cases selected
  case h_3 noSigns _ => exact noSigns _ _ _ _ _ additiveTermSign op1Sign op2Sign columns

theorem unsignedHigh_enforced (range : operands.RangeChecked)
    (op1Sign : operands.op1Sign = .constant 0) (op2Sign : operands.op2Sign = .constant 0)
    (additiveTermSign : operands.additiveTermSign = .constant 0)
    (third : operands.secondWitness.number + operands.witnessSum unsignedThirdProducts + 0 =
      operands.mulHigh.low.val + 2 ^ 16 * operands.unsignedThirdWitness.number)
    (fourth : operands.unsignedThirdWitness.number + operands.witnessSum unsignedFourthProducts +
      0 = operands.mulHigh.high.val + 2 ^ 16 * 0) : operands.HighEnforced operands.witness := by
  have thirdZero := carryConstraint_eq_zero range operands.secondWitness
    operands.unsignedThirdWitness third
  have fourthZero := limbConstraint_eq_zero range fourth
  rw [Nat.cast_zero] at thirdZero
  rw [← Carry.terms_zero, Nat.mul_zero, Nat.cast_zero] at fourthZero
  have columns : operands.witness.high = .unsigned operands.unsignedThirdWitness := by
    rw [witness, additiveTermSign]
  rw [HighEnforced]
  split
  case h_1 selected =>
    rw [columns] at selected
    cases selected
  case h_2 additiveSame op1Same op2Same selected =>
    rw [columns] at selected
    obtain rfl := HighColumns.unsigned.inj selected
    rw [additiveTermSign] at additiveSame
    rw [op1Sign] at op1Same
    rw [op2Sign] at op2Same
    exact ⟨(Num.constant.inj additiveSame).symm, (Num.constant.inj op1Same).symm,
      (Num.constant.inj op2Same).symm, Carry.rangeChecked_ofValue _, thirdZero, fourthZero⟩
  case h_3 _ noConstants => exact noConstants _ _ _ _ additiveTermSign op1Sign op2Sign columns

theorem witness_op1 (range : operands.RangeChecked) :
    operands.op1.ParsedBy operands.witness.op1Decomposition := range.op1.parsedBy

theorem witness_op2 (range : operands.RangeChecked) :
    operands.op2.ParsedBy operands.witness.op2Decomposition := range.op2.parsedBy

/-- Without signs the result is below `2^64`. -/
theorem result_lt (op1Sign : operands.op1Sign.value = 0) (op2Sign : operands.op2Sign.value = 0)
    (additiveTermSign : operands.additiveTermSign.value = 0) : operands.result < 2 ^ 64 := by
  have op1 := operands.op1.value.isLt
  have op2 := operands.op2.value.isLt
  have additive := operands.additiveTerm.value.isLt
  have product : operands.op1.value.toNat * operands.op2.value.toNat ≤
      (2 ^ 32 - 1) * (2 ^ 32 - 1) :=
    Nat.mul_le_mul (Nat.le_pred_of_lt op1) (Nat.le_pred_of_lt op2)
  have small : operands.op1.value.toNat * operands.op2.value.toNat +
      operands.additiveTerm.value.toNat < 2 ^ 64 := by omega
  rw [result, Register.signedValue, Register.signedValue, Register.signedValue, op1Sign, op2Sign,
    additiveTermSign, ZMod.val_zero]
  simp only [Nat.cast_zero, mul_zero, sub_zero]
  exact_mod_cast small

theorem limbs_lt (range : operands.RangeChecked) :
    operands.mulLow.low.val < 2 ^ 16 ∧ operands.mulLow.high.val < 2 ^ 16 ∧
      operands.mulHigh.low.val < 2 ^ 16 ∧ operands.mulHigh.high.val < 2 ^ 16 :=
  ⟨range.mulLow.1, range.mulLow.2, range.mulHigh.1, range.mulHigh.2⟩

/-- With signs that are variables, the carries of a multiplication fit the witness. -/
theorem enforced_of_signed (range : operands.RangeChecked) (supported : operands.Supported)
    (relation : operands.Relation) {a b c : F} (op1Sign : operands.op1Sign = .var a)
    (op2Sign : operands.op2Sign = .var b) (additiveTermSign : operands.additiveTermSign = .var c) :
    operands.Enforced operands.witness := by
  obtain ⟨l0, l1, h0, h1⟩ := limbs_lt range
  have products := signedLimbs_modEq range (witness_op1 range) (witness_op2 range)
  have limbs := result_limbs range
  have same : (operands.witnessSum lowestProducts + operands.additiveTerm.low.val) +
      2 ^ 16 * (operands.witnessSum secondProducts + operands.additiveTerm.high.val) +
      2 ^ 32 * (operands.witnessSum signedThirdProducts +
        65535 * operands.additiveTermSign.value.val) +
      2 ^ 48 * (operands.witnessSum signedFourthProducts +
        65535 * operands.additiveTermSign.value.val) ≡
      operands.mulLow.low.val + 2 ^ 16 * operands.mulLow.high.val +
        2 ^ 32 * operands.mulHigh.low.val + 2 ^ 48 * operands.mulHigh.high.val [MOD 2 ^ 64] := by
    apply Int.natCast_modEq_iff.mp
    rw [← limbs]
    have whole := Int.ModEq.trans products relation
    rw [signedLimbs] at whole
    push_cast at whole ⊢
    convert whole using 1
    rw [witnessSum, witnessSum, witnessSum, witnessSum]
    ring
  obtain ⟨k0, k1, k2, k3, lowest, second, third, fourth⟩ := exists_carries l0 l1 h0 h1 same
  rw [← Nat.add_assoc] at second third fourth
  have k0Eq := number_lowestWitness range supported lowest
  rw [← k0Eq] at lowest second
  have k1Eq := number_secondWitness range supported second
  rw [← k1Eq] at second third
  have k2Eq := number_signedThirdWitness range supported third
  rw [← k2Eq] at third fourth
  have k3Eq := number_signedFourthWitness range supported fourth
  rw [← k3Eq] at fourth
  exact enforced_of_high range lowest second
    (signedHigh_enforced range op1Sign op2Sign additiveTermSign third fourth)

/-- Without signs the last equation carries nothing. -/
theorem enforced_of_unsigned (range : operands.RangeChecked) (supported : operands.Supported)
    (relation : operands.Relation) (op1Sign : operands.op1Sign = .constant 0)
    (op2Sign : operands.op2Sign = .constant 0)
    (additiveTermSign : operands.additiveTermSign = .constant 0) :
    operands.Enforced operands.witness := by
  obtain ⟨l0, l1, h0, h1⟩ := limbs_lt range
  have products := unsignedLimbs_eq range (witness_op1 range) (witness_op2 range)
    (congrArg Num.value op1Sign) (congrArg Num.value op2Sign)
    (congrArg Num.value additiveTermSign)
  have limbs := result_limbs range
  have same : (operands.witnessSum lowestProducts + operands.additiveTerm.low.val) +
      2 ^ 16 * (operands.witnessSum secondProducts + operands.additiveTerm.high.val) +
      2 ^ 32 * operands.witnessSum unsignedThirdProducts +
      2 ^ 48 * operands.witnessSum unsignedFourthProducts ≡
      operands.mulLow.low.val + 2 ^ 16 * operands.mulLow.high.val +
        2 ^ 32 * operands.mulHigh.low.val + 2 ^ 48 * operands.mulHigh.high.val [MOD 2 ^ 64] := by
    apply Int.natCast_modEq_iff.mp
    rw [← limbs]
    have whole := relation
    rw [Relation, ← products] at whole
    push_cast at whole ⊢
    convert whole using 1
    rw [witnessSum, witnessSum, witnessSum, witnessSum]
    ring
  obtain ⟨k0, k1, k2, k3, lowest, second, third, fourth⟩ := exists_carries l0 l1 h0 h1 same
  have nothing : k3 = 0 := by
    have small := result_lt (congrArg Num.value op1Sign) (congrArg Num.value op2Sign)
      (congrArg Num.value additiveTermSign)
    rw [← products, ← witnessSum, ← witnessSum, ← witnessSum, ← witnessSum] at small
    have total : operands.witnessSum lowestProducts + 2 ^ 16 * operands.witnessSum secondProducts +
        2 ^ 32 * operands.witnessSum unsignedThirdProducts +
        2 ^ 48 * operands.witnessSum unsignedFourthProducts +
        (operands.additiveTerm.low.val + 2 ^ 16 * operands.additiveTerm.high.val) < 2 ^ 64 := by
      exact_mod_cast small
    omega
  rw [← Nat.add_assoc] at second
  have k0Eq := number_lowestWitness range supported lowest
  rw [← k0Eq] at lowest second
  have k1Eq := number_secondWitness range supported second
  rw [← k1Eq] at second third
  have k2Eq := number_unsignedThirdWitness range supported third
  rw [← k2Eq] at third fourth
  rw [nothing] at fourth
  exact enforced_of_high range lowest second
    (unsignedHigh_enforced range op1Sign op2Sign additiveTermSign third fourth)

/-- The witness of a multiplication satisfies all constraints. -/
theorem enforced_witness (range : operands.RangeChecked) (supported : operands.Supported)
    (relation : operands.Relation) : operands.Enforced operands.witness := by
  cases supported with
  | signed op1 op2 additiveTerm mulLow mulHigh a b c =>
      exact enforced_of_signed range (.signed _ _ _ _ _ a b c) relation rfl rfl rfl
  | unsigned op1 op2 additiveTerm mulLow mulHigh =>
      exact enforced_of_unsigned range (.unsigned _ _ _ _ _) relation rfl rfl rfl

/-! ## The result is determined -/

/-- The same operands with other columns for the result. -/
def withResult (operands : MulOperands) (result : Register × Register) : MulOperands :=
  { operands with mulLow := result.1, mulHigh := result.2 }

theorem RangeChecked.withResult (range : operands.RangeChecked) {result : Register × Register}
    (low : result.1.RangeChecked) (high : result.2.RangeChecked) :
    (operands.withResult result).RangeChecked :=
  { range with mulLow := low, mulHigh := high }

theorem Supported.withResult (supported : operands.Supported) (result : Register × Register) :
    (operands.withResult result).Supported := by
  cases supported with
  | signed op1 op2 additiveTerm mulLow mulHigh a b c => exact .signed _ _ _ _ _ a b c
  | unsigned op1 op2 additiveTerm mulLow mulHigh => exact .unsigned _ _ _ _ _

/-- Both halves of the result modulo `2^64`. -/
def resultHalves (operands : MulOperands) : Register × Register :=
  let value := (operands.result % 2 ^ 64).toNat
  (.ofU32 (BitVec.ofNat 32 value), .ofU32 (BitVec.ofNat 32 (value / 2 ^ 32)))

theorem relation_resultHalves (operands : MulOperands) :
    (operands.withResult operands.resultHalves).Relation := by
  have positive : (0 : ℤ) ≤ operands.result % 2 ^ 64 := Int.emod_nonneg _ (by norm_num)
  have bound : operands.result % 2 ^ 64 < 2 ^ 64 := Int.emod_lt_of_pos _ (by norm_num)
  obtain ⟨value, valueEq⟩ := Int.eq_ofNat_of_zero_le positive
  have halves : value % 2 ^ 32 + 2 ^ 32 * (value / 2 ^ 32 % 2 ^ 32) = value := by omega
  change operands.result ≡ operands.resultHalves.1.value.toNat +
    2 ^ 32 * operands.resultHalves.2.value.toNat [ZMOD 2 ^ 64]
  simp only [resultHalves, valueEq, Int.toNat_natCast, Register.value_ofU32, BitVec.toNat_ofNat]
  have cast : ((value % 2 ^ 32 : ℕ) : ℤ) + 2 ^ 32 * ((value / 2 ^ 32 % 2 ^ 32 : ℕ) : ℤ) = value := by
    exact_mod_cast halves
  rw [cast, ← valueEq]
  exact (Int.mod_modEq _ _).symm

theorem halves_injective {result result' : Register × Register} (low : result.1.RangeChecked)
    (high : result.2.RangeChecked) (low' : result'.1.RangeChecked) (high' : result'.2.RangeChecked)
    (relation : (operands.withResult result).Relation)
    (relation' : (operands.withResult result').Relation) : result = result' := by
  have same : ((result.1.value.toNat + 2 ^ 32 * result.2.value.toNat : ℕ) : ℤ) ≡
      ((result'.1.value.toNat + 2 ^ 32 * result'.2.value.toNat : ℕ) : ℤ) [ZMOD ((2 ^ 64 : ℕ) : ℤ)] := by
    push_cast
    exact Int.ModEq.trans (Int.ModEq.symm relation) relation'
  have numbers := Int.natCast_modEq_iff.mp same
  have lowBound := result.1.value.isLt
  have highBound := result.2.value.isLt
  have lowBound' := result'.1.value.isLt
  have highBound' := result'.2.value.isLt
  rw [Nat.ModEq, Nat.mod_eq_of_lt (by omega), Nat.mod_eq_of_lt (by omega)] at numbers
  have lowSame : result.1.value = result'.1.value := BitVec.eq_of_toNat_eq (by omega)
  have highSame : result.2.value = result'.2.value := BitVec.eq_of_toNat_eq (by omega)
  apply Prod.ext
  · rw [low.eq_ofU32, low'.eq_ofU32, lowSame]
  · rw [high.eq_ofU32, high'.eq_ofU32, highSame]

/-- A word read as signed or unsigned. -/
def readAs (isSigned : Bool) (word : U32) : ℤ := if isSigned then word.toInt else word.toNat

/-- A sign that is the highest bit of a signed word gives the integer that is meant. -/
theorem signedValue_eq_readAs {register : Register} {sign : Num} {isSigned : Bool}
    (flagged : sign.value = fromBoolean (isSigned && register.value.msb)) :
    register.signedValue sign = readAs isSigned register.value := by
  rw [Register.signedValue, flagged]
  cases isSigned with
  | false =>
      rw [Bool.false_and, fromBoolean_false, ZMod.val_zero, Nat.cast_zero, mul_zero, sub_zero]
      rfl
  | true =>
      rw [Bool.true_and, readAs, if_pos rfl, BitVec.toInt_eq_msb_cond]
      by_cases negative : register.value.msb = true
      · rw [if_pos negative, negative, fromBoolean_true, ZMod.val_one, Nat.cast_one, mul_one]
        rfl
      · rw [if_neg negative, Bool.eq_false_iff.mpr negative, fromBoolean_false, ZMod.val_zero,
          Nat.cast_zero, mul_zero, sub_zero]

/-- The constraints hold of multiplications only, the gadget's witness satisfies them for every
multiplication, and they determine both halves of the result.  With the signs that the flags of the
operands give, these are products of signed or unsigned words. -/
theorem mulRelation_exact (operands : MulOperands) (range : operands.RangeChecked) :
    (∀ columns, operands.Enforced columns → operands.Relation) ∧
    (operands.Supported → operands.Relation → operands.Enforced operands.witness) ∧
    (operands.Supported → ∃! result : Register × Register, result.1.RangeChecked ∧
      result.2.RangeChecked ∧ ∃ columns, (operands.withResult result).Enforced columns) ∧
    ∀ op1IsSigned op2IsSigned additiveTermIsSigned : Bool,
      operands.op1Sign.value = fromBoolean (op1IsSigned && operands.op1.value.msb) →
      operands.op2Sign.value = fromBoolean (op2IsSigned && operands.op2.value.msb) →
      operands.additiveTermSign.value =
        fromBoolean (additiveTermIsSigned && operands.additiveTerm.value.msb) →
      operands.result =
        readAs op1IsSigned operands.op1.value * readAs op2IsSigned operands.op2.value +
          readAs additiveTermIsSigned operands.additiveTerm.value := by
  refine ⟨fun columns => relation_of_enforced range, enforced_witness range, ?_, ?_⟩
  · intro supported
    have low : operands.resultHalves.1.RangeChecked := Register.rangeChecked_ofU32 _
    have high : operands.resultHalves.2.RangeChecked := Register.rangeChecked_ofU32 _
    have relation := operands.relation_resultHalves
    refine ⟨operands.resultHalves, ⟨low, high, _, enforced_witness (range.withResult low high)
      (supported.withResult _) relation⟩, ?_⟩
    rintro result ⟨low', high', columns, enforced⟩
    exact halves_injective low' high' low high
      (relation_of_enforced (range.withResult low' high') enforced) relation
  · intro op1IsSigned op2IsSigned additiveTermIsSigned op1 op2 additiveTerm
    rw [result, signedValue_eq_readAs op1, signedValue_eq_readAs op2,
      signedValue_eq_readAs additiveTerm]

/-- The signed product of 3 and -2, plus 5. -/
def minusOne : MulOperands where
  op1 := .ofU32 3
  op1Sign := .var 0
  op2 := .ofU32 0xfffffffe
  op2Sign := .var 1
  additiveTerm := .ofU32 5
  additiveTermSign := .var 0
  mulLow := .ofU32 0xffffffff
  mulHigh := .ofU32 0xffffffff

theorem mulRelation_exact_minusOne :
    minusOne.Enforced minusOne.witness ∧
      ∃! result : Register × Register, result.1.RangeChecked ∧ result.2.RangeChecked ∧
        ∃ columns, (minusOne.withResult result).Enforced columns := by
  have range : minusOne.RangeChecked :=
    { op1 := Register.rangeChecked_ofU32 _
      op2 := Register.rangeChecked_ofU32 _
      additiveTerm := Register.rangeChecked_ofU32 _
      mulLow := Register.rangeChecked_ofU32 _
      mulHigh := Register.rangeChecked_ofU32 _
      op1Sign := isBoolean_iff.mpr (Or.inl rfl)
      op2Sign := isBoolean_iff.mpr (Or.inr rfl)
      additiveTermSign := isBoolean_iff.mpr (Or.inl rfl) }
  have supported : minusOne.Supported := .signed _ _ _ _ _ 0 1 0
  have relation : minusOne.Relation := by
    rw [Relation, Int.ModEq]
    decide +kernel
  obtain ⟨_, complete, determined, _⟩ := mulRelation_exact minusOne range
  exact ⟨complete supported relation, determined supported⟩

end MulOperands

end Airbender.Circuit
