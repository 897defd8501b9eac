import Mathlib.Algebra.BigOperators.Fin
import Mathlib.Data.Int.ModEq
import Airbender.Circuit.Machine

/-!
# The multiplication relation

`enforce_mul_relation` cuts `a * b + c = low + 2^32 * high` into four equations between limbs of 16
bits, with operands that are extended by their signs to 64 bits.  What an equation carries to the
next one is a byte and a few booleans.
-/

namespace Airbender.Circuit

/-- A number of the circuit: a variable with its value, or a constant. -/
inductive Num where
  | var (value : F)
  | constant (value : F)
deriving DecidableEq

def Num.value : Num → F
  | .var value => value
  | .constant value => value

/-- The term of a sign.  Constants other than one and zero are unreachable. -/
def Num.signTerm (scale : F) : Num → F
  | .var value => scale * value
  | .constant value => if value = 1 then scale else 0

structure MulOperands where
  op1 : Register
  op1Sign : Num
  op2 : Register
  op2Sign : Num
  additiveTerm : Register
  additiveTermSign : Num
  mulLow : Register
  mulHigh : Register
deriving DecidableEq

/-! ## Limb sums -/

/-- A product of two bytes in an equation, one byte up if it is shifted. -/
structure LimbProduct where
  op1Byte : Nat
  op2Byte : Nat
  shifted : Bool
deriving DecidableEq

def LimbProduct.term {R : Type} [CommSemiring R] (op1 op2 : Nat → R) (product : LimbProduct) : R :=
  if product.shifted then op1 product.op1Byte * op2 product.op2Byte * 2 ^ 8
  else op1 product.op1Byte * op2 product.op2Byte

def productSum {R : Type} [CommSemiring R] (op1 op2 : Nat → R) (products : List LimbProduct) : R :=
  (products.map (LimbProduct.term op1 op2)).sum

/-- The products of the lowest 16 bits. -/
def lowestProducts : List LimbProduct := [⟨0, 0, false⟩, ⟨0, 1, true⟩, ⟨1, 0, true⟩]

/-- The products of the bits 16-32. -/
def secondProducts : List LimbProduct :=
  [⟨0, 2, false⟩, ⟨0, 3, true⟩, ⟨1, 1, false⟩, ⟨1, 2, true⟩, ⟨2, 0, false⟩, ⟨2, 1, true⟩,
    ⟨3, 0, true⟩]

/-- The products of the bits 32-48 of extended operands. -/
def signedThirdProducts : List LimbProduct :=
  [⟨0, 4, false⟩, ⟨0, 5, true⟩, ⟨1, 3, false⟩, ⟨1, 4, true⟩, ⟨2, 2, false⟩, ⟨2, 3, true⟩,
    ⟨3, 1, false⟩, ⟨3, 2, true⟩, ⟨4, 0, false⟩, ⟨4, 1, true⟩, ⟨5, 0, true⟩]

/-- The products of the bits 48-64 of extended operands. -/
def signedFourthProducts : List LimbProduct :=
  [⟨0, 6, false⟩, ⟨0, 7, true⟩, ⟨1, 5, false⟩, ⟨1, 6, true⟩, ⟨2, 4, false⟩, ⟨2, 5, true⟩,
    ⟨3, 3, false⟩, ⟨3, 4, true⟩, ⟨4, 2, false⟩, ⟨4, 3, true⟩, ⟨5, 1, false⟩, ⟨5, 2, true⟩,
    ⟨6, 0, false⟩, ⟨6, 1, true⟩, ⟨7, 0, true⟩]

/-- The products of the bits 32-48 without signs. -/
def unsignedThirdProducts : List LimbProduct :=
  [⟨1, 3, false⟩, ⟨2, 2, false⟩, ⟨2, 3, true⟩, ⟨3, 1, false⟩, ⟨3, 2, true⟩]

/-- The product of the bits 48-64 without signs. -/
def unsignedFourthProducts : List LimbProduct := [⟨3, 3, false⟩]

/-- The bytes of an operand, extended by the byte of its sign. -/
def extendedBytes {R : Type} (bytes : Fin 4 → R) (signByte : R) (idx : Nat) : R :=
  if below : idx < 4 then bytes ⟨idx, below⟩ else signByte

/-! ## Carries -/

/-- What an equation carries over: a byte and the booleans above it. -/
structure Carry (numBits : Nat) where
  byte : F
  bit : Fin numBits → F

namespace Carry

variable {numBits : Nat}

/-- The terms of a carry whose lowest bit is at a position. -/
def terms (carry : Carry numBits) (position : Nat) : F :=
  2 ^ position * carry.byte + ∑ i, 2 ^ (position + 8 + i.val) * carry.bit i

structure RangeChecked (carry : Carry numBits) : Prop where
  byte : IsU8 carry.byte
  bit : ∀ i, IsBoolean (carry.bit i)

end Carry

/-- The columns of the upper half: signed operands discard a last carry, unsigned ones have none. -/
inductive HighColumns where
  | signed (third fourth : Carry 3)
  | unsigned (third : Carry 1)

/-- The columns that the gadget adds. -/
structure MulColumns where
  op1Decomposition : Fin 4 → F
  op2Decomposition : Fin 4 → F
  lowest : Carry 1
  second : Carry 2
  high : HighColumns

/-- `RegisterDecomposition::parse_reg`. -/
structure Register.ParsedBy (register : Register) (chunks : Fin 4 → F) : Prop where
  bytes : ∀ i, IsU8 (chunks i)
  low : chunks 1 * 2 ^ 8 + chunks 0 - register.low = 0
  high : chunks 3 * 2 ^ 8 + chunks 2 - register.high = 0

namespace MulOperands

variable (operands : MulOperands)

/-- `op1_t`. -/
def op1Terms (columns : MulColumns) : Nat → F :=
  extendedBytes columns.op1Decomposition (operands.op1Sign.signTerm 0xff)

/-- `op2_t`. -/
def op2Terms (columns : MulColumns) : Nat → F :=
  extendedBytes columns.op2Decomposition (operands.op2Sign.signTerm 0xff)

/-- One equation: what is carried in, products and an additive term, less a limb of the result and
what is carried out. -/
def limbConstraint (columns : MulColumns) (carryIn : F) (products : List LimbProduct)
    (additive limb carryOut : F) : F :=
  carryIn + productSum (operands.op1Terms columns) (operands.op2Terms columns) products +
    additive - limb - carryOut

/-- The equations of the upper half, for the combinations of signs that are supported. -/
def HighEnforced (columns : MulColumns) : Prop :=
  match operands.additiveTermSign, operands.op1Sign, operands.op2Sign, columns.high with
  | .var _, .var _, .var _, .signed third fourth =>
      third.RangeChecked ∧ fourth.RangeChecked ∧
        operands.limbConstraint columns (columns.second.terms 0) signedThirdProducts
          (operands.additiveTermSign.signTerm 0xffff) operands.mulHigh.low (third.terms 16) = 0 ∧
        operands.limbConstraint columns (third.terms 0) signedFourthProducts
          (operands.additiveTermSign.signTerm 0xffff) operands.mulHigh.high (fourth.terms 16) = 0
  | .constant a, .constant b, .constant c, .unsigned third =>
      a = 0 ∧ b = 0 ∧ c = 0 ∧ third.RangeChecked ∧
        operands.limbConstraint columns (columns.second.terms 0) unsignedThirdProducts 0
          operands.mulHigh.low (third.terms 16) = 0 ∧
        operands.limbConstraint columns (third.terms 0) unsignedFourthProducts 0
          operands.mulHigh.high 0 = 0
  | _, _, _, _ => False

/-- `enforce_mul_relation`. -/
structure Enforced (columns : MulColumns) : Prop where
  op1 : operands.op1.ParsedBy columns.op1Decomposition
  op2 : operands.op2.ParsedBy columns.op2Decomposition
  lowestRange : columns.lowest.RangeChecked
  secondRange : columns.second.RangeChecked
  lowest : operands.limbConstraint columns 0 lowestProducts operands.additiveTerm.low
    operands.mulLow.low (columns.lowest.terms 16) = 0
  second : operands.limbConstraint columns (columns.lowest.terms 0) secondProducts
    operands.additiveTerm.high operands.mulLow.high (columns.second.terms 16) = 0
  high : operands.HighEnforced columns

/-- The ranges that the callers declare. -/
structure RangeChecked : Prop where
  op1 : operands.op1.RangeChecked
  op2 : operands.op2.RangeChecked
  additiveTerm : operands.additiveTerm.RangeChecked
  mulLow : operands.mulLow.RangeChecked
  mulHigh : operands.mulHigh.RangeChecked
  op1Sign : IsBoolean operands.op1Sign.value
  op2Sign : IsBoolean operands.op2Sign.value
  additiveTermSign : IsBoolean operands.additiveTermSign.value

/-- Signs are all variables, or all the constant zero.  Other combinations are rejected. -/
inductive Supported : MulOperands → Prop
  | signed (op1 op2 additiveTerm mulLow mulHigh : Register) (a b c : F) :
      Supported ⟨op1, .var a, op2, .var b, additiveTerm, .var c, mulLow, mulHigh⟩
  | unsigned (op1 op2 additiveTerm mulLow mulHigh : Register) :
      Supported ⟨op1, .constant 0, op2, .constant 0, additiveTerm, .constant 0, mulLow, mulHigh⟩

end MulOperands

/-! ## The integers that are meant -/

/-- A register with a sign: the sign has the weight of the bit above the register. -/
def Register.signedValue (register : Register) (sign : Num) : ℤ :=
  register.value.toNat - 2 ^ 32 * sign.value.val

namespace MulOperands

variable (operands : MulOperands)

/-- `a * b + c`. -/
def result : ℤ :=
  operands.op1.signedValue operands.op1Sign * operands.op2.signedValue operands.op2Sign +
    operands.additiveTerm.signedValue operands.additiveTermSign

/-- The relation between the operands and both halves of the result. -/
def Relation : Prop :=
  operands.result ≡ operands.mulLow.value.toNat + 2 ^ 32 * operands.mulHigh.value.toNat
    [ZMOD 2 ^ 64]

end MulOperands

/-! ## Sums of small numbers -/

section ProductSum

variable {R : Type} [CommSemiring R] (op1 op2 : Nat → R)

@[simp] theorem productSum_nil : productSum op1 op2 [] = 0 := rfl

@[simp] theorem productSum_cons (i j : Nat) (products : List LimbProduct) :
    productSum op1 op2 (⟨i, j, false⟩ :: products) =
      op1 i * op2 j + productSum op1 op2 products := rfl

@[simp] theorem productSum_cons_shifted (i j : Nat) (products : List LimbProduct) :
    productSum op1 op2 (⟨i, j, true⟩ :: products) =
      op1 i * op2 j * 2 ^ 8 + productSum op1 op2 products := rfl

end ProductSum

/-- A sum of products commutes with casts. -/
theorem cast_productSum {R : Type} [CommSemiring R] (op1 op2 : Nat → Nat)
    (products : List LimbProduct) :
    ((productSum op1 op2 products : ℕ) : R) =
      productSum (fun i => (op1 i : R)) (fun i => (op2 i : R)) products := by
  induction products with
  | nil => exact Nat.cast_zero
  | cons product products inductionHypothesis =>
      have first : ((product.term op1 op2 : ℕ) : R) =
          product.term (fun i => (op1 i : R)) (fun i => (op2 i : R)) := by
        rw [LimbProduct.term, LimbProduct.term]
        split
        · rw [Nat.cast_mul, Nat.cast_mul, Nat.cast_pow, Nat.cast_ofNat]
        · exact Nat.cast_mul _ _
      rw [productSum, productSum, List.map_cons, List.map_cons, List.sum_cons, List.sum_cons,
        Nat.cast_add, first]
      exact congrArg _ inductionHypothesis

/-- How often the largest product of two bytes fits in a sum. -/
def productWeight (products : List LimbProduct) : Nat :=
  (products.map fun product => if product.shifted then 2 ^ 8 else 1).sum

theorem productSum_le {op1 op2 : Nat → Nat} (op1Bound : ∀ i, op1 i < 2 ^ 8)
    (op2Bound : ∀ i, op2 i < 2 ^ 8) (products : List LimbProduct) :
    productSum op1 op2 products ≤ productWeight products * 65025 := by
  induction products with
  | nil => exact Nat.zero_le _
  | cons product products inductionHypothesis =>
      have bytes : op1 product.op1Byte * op2 product.op2Byte ≤ 255 * 255 :=
        Nat.mul_le_mul (Nat.le_pred_of_lt (op1Bound _)) (Nat.le_pred_of_lt (op2Bound _))
      have first : product.term op1 op2 ≤ (if product.shifted then 2 ^ 8 else 1) * 65025 := by
        rw [LimbProduct.term]
        split <;> omega
      rw [productSum, productWeight, List.map_cons, List.map_cons, List.sum_cons, List.sum_cons,
        Nat.add_mul]
      exact Nat.add_le_add first inductionHypothesis

section ExtendedBytes

variable {R : Type} (bytes : Fin 4 → R) (signByte : R)

@[simp] theorem extendedBytes_zero : extendedBytes bytes signByte 0 = bytes 0 := rfl

@[simp] theorem extendedBytes_one : extendedBytes bytes signByte 1 = bytes 1 := rfl

@[simp] theorem extendedBytes_two : extendedBytes bytes signByte 2 = bytes 2 := rfl

@[simp] theorem extendedBytes_three : extendedBytes bytes signByte 3 = bytes 3 := rfl

theorem extendedBytes_of_le {idx : Nat} (above : 4 ≤ idx) :
    extendedBytes bytes signByte idx = signByte :=
  dif_neg (Nat.not_lt.mpr above)

end ExtendedBytes

theorem extendedBytes_lt {bytes : Fin 4 → Nat} {signByte : Nat} (bound : ∀ i, bytes i < 2 ^ 8)
    (signBound : signByte < 2 ^ 8) (idx : Nat) : extendedBytes bytes signByte idx < 2 ^ 8 := by
  rw [extendedBytes]
  split
  · exact bound _
  · exact signBound

theorem cast_extendedBytes {R : Type} [CommSemiring R] (bytes : Fin 4 → Nat) (signByte : Nat) :
    (fun idx => ((extendedBytes bytes signByte idx : ℕ) : R)) =
      extendedBytes (fun i => (bytes i : R)) (signByte : R) := by
  funext idx
  rw [extendedBytes, extendedBytes]
  split <;> rfl

/-- The number of four bytes. -/
def wordOfBytes (bytes : Fin 4 → Nat) : Nat :=
  bytes 0 + 2 ^ 8 * bytes 1 + 2 ^ 16 * bytes 2 + 2 ^ 24 * bytes 3

/-! ## The sums together -/

section Sums

variable (a b : Fin 4 → Nat) (s t : Nat)

/-- The sums of extended operands, byte by byte. -/
theorem expandedSums (e f : Nat) :
    productSum (extendedBytes a e) (extendedBytes b f) lowestProducts +
        2 ^ 16 * productSum (extendedBytes a e) (extendedBytes b f) secondProducts +
        2 ^ 32 * productSum (extendedBytes a e) (extendedBytes b f) signedThirdProducts +
        2 ^ 48 * productSum (extendedBytes a e) (extendedBytes b f) signedFourthProducts =
      wordOfBytes a * wordOfBytes b +
        2 ^ 32 * f * (16843009 * a 0 + 2 ^ 8 * 65793 * a 1 + 2 ^ 16 * 257 * a 2 + 2 ^ 24 * a 3) +
        2 ^ 32 * e * (16843009 * b 0 + 2 ^ 8 * 65793 * b 1 + 2 ^ 16 * 257 * b 2 +
          2 ^ 24 * b 3) := by
  simp (disch := decide) only [lowestProducts, secondProducts, signedThirdProducts,
    signedFourthProducts, productSum_cons, productSum_cons_shifted, productSum_nil,
    extendedBytes_zero, extendedBytes_one, extendedBytes_two, extendedBytes_three,
    extendedBytes_of_le, wordOfBytes]
  ring

/-- What the products of extended operands leave out is a multiple of `2^64`. -/
theorem signedSums_modEq :
    ((productSum (extendedBytes a (255 * s)) (extendedBytes b (255 * t)) lowestProducts +
        2 ^ 16 * productSum (extendedBytes a (255 * s)) (extendedBytes b (255 * t)) secondProducts +
        2 ^ 32 * productSum (extendedBytes a (255 * s)) (extendedBytes b (255 * t))
          signedThirdProducts +
        2 ^ 48 * productSum (extendedBytes a (255 * s)) (extendedBytes b (255 * t))
          signedFourthProducts : ℕ) : ℤ) ≡
      (wordOfBytes a - 2 ^ 32 * s) * (wordOfBytes b - 2 ^ 32 * t) [ZMOD 2 ^ 64] := by
  have expanded := expandedSums a b (255 * s) (255 * t)
  apply Int.modEq_iff_dvd.mpr
  refine ⟨4294967295 * s * (4294967295 * t) + 255 * t * (a 1 + 257 * a 2 + 65793 * a 3) +
    255 * s * (b 1 + 257 * b 2 + 65793 * b 3) - (wordOfBytes a - 2 ^ 32 * s) * t -
      s * (wordOfBytes b - 2 ^ 32 * t) - 2 ^ 64 * s * t, ?_⟩
  rw [expanded, wordOfBytes, wordOfBytes]
  push_cast
  ring

theorem unsignedSums_eq :
    productSum (extendedBytes a 0) (extendedBytes b 0) lowestProducts +
        2 ^ 16 * productSum (extendedBytes a 0) (extendedBytes b 0) secondProducts +
        2 ^ 32 * productSum (extendedBytes a 0) (extendedBytes b 0) unsignedThirdProducts +
        2 ^ 48 * productSum (extendedBytes a 0) (extendedBytes b 0) unsignedFourthProducts =
      wordOfBytes a * wordOfBytes b := by
  simp only [lowestProducts, secondProducts, unsignedThirdProducts, unsignedFourthProducts,
    productSum_cons, productSum_cons_shifted, productSum_nil, extendedBytes_zero,
    extendedBytes_one, extendedBytes_two, extendedBytes_three, wordOfBytes]
  ring

end Sums

/-! ## Columns as numbers -/

theorem sum_bits_lt {n : Nat} (bits : Fin n → Nat) (small : ∀ i, bits i ≤ 1) :
    ∑ i, 2 ^ i.val * bits i < 2 ^ n := by
  induction n with
  | zero => exact Nat.one_pos
  | succ n inductionHypothesis =>
      have front := inductionHypothesis (fun i => bits i.castSucc) fun i => small i.castSucc
      have last : 2 ^ n * bits (Fin.last n) ≤ 2 ^ n * 1 := Nat.mul_le_mul_left _ (small _)
      rw [Fin.sum_univ_castSucc, Nat.pow_succ]
      simp only [Fin.val_castSucc, Fin.val_last] at front ⊢
      omega

namespace Carry

variable {numBits : Nat} {carry : Carry numBits}

/-- The number that a carry holds. -/
def number (carry : Carry numBits) : Nat :=
  carry.byte.val + 2 ^ 8 * ∑ i, 2 ^ i.val * (carry.bit i).val

theorem RangeChecked.number_lt (range : carry.RangeChecked) :
    carry.number < 2 ^ (8 + numBits) := by
  have byte := range.byte
  rw [IsU8] at byte
  have bits := sum_bits_lt (fun i => (carry.bit i).val) fun i => (range.bit i).val_le_one
  rw [number, Nat.pow_add]
  omega

theorem terms_eq (carry : Carry numBits) (position : Nat) :
    carry.terms position = ((2 ^ position * carry.number : ℕ) : F) := by
  have cast : ∀ x : F, ((x.val : ℕ) : F) = x := ZMod.natCast_zmod_val
  rw [terms, number]
  push_cast
  rw [cast, mul_add, Finset.mul_sum, Finset.mul_sum]
  congr 1
  apply Finset.sum_congr rfl
  intro i _
  rw [cast, pow_add, pow_add]
  ring

theorem terms_zero (carry : Carry numBits) : carry.terms 0 = (carry.number : F) := by
  rw [terms_eq, Nat.pow_zero, Nat.one_mul]

end Carry

/-- Numbers below the modulus that are equal in the field are equal. -/
theorem natCast_injective {m n : Nat} (same : (m : F) = n) (left : m < modulus)
    (right : n < modulus) : m = n := by
  have values := congrArg ZMod.val same
  rw [val_natCast_of_lt left, val_natCast_of_lt right] at values
  exact values

theorem Num.signTerm_eq {sign : Num} (boolean : IsBoolean sign.value) (scale : Nat) :
    sign.signTerm scale = ((scale * sign.value.val : ℕ) : F) := by
  cases sign with
  | var value =>
      rw [signTerm, Num.value, Nat.cast_mul, ZMod.natCast_zmod_val]
  | constant value =>
      rw [signTerm, Num.value]
      rcases isBoolean_iff.mp boolean with zero | one
      · rw [Num.value] at zero
        rw [zero, if_neg zero_ne_one, ZMod.val_zero, Nat.mul_zero, Nat.cast_zero]
      · rw [Num.value] at one
        rw [one, if_pos rfl, ZMod.val_one, Nat.mul_one]

theorem Register.ParsedBy.value_eq {register : Register} {chunks : Fin 4 → F}
    (parsed : register.ParsedBy chunks) (range : register.RangeChecked) :
    register.value.toNat = wordOfBytes fun i => (chunks i).val := by
  have bytes := parsed.bytes
  simp only [IsU8] at bytes
  have limb : ∀ (low high : Fin 4) {limb : F}, IsU16 limb →
      chunks high * 2 ^ 8 + chunks low - limb = 0 →
      limb.val = (chunks low).val + 2 ^ 8 * (chunks high).val := by
    intro low high limb limbRange zero
    rw [IsU16] at limbRange
    have lowBound := bytes low
    have highBound := bytes high
    apply natCast_injective
    · rw [ZMod.natCast_zmod_val, ← sub_eq_zero.mp zero]
      push_cast
      rw [ZMod.natCast_zmod_val, ZMod.natCast_zmod_val]
      ring
    · exact limbRange.trans (by norm_num)
    · exact Nat.lt_trans (show _ < 2 ^ 16 by omega) (by norm_num)
  rw [value, toNat_wordOf range.1 range.2, limb 0 1 range.1 parsed.low,
    limb 2 3 range.2 parsed.high, wordOfBytes]
  ring

/-! ## One equation over the integers -/

section Equation

variable {operands : MulOperands} {columns : MulColumns}

namespace MulOperands

/-- The bytes of the first operand and the byte of its sign. -/
def op1Bytes (operands : MulOperands) (columns : MulColumns) : Nat → Nat :=
  extendedBytes (fun i => (columns.op1Decomposition i).val) (255 * operands.op1Sign.value.val)

/-- The bytes of the second operand and the byte of its sign. -/
def op2Bytes (operands : MulOperands) (columns : MulColumns) : Nat → Nat :=
  extendedBytes (fun i => (columns.op2Decomposition i).val) (255 * operands.op2Sign.value.val)

theorem extendedTerms_eq {chunks : Fin 4 → F} {sign : Num} (boolean : IsBoolean sign.value) :
    extendedBytes chunks (sign.signTerm 0xff) = fun idx =>
      ((extendedBytes (fun i => (chunks i).val) (255 * sign.value.val) idx : ℕ) : F) := by
  have scale : sign.signTerm 0xff = ((255 * sign.value.val : ℕ) : F) := sign.signTerm_eq boolean 255
  rw [cast_extendedBytes, scale]
  congr 1
  funext i
  exact (ZMod.natCast_zmod_val (chunks i)).symm

theorem extendedBytes_val_lt {chunks : Fin 4 → F} {sign : Num} (bytes : ∀ i, IsU8 (chunks i))
    (boolean : IsBoolean sign.value) (idx : Nat) :
    extendedBytes (fun i => (chunks i).val) (255 * sign.value.val) idx < 2 ^ 8 := by
  have small := boolean.val_le_one
  exact extendedBytes_lt bytes (by omega) idx

/-- The field equation of a limb is an equation of numbers: neither side reaches the modulus. -/
theorem limb_exact (range : operands.RangeChecked) (op1 : ∀ i, IsU8 (columns.op1Decomposition i))
    (op2 : ∀ i, IsU8 (columns.op2Decomposition i)) {products : List LimbProduct}
    {carryIn additive carryOut : Nat} {limb : F} (light : productWeight products ≤ 2055)
    (carryInBound : carryIn < 2 ^ 11) (additiveBound : additive < 2 ^ 16) (limbRange : IsU16 limb)
    (carryOutBound : carryOut < 2 ^ 11)
    (zero : operands.limbConstraint columns carryIn products additive limb
      ((2 ^ 16 * carryOut : ℕ) : F) = 0) :
    carryIn + productSum (operands.op1Bytes columns) (operands.op2Bytes columns) products +
      additive = limb.val + 2 ^ 16 * carryOut := by
  have bound := productSum_le (extendedBytes_val_lt op1 range.op1Sign)
    (extendedBytes_val_lt op2 range.op2Sign) products
  have weight : productWeight products * 65025 ≤ 2055 * 65025 := Nat.mul_le_mul_right _ light
  rw [← op1Bytes, ← op2Bytes] at bound
  rw [IsU16] at limbRange
  rw [limbConstraint, op1Terms, op2Terms, extendedTerms_eq range.op1Sign,
    extendedTerms_eq range.op2Sign, ← cast_productSum, ← op1Bytes, ← op2Bytes] at zero
  apply natCast_injective
  · rw [Nat.cast_add, Nat.cast_add, Nat.cast_add, ZMod.natCast_zmod_val]
    linear_combination zero
  · exact Nat.lt_trans (show _ < 2 ^ 28 by omega) (by norm_num)
  · exact Nat.lt_trans (show _ < 2 ^ 28 by omega) (by norm_num)

end MulOperands

end Equation

/-! ## The relation holds -/

namespace MulOperands

/-- The four limbs of both halves of the result. -/
theorem result_limbs {operands : MulOperands} (range : operands.RangeChecked) :
    operands.mulLow.value.toNat + 2 ^ 32 * operands.mulHigh.value.toNat =
      operands.mulLow.low.val + 2 ^ 16 * operands.mulLow.high.val +
        2 ^ 32 * operands.mulHigh.low.val + 2 ^ 48 * operands.mulHigh.high.val := by
  rw [Register.value, Register.value, toNat_wordOf range.mulLow.1 range.mulLow.2,
    toNat_wordOf range.mulHigh.1 range.mulHigh.2]
  ring

/-- The limbs of the additive term, extended by its sign, are the term modulo `2^64`. -/
theorem additiveTerm_modEq {operands : MulOperands} (range : operands.RangeChecked) :
    ((operands.additiveTerm.low.val + 2 ^ 16 * operands.additiveTerm.high.val +
        2 ^ 32 * (65535 * operands.additiveTermSign.value.val) +
        2 ^ 48 * (65535 * operands.additiveTermSign.value.val) : ℕ) : ℤ) ≡
      operands.additiveTerm.signedValue operands.additiveTermSign [ZMOD 2 ^ 64] := by
  apply Int.modEq_iff_dvd.mpr
  refine ⟨-operands.additiveTermSign.value.val, ?_⟩
  rw [Register.signedValue, Register.value,
    toNat_wordOf range.additiveTerm.1 range.additiveTerm.2]
  push_cast
  ring

/-- The sums of an equation for each limb, with extended operands. -/
def signedLimbs (operands : MulOperands) (columns : MulColumns) : Nat :=
  productSum (operands.op1Bytes columns) (operands.op2Bytes columns) lowestProducts +
    2 ^ 16 * productSum (operands.op1Bytes columns) (operands.op2Bytes columns) secondProducts +
    2 ^ 32 * productSum (operands.op1Bytes columns) (operands.op2Bytes columns)
      signedThirdProducts +
    2 ^ 48 * productSum (operands.op1Bytes columns) (operands.op2Bytes columns)
      signedFourthProducts

theorem signedLimbs_modEq {operands : MulOperands} {columns : MulColumns}
    (range : operands.RangeChecked) (op1 : operands.op1.ParsedBy columns.op1Decomposition)
    (op2 : operands.op2.ParsedBy columns.op2Decomposition) :
    ((operands.signedLimbs columns : ℕ) : ℤ) +
      ((operands.additiveTerm.low.val + 2 ^ 16 * operands.additiveTerm.high.val +
        2 ^ 32 * (65535 * operands.additiveTermSign.value.val) +
        2 ^ 48 * (65535 * operands.additiveTermSign.value.val) : ℕ) : ℤ) ≡
      operands.result [ZMOD 2 ^ 64] := by
  have products := signedSums_modEq (fun i => (columns.op1Decomposition i).val)
    (fun i => (columns.op2Decomposition i).val) operands.op1Sign.value.val
    operands.op2Sign.value.val
  rw [← op1.value_eq range.op1, ← op2.value_eq range.op2] at products
  exact Int.ModEq.add products (additiveTerm_modEq range)

/-- Without signs the sums are the result itself. -/
theorem unsignedLimbs_eq {operands : MulOperands} {columns : MulColumns}
    (range : operands.RangeChecked) (op1 : operands.op1.ParsedBy columns.op1Decomposition)
    (op2 : operands.op2.ParsedBy columns.op2Decomposition) (op1Sign : operands.op1Sign.value = 0)
    (op2Sign : operands.op2Sign.value = 0) (additiveTermSign : operands.additiveTermSign.value = 0) :
    ((productSum (operands.op1Bytes columns) (operands.op2Bytes columns) lowestProducts +
        2 ^ 16 * productSum (operands.op1Bytes columns) (operands.op2Bytes columns) secondProducts +
        2 ^ 32 * productSum (operands.op1Bytes columns) (operands.op2Bytes columns)
          unsignedThirdProducts +
        2 ^ 48 * productSum (operands.op1Bytes columns) (operands.op2Bytes columns)
          unsignedFourthProducts +
        (operands.additiveTerm.low.val + 2 ^ 16 * operands.additiveTerm.high.val) : ℕ) : ℤ) =
      operands.result := by
  have op1Bytes_eq : operands.op1Bytes columns =
      extendedBytes (fun i => (columns.op1Decomposition i).val) 0 := by
    rw [op1Bytes, op1Sign, ZMod.val_zero, Nat.mul_zero]
  have op2Bytes_eq : operands.op2Bytes columns =
      extendedBytes (fun i => (columns.op2Decomposition i).val) 0 := by
    rw [op2Bytes, op2Sign, ZMod.val_zero, Nat.mul_zero]
  rw [op1Bytes_eq, op2Bytes_eq, unsignedSums_eq, ← op1.value_eq range.op1,
    ← op2.value_eq range.op2, result, Register.signedValue, Register.signedValue,
    Register.signedValue, op1Sign, op2Sign, additiveTermSign, ZMod.val_zero,
    ← toNat_wordOf range.additiveTerm.1 range.additiveTerm.2]
  simp only [Nat.cast_add, Nat.cast_mul, Nat.cast_zero, mul_zero, sub_zero]
  rfl

theorem lowest_exact {operands : MulOperands} {columns : MulColumns}
    (range : operands.RangeChecked) (enforced : operands.Enforced columns) :
    productSum (operands.op1Bytes columns) (operands.op2Bytes columns) lowestProducts +
      operands.additiveTerm.low.val =
        operands.mulLow.low.val + 2 ^ 16 * columns.lowest.number := by
  have zero := enforced.lowest
  rw [Carry.terms_eq, ← ZMod.natCast_zmod_val operands.additiveTerm.low,
    ← Nat.cast_zero (R := F)] at zero
  have equation := limb_exact range enforced.op1.bytes enforced.op2.bytes (by decide)
    (Nat.two_pow_pos 11) range.additiveTerm.1 range.mulLow.1
    (enforced.lowestRange.number_lt.trans (by norm_num)) zero
  rw [Nat.zero_add] at equation
  exact equation

theorem second_exact {operands : MulOperands} {columns : MulColumns}
    (range : operands.RangeChecked) (enforced : operands.Enforced columns) :
    columns.lowest.number +
      productSum (operands.op1Bytes columns) (operands.op2Bytes columns) secondProducts +
      operands.additiveTerm.high.val =
        operands.mulLow.high.val + 2 ^ 16 * columns.second.number := by
  have zero := enforced.second
  rw [Carry.terms_zero, Carry.terms_eq,
    ← ZMod.natCast_zmod_val operands.additiveTerm.high] at zero
  exact limb_exact range enforced.op1.bytes enforced.op2.bytes (by decide)
    (enforced.lowestRange.number_lt.trans (by norm_num)) range.additiveTerm.2 range.mulLow.2
    (enforced.secondRange.number_lt.trans (by norm_num)) zero

/-- Equations between limbs add up to an equation of the whole, up to what is carried out. -/
theorem signedRelation_of_limbs {operands : MulOperands} {columns : MulColumns}
    (range : operands.RangeChecked) (enforced : operands.Enforced columns) {k0 k1 k2 k3 : Nat}
    (lowest : productSum (operands.op1Bytes columns) (operands.op2Bytes columns) lowestProducts +
      operands.additiveTerm.low.val = operands.mulLow.low.val + 2 ^ 16 * k0)
    (second : k0 + productSum (operands.op1Bytes columns) (operands.op2Bytes columns)
      secondProducts + operands.additiveTerm.high.val = operands.mulLow.high.val + 2 ^ 16 * k1)
    (third : k1 + productSum (operands.op1Bytes columns) (operands.op2Bytes columns)
      signedThirdProducts + 65535 * operands.additiveTermSign.value.val =
        operands.mulHigh.low.val + 2 ^ 16 * k2)
    (fourth : k2 + productSum (operands.op1Bytes columns) (operands.op2Bytes columns)
      signedFourthProducts + 65535 * operands.additiveTermSign.value.val =
        operands.mulHigh.high.val + 2 ^ 16 * k3) : operands.Relation := by
  have sums := signedLimbs_modEq range enforced.op1 enforced.op2
  have limbs := result_limbs range
  have whole : operands.signedLimbs columns +
      (operands.additiveTerm.low.val + 2 ^ 16 * operands.additiveTerm.high.val +
        2 ^ 32 * (65535 * operands.additiveTermSign.value.val) +
        2 ^ 48 * (65535 * operands.additiveTermSign.value.val)) =
      operands.mulLow.value.toNat + 2 ^ 32 * operands.mulHigh.value.toNat + 2 ^ 64 * k3 := by
    rw [limbs, signedLimbs]
    linear_combination lowest + 2 ^ 16 * second + 2 ^ 32 * third + 2 ^ 48 * fourth
  rw [← Nat.cast_add, whole] at sums
  apply sums.symm.trans
  apply Int.modEq_iff_dvd.mpr
  refine ⟨-k3, ?_⟩
  push_cast
  ring

theorem unsignedRelation_of_limbs {operands : MulOperands} {columns : MulColumns}
    (range : operands.RangeChecked) (enforced : operands.Enforced columns)
    (op1Sign : operands.op1Sign.value = 0) (op2Sign : operands.op2Sign.value = 0)
    (additiveTermSign : operands.additiveTermSign.value = 0) {k0 k1 k2 : Nat}
    (lowest : productSum (operands.op1Bytes columns) (operands.op2Bytes columns) lowestProducts +
      operands.additiveTerm.low.val = operands.mulLow.low.val + 2 ^ 16 * k0)
    (second : k0 + productSum (operands.op1Bytes columns) (operands.op2Bytes columns)
      secondProducts + operands.additiveTerm.high.val = operands.mulLow.high.val + 2 ^ 16 * k1)
    (third : k1 + productSum (operands.op1Bytes columns) (operands.op2Bytes columns)
      unsignedThirdProducts = operands.mulHigh.low.val + 2 ^ 16 * k2)
    (fourth : k2 + productSum (operands.op1Bytes columns) (operands.op2Bytes columns)
      unsignedFourthProducts = operands.mulHigh.high.val) : operands.Relation := by
  have sums := unsignedLimbs_eq range enforced.op1 enforced.op2 op1Sign op2Sign additiveTermSign
  have limbs := result_limbs range
  have whole : productSum (operands.op1Bytes columns) (operands.op2Bytes columns) lowestProducts +
        2 ^ 16 * productSum (operands.op1Bytes columns) (operands.op2Bytes columns) secondProducts +
        2 ^ 32 * productSum (operands.op1Bytes columns) (operands.op2Bytes columns)
          unsignedThirdProducts +
        2 ^ 48 * productSum (operands.op1Bytes columns) (operands.op2Bytes columns)
          unsignedFourthProducts +
        (operands.additiveTerm.low.val + 2 ^ 16 * operands.additiveTerm.high.val) =
      operands.mulLow.value.toNat + 2 ^ 32 * operands.mulHigh.value.toNat := by
    rw [limbs]
    linear_combination lowest + 2 ^ 16 * second + 2 ^ 32 * third + 2 ^ 48 * fourth
  rw [whole] at sums
  rw [Relation, ← sums, Nat.cast_add, Nat.cast_mul]
  exact Int.ModEq.refl _

theorem additiveTermSign_lt {operands : MulOperands} (range : operands.RangeChecked) :
    65535 * operands.additiveTermSign.value.val < 2 ^ 16 := by
  have small := range.additiveTermSign.val_le_one
  omega

/-- Every satisfying assignment is a multiplication. -/
theorem relation_of_enforced {operands : MulOperands} {columns : MulColumns}
    (range : operands.RangeChecked) (enforced : operands.Enforced columns) :
    operands.Relation := by
  have lowest := lowest_exact range enforced
  have second := second_exact range enforced
  have op1 := enforced.op1.bytes
  have op2 := enforced.op2.bytes
  have carried := enforced.secondRange.number_lt.trans (show 2 ^ (8 + 2) < 2 ^ 11 by norm_num)
  have high := enforced.high
  rw [HighEnforced] at high
  split at high
  case h_1 additiveTermSign op1Sign op2Sign third fourth _ _ _ _ =>
    obtain ⟨thirdRange, fourthRange, thirdZero, fourthZero⟩ := high
    have sign : operands.additiveTermSign.signTerm 0xffff =
        ((65535 * operands.additiveTermSign.value.val : ℕ) : F) :=
      Num.signTerm_eq range.additiveTermSign 65535
    rw [Carry.terms_zero, Carry.terms_eq, sign] at thirdZero fourthZero
    exact signedRelation_of_limbs range enforced lowest second
      (limb_exact range op1 op2 (by decide) carried (additiveTermSign_lt range) range.mulHigh.1
        thirdRange.number_lt thirdZero)
      (limb_exact range op1 op2 (by decide) thirdRange.number_lt (additiveTermSign_lt range)
        range.mulHigh.2 fourthRange.number_lt fourthZero)
  case h_2 a b c third additiveTermSign op1Sign op2Sign _ =>
    obtain ⟨rfl, rfl, rfl, thirdRange, thirdZero, fourthZero⟩ := high
    have thirdCarried := thirdRange.number_lt.trans (show 2 ^ (8 + 1) < 2 ^ 11 by norm_num)
    have thirdExact : operands.limbConstraint columns columns.second.number unsignedThirdProducts
        ((0 : ℕ) : F) operands.mulHigh.low ((2 ^ 16 * third.number : ℕ) : F) = 0 := by
      rw [← Carry.terms_zero, ← Carry.terms_eq, Nat.cast_zero]
      exact thirdZero
    have fourthExact : operands.limbConstraint columns third.number unsignedFourthProducts
        ((0 : ℕ) : F) operands.mulHigh.high ((2 ^ 16 * 0 : ℕ) : F) = 0 := by
      rw [← Carry.terms_zero, Nat.mul_zero, Nat.cast_zero]
      exact fourthZero
    have thirdEquation := limb_exact range op1 op2 (by decide) carried (Nat.two_pow_pos 16)
      range.mulHigh.1 thirdCarried thirdExact
    have fourthEquation := limb_exact range op1 op2 (by decide) thirdCarried (Nat.two_pow_pos 16)
      range.mulHigh.2 (Nat.two_pow_pos 11) fourthExact
    exact unsignedRelation_of_limbs range enforced (congrArg Num.value op1Sign)
      (congrArg Num.value op2Sign) (congrArg Num.value additiveTermSign) lowest second
      thirdEquation fourthEquation
  case h_3 => exact high.elim

end MulOperands

end Airbender.Circuit
