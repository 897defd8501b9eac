import Airbender.CommonConstants

/-!
# Mersenne31 arithmetic on machine words

The host implementation of the base field.  A residue is kept in 31 bits, where
zero may also be stored as the modulus.
-/

namespace Airbender.Mersenne31

def order : U32 := ((1 : U32) <<< 31) - 1

/-- The representative below the modulus. -/
def toReducedU32 (value : U32) : U32 :=
  if value = order then 0 else value

def fromNonreducedU32 (c : U32) : U32 :=
  let c := if order ≤ c then c - order else c
  if order ≤ c then c - order else c

def addMod (a b : U32) : U32 :=
  let sum := a + b
  let msb := sum &&& ((1 : U32) <<< 31)
  (sum ^^^ msb) + (if msb ≠ 0 then 1 else 0)

def subMod (a b : U32) : U32 :=
  let sum := a - b
  let msb := sum &&& ((1 : U32) <<< 31)
  (sum ^^^ msb) - (if msb ≠ 0 then 1 else 0)

def mulMod (a b : U32) : U32 :=
  let product : U64 := a.setWidth 64 * b.setWidth 64
  let productLow := product.setWidth 32 &&& (((1 : U32) <<< 31) - 1)
  let productHigh := (product >>> 31).setWidth 32
  addMod productLow productHigh

/-! ## Residues -/

/-- The top bit of a word, and the word without it. -/
theorem topBit_cases (sum : U32) :
    (sum &&& ((1 : U32) <<< 31) = 0 ∧ sum.toNat < 2 ^ 31) ∨
      (sum &&& ((1 : U32) <<< 31) = (1 : U32) <<< 31 ∧ 2 ^ 31 ≤ sum.toNat ∧
        (sum ^^^ ((1 : U32) <<< 31)).toNat = sum.toNat - 2 ^ 31) := by
  have bound := sum.isLt
  have shifted : ((1 : U32) <<< 31).toNat = 2 ^ 31 := rfl
  have andHigh := Nat.and_div_two_pow (a := sum.toNat) (b := 2 ^ 31) (n := 31)
  have andLow := Nat.and_mod_two_pow (a := sum.toNat) (b := 2 ^ 31) (n := 31)
  rw [Nat.mod_self, Nat.and_zero] at andLow
  rw [Nat.div_self (Nat.two_pow_pos 31)] at andHigh
  rcases Nat.lt_or_ge sum.toNat (2 ^ 31) with small | large
  · left
    refine ⟨?_, small⟩
    rw [Nat.div_eq_of_lt small, Nat.zero_and] at andHigh
    apply BitVec.eq_of_toNat_eq
    rw [BitVec.toNat_and, shifted]
    change _ = 0
    omega
  · right
    have high : sum.toNat / 2 ^ 31 = 1 := by omega
    have xorHigh := Nat.xor_div_two_pow (a := sum.toNat) (b := 2 ^ 31) (n := 31)
    have xorLow := Nat.xor_mod_two_pow (a := sum.toNat) (b := 2 ^ 31) (n := 31)
    rw [Nat.mod_self, Nat.xor_zero] at xorLow
    rw [high, Nat.div_self (Nat.two_pow_pos 31), Nat.xor_self] at xorHigh
    rw [high, Nat.and_self] at andHigh
    refine ⟨?_, large, ?_⟩
    · apply BitVec.eq_of_toNat_eq
      rw [BitVec.toNat_and, shifted]
      omega
    · rw [BitVec.toNat_xor, shifted]
      omega

theorem toNat_fromNonreducedU32 (c : U32) :
    (fromNonreducedU32 c).toNat = c.toNat % (2 ^ 31 - 1) := by
  have bound := c.isLt
  have orderValue : order.toNat = 2 ^ 31 - 1 := rfl
  unfold fromNonreducedU32
  simp only [BitVec.le_def]
  split
  · rename_i first
    split
    · rename_i second
      simp only [BitVec.toNat_sub, orderValue] at first second ⊢
      omega
    · rename_i second
      simp only [BitVec.toNat_sub, orderValue] at first second ⊢
      omega
  · omega

theorem toNat_toReducedU32 {value : U32} (bound : value.toNat < 2 ^ 31) :
    (toReducedU32 value).toNat = value.toNat % (2 ^ 31 - 1) := by
  have orderValue : order.toNat = 2 ^ 31 - 1 := rfl
  unfold toReducedU32
  by_cases equal : value = order
  · rw [if_pos equal, equal, orderValue]
    rfl
  · rw [if_neg equal]
    have different : value.toNat ≠ 2 ^ 31 - 1 := fun same =>
      equal (BitVec.eq_of_toNat_eq (same.trans orderValue.symm))
    omega

/-- The sum folds to at most the modulus. -/
theorem addMod_spec {a b : U32} (aBound : a.toNat < 2 ^ 31) (bBound : b.toNat < 2 ^ 31) :
    (addMod a b).toNat < 2 ^ 31 ∧
      (addMod a b).toNat % (2 ^ 31 - 1) = (a.toNat + b.toNat) % (2 ^ 31 - 1) := by
  have sum : (a + b).toNat = a.toNat + b.toNat := by
    rw [BitVec.toNat_add]
    omega
  unfold addMod
  rcases topBit_cases (a + b) with ⟨clear, small⟩ | ⟨set, large, folded⟩
  · have unchanged : (a + b ^^^ 0) + 0 = a + b := by simp
    simp only [clear, ne_eq, not_true_eq_false, if_false, unchanged]
    omega
  · have nonzero : (1 : U32) <<< 31 ≠ 0 := by decide
    have one : (1 : U32).toNat = 1 := rfl
    simp only [set, if_pos nonzero, BitVec.toNat_add, folded, sum, one]
    omega

/-- A shift by one is a sum of equal words. -/
theorem shiftLeft_one (a : U32) : a <<< 1 = a + a := by
  apply BitVec.eq_of_toNat_eq
  rw [BitVec.toNat_shiftLeft, BitVec.toNat_add, Nat.shiftLeft_eq, Nat.pow_one, Nat.mul_two]

theorem subMod_spec_of_lt {a b : U32} (aBound : a.toNat < 2 ^ 31) (bBound : b.toNat < 2 ^ 31) :
    (subMod a b).toNat < 2 ^ 31 ∧
      (subMod a b).toNat % (2 ^ 31 - 1) =
        (a.toNat + (2 ^ 31 - 1) - b.toNat) % (2 ^ 31 - 1) := by
  have difference : (a - b).toNat = (2 ^ 32 - b.toNat + a.toNat) % 2 ^ 32 := BitVec.toNat_sub a b
  unfold subMod
  rcases topBit_cases (a - b) with ⟨clear, small⟩ | ⟨set, large, folded⟩
  · have unchanged : (a - b ^^^ 0) - 0 = a - b := by simp
    simp only [clear, ne_eq, not_true_eq_false, if_false, unchanged]
    omega
  · have nonzero : (1 : U32) <<< 31 ≠ 0 := by decide
    have one : (1 : U32).toNat = 1 := rfl
    simp only [set, if_pos nonzero, BitVec.toNat_sub, folded, difference, one]
    rw [difference] at large
    omega

theorem subMod_spec {a b : U32} (aBound : a.toNat < 2 ^ 31 - 1) (bBound : b.toNat < 2 ^ 31 - 1) :
    (subMod a b).toNat < 2 ^ 31 ∧
      (subMod a b).toNat % (2 ^ 31 - 1) =
        (a.toNat + (2 ^ 31 - 1) - b.toNat) % (2 ^ 31 - 1) :=
  subMod_spec_of_lt (by omega) (by omega)

theorem toNat_productLow (product : U64) :
    (product.setWidth 32 &&& (((1 : U32) <<< 31) - 1)).toNat = product.toNat % 2 ^ 31 := by
  rw [BitVec.toNat_and, BitVec.toNat_setWidth]
  change product.toNat % 2 ^ 32 &&& (2 ^ 31 - 1) = _
  rw [Nat.and_two_pow_sub_one_eq_mod]
  omega

theorem toNat_productHigh {product : U64} (bound : product.toNat < 2 ^ 63) :
    ((product >>> 31).setWidth 32).toNat = product.toNat / 2 ^ 31 := by
  rw [BitVec.toNat_setWidth, BitVec.toNat_ushiftRight, Nat.shiftRight_eq_div_pow]
  omega

/-- Either factor may be the modulus itself. -/
theorem mulMod_spec_of_lt {a b : U32} (aBound : a.toNat < 2 ^ 31) (bBound : b.toNat < 2 ^ 31) :
    (mulMod a b).toNat < 2 ^ 31 ∧
      (mulMod a b).toNat % (2 ^ 31 - 1) = (a.toNat * b.toNat) % (2 ^ 31 - 1) := by
  have productBound : a.toNat * b.toNat < 2 ^ 62 := by
    have := Nat.mul_lt_mul'' aBound bBound
    omega
  have product : (a.setWidth 64 * b.setWidth 64 : U64).toNat = a.toNat * b.toNat := by
    rw [BitVec.toNat_mul, BitVec.toNat_setWidth, BitVec.toNat_setWidth]
    rw [Nat.mod_eq_of_lt (a := a.toNat) (by omega), Nat.mod_eq_of_lt (a := b.toNat) (by omega)]
    exact Nat.mod_eq_of_lt (by omega)
  unfold mulMod
  generalize a.toNat * b.toNat = value at product productBound
  generalize (a.setWidth 64 * b.setWidth 64 : U64) = word at product
  have low := toNat_productLow word
  have high := toNat_productHigh (show word.toNat < 2 ^ 63 by omega)
  have folded := addMod_spec (a := word.setWidth 32 &&& (((1 : U32) <<< 31) - 1))
    (b := (word >>> 31).setWidth 32) (by omega) (by omega)
  rw [low, high, product] at folded
  refine ⟨folded.1, ?_⟩
  rw [folded.2]
  omega

theorem mulMod_spec {a b : U32} (aBound : a.toNat < 2 ^ 31 - 1) (bBound : b.toNat < 2 ^ 31 - 1) :
    (mulMod a b).toNat < 2 ^ 31 ∧
      (mulMod a b).toNat % (2 ^ 31 - 1) = (a.toNat * b.toNat) % (2 ^ 31 - 1) :=
  mulMod_spec_of_lt (by omega) (by omega)

end Airbender.Mersenne31
