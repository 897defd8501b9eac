import Mathlib.Tactic.Ring

/-!
# Bit fields of words

A field of a word is a run of adjacent bits.  Reading a field, extending it and replacing it by
shifts and masks are arithmetic on the numbers of the words.
-/

namespace WordFields

variable {w : Nat}

/-- Reading a field of `k` bits from position `s`. -/
theorem toNat_read (word : BitVec w) (s k : Nat) :
    ((word >>> s).setWidth k).toNat = word.toNat / 2 ^ s % 2 ^ k := by
  rw [BitVec.toNat_setWidth, BitVec.toNat_ushiftRight, Nat.shiftRight_eq_div_pow]

/-- Keeping the `k` lowest bits. -/
theorem toNat_low (word : BitVec w) {k : Nat} (fits : k ≤ w) :
    (word &&& BitVec.ofNat w (2 ^ k - 1)).toNat = word.toNat % 2 ^ k := by
  have powers := Nat.pow_le_pow_right (n := 2) Nat.two_pos fits
  have positive := Nat.two_pow_pos k
  rw [BitVec.toNat_and, BitVec.toNat_ofNat, Nat.mod_eq_of_lt (by omega),
    Nat.and_two_pow_sub_one_eq_mod]

/-- Sign extension adds the high bits of a negative value. -/
theorem toNat_signExtend {k : Nat} (value : BitVec k) (fits : k ≤ w) :
    (value.signExtend w).toNat =
      value.toNat + if 2 ^ (k - 1) ≤ value.toNat then 2 ^ w - 2 ^ k else 0 := by
  have powers := Nat.pow_le_pow_right (n := 2) Nat.two_pos fits
  rw [BitVec.toNat_signExtend, BitVec.toNat_setWidth_of_le fits, BitVec.msb_eq_decide]
  by_cases negative : 2 ^ (k - 1) ≤ value.toNat
  · rw [if_pos negative, decide_eq_true negative, if_pos rfl]
  · rw [if_neg negative, decide_eq_false negative, if_neg Bool.false_ne_true]

/-- The mask of a field of `k` bits at position `s`. -/
def fieldMask (w s k : Nat) : BitVec w := BitVec.ofNat w (2 ^ k - 1) <<< s

theorem getLsbD_fieldMask (s k i : Nat) :
    (fieldMask w s k).getLsbD i = (decide (i < w) && decide (s ≤ i) && decide (i < s + k)) := by
  rw [fieldMask, BitVec.getLsbD_shiftLeft, BitVec.getLsbD_ofNat, Nat.testBit_two_pow_sub_one]
  by_cases below : i < s
  · have notAbove : ¬ s ≤ i := Nat.not_le.mpr below
    simp [below, notAbove]
  · have above : s ≤ i := Nat.not_lt.mp below
    have inside : i - s < k ↔ i < s + k := by omega
    have fits : i < w → i - s < w := by omega
    by_cases small : i < w
    · simp [small, below, above, inside, fits small]
    · simp [small]

/-- Replacing a field of `k` bits at position `s`. -/
theorem toNat_replace (word value : BitVec w) {s k : Nat} (fits : s + k ≤ w)
    (bound : value.toNat < 2 ^ k) :
    ((value <<< s) ||| (word &&& ~~~fieldMask w s k)).toNat =
      word.toNat % 2 ^ s + 2 ^ s * value.toNat + 2 ^ (s + k) * (word.toNat / 2 ^ (s + k)) := by
  have low := Nat.mod_lt word.toNat (Nat.two_pow_pos s)
  have parts : word.toNat % 2 ^ s + 2 ^ s * value.toNat + 2 ^ (s + k) * (word.toNat / 2 ^ (s + k)) =
      2 ^ s * (2 ^ k * (word.toNat / 2 ^ (s + k)) + value.toNat) + word.toNat % 2 ^ s := by
    rw [Nat.pow_add]
    ring
  rw [parts]
  apply Nat.eq_of_testBit_eq
  intro i
  rw [Nat.testBit_two_pow_mul_add _ low, Nat.testBit_two_pow_mul_add _ bound,
    BitVec.testBit_toNat, BitVec.getLsbD_or, BitVec.getLsbD_shiftLeft, BitVec.getLsbD_and,
    BitVec.getLsbD_not, getLsbD_fieldMask, Nat.testBit_mod_two_pow, Nat.testBit_div_two_pow,
    BitVec.testBit_toNat, BitVec.testBit_toNat, BitVec.testBit_toNat]
  by_cases below : i < s
  · have small : i < w := by omega
    have notAbove : ¬ s ≤ i := Nat.not_le.mpr below
    simp only [below, small, notAbove, decide_true, decide_false, Bool.not_true, Bool.and_false,
      Bool.false_and, Bool.not_false, Bool.and_true, Bool.false_or, Bool.true_and, if_true]
  · have above : s ≤ i := Nat.not_lt.mp below
    rw [if_neg below]
    by_cases inside : i < s + k
    · have small : i < w := by omega
      have offset : i - s < k := by omega
      simp only [below, above, inside, small, offset, decide_true, decide_false, Bool.not_false,
        Bool.not_true, Bool.and_true, Bool.and_false, Bool.or_false, Bool.true_and, if_true]
    · have offset : ¬ i - s < k := by omega
      have position : i - s - k + (s + k) = i := by omega
      have high : value.getLsbD (i - s) = false := by
        rw [← BitVec.testBit_toNat]
        apply Nat.testBit_lt_two_pow
        exact bound.trans_le (Nat.pow_le_pow_right Nat.two_pos (Nat.not_lt.mp offset))
      have outside : word.getLsbD i = (decide (i < w) && word.getLsbD i) := by
        by_cases small : i < w
        · rw [decide_eq_true small, Bool.true_and]
        · rw [BitVec.getLsbD_of_ge word i (Nat.not_lt.mp small), Bool.and_false]
      rw [if_neg offset, position, high]
      simp only [inside, decide_false, Bool.and_false, Bool.not_false, Bool.and_true,
        Bool.false_or]
      rw [Bool.and_comm]
      exact outside.symm

end WordFields
