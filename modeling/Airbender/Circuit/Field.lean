import Mathlib.Algebra.Field.ZMod
import Mathlib.Data.ZMod.Basic
import Mathlib.NumberTheory.LucasLehmer
import Mathlib.Tactic.LinearCombination
import Mathlib.Tactic.Ring
import Airbender.CommonConstants

/-!
# The base field of the circuits

Columns hold elements of `Z/(2^31-1)`.  Limbs that pass a range check are small, and an
equation between small expressions holds over the integers.
-/

namespace Airbender.Circuit

abbrev modulus : Nat := 2147483647

theorem prime_modulus : Nat.Prime modulus := by
  have prime := lucas_lehmer_sufficiency 31 (by simp) (by norm_num)
  simpa [mersenne] using prime

instance : Fact (Nat.Prime modulus) := ⟨prime_modulus⟩

abbrev F := ZMod modulus

/-! ## Declared ranges -/

/-- A limb that a 16-bit range check accepts. -/
def IsU16 (x : F) : Prop := x.val < 2 ^ 16

instance (x : F) : Decidable (IsU16 x) := inferInstanceAs (Decidable (_ < _))

/-- A byte that an 8-bit range check accepts. -/
def IsU8 (x : F) : Prop := x.val < 2 ^ 8

instance (x : F) : Decidable (IsU8 x) := inferInstanceAs (Decidable (_ < _))

/-- The constraint on a boolean variable. -/
def IsBoolean (x : F) : Prop := x * x - x = 0

instance (x : F) : Decidable (IsBoolean x) := inferInstanceAs (Decidable (_ = _))

theorem val_natCast_of_lt {n : Nat} (bound : n < modulus) : (n : F).val = n :=
  ZMod.val_cast_of_lt bound

theorem isU16_natCast {n : Nat} (bound : n < 2 ^ 16) : IsU16 (n : F) := by
  rw [IsU16, val_natCast_of_lt (bound.trans (by norm_num))]
  exact bound

theorem isU8_natCast {n : Nat} (bound : n < 2 ^ 8) : IsU8 (n : F) := by
  rw [IsU8, val_natCast_of_lt (bound.trans (by norm_num))]
  exact bound

theorem isBoolean_iff {x : F} : IsBoolean x ↔ x = 0 ∨ x = 1 := by
  have factored : x * x - x = x * (x - 1) := by ring
  rw [IsBoolean, factored, mul_eq_zero, sub_eq_zero]

theorem IsBoolean.exists_bool {x : F} (boolean : IsBoolean x) :
    ∃ b : Bool, x = if b then 1 else 0 := by
  rcases isBoolean_iff.mp boolean with rfl | rfl
  · exact ⟨false, rfl⟩
  · exact ⟨true, rfl⟩

theorem IsBoolean.val_le_one {x : F} (boolean : IsBoolean x) : x.val ≤ 1 := by
  rcases isBoolean_iff.mp boolean with rfl | rfl
  · exact Nat.zero_le 1
  · exact Nat.le_refl 1

/-! ## Words and limbs -/

/-- A Rust `u16`: one limb of a word. -/
abbrev U16 := BitVec 16

def splitU32IntoPairU16 (value : U32) : U16 × U16 :=
  (value.setWidth 16, (value >>> 16).setWidth 16)

/-- The column value of a limb. -/
def fromLimb (limb : U16) : F := (limb.toNat : F)

def fromBoolean (value : Bool) : F := if value then 1 else 0

/-- The word that two range-checked limbs hold. -/
def wordOf (low high : F) : U32 := BitVec.ofNat 32 (low.val + 2 ^ 16 * high.val)

theorem splitU32IntoPairU16_low (value : U32) :
    (splitU32IntoPairU16 value).1.toNat = value.toNat % 2 ^ 16 :=
  BitVec.toNat_setWidth 16 value

theorem splitU32IntoPairU16_high (value : U32) :
    (splitU32IntoPairU16 value).2.toNat = value.toNat / 2 ^ 16 := by
  have bound := value.isLt
  simp only [splitU32IntoPairU16, BitVec.toNat_setWidth, BitVec.toNat_ushiftRight,
    Nat.shiftRight_eq_div_pow]
  omega

theorem val_fromLimb (limb : U16) : (fromLimb limb).val = limb.toNat :=
  val_natCast_of_lt (limb.isLt.trans (by norm_num))

theorem isU16_fromLimb (limb : U16) : IsU16 (fromLimb limb) := isU16_natCast limb.isLt

theorem isBoolean_fromBoolean (value : Bool) : IsBoolean (fromBoolean value) := by
  cases value with
  | false => exact isBoolean_iff.mpr (Or.inl rfl)
  | true => exact isBoolean_iff.mpr (Or.inr rfl)

@[simp] theorem fromBoolean_false : fromBoolean false = 0 := rfl

@[simp] theorem fromBoolean_true : fromBoolean true = 1 := rfl

theorem fromBoolean_eq (value : Bool) : fromBoolean value = (value.toNat : F) := by
  cases value with
  | false => exact Nat.cast_zero.symm
  | true => exact Nat.cast_one.symm

theorem toNat_wordOf {low high : F} (lowRange : IsU16 low) (highRange : IsU16 high) :
    (wordOf low high).toNat = low.val + 2 ^ 16 * high.val := by
  rw [IsU16] at lowRange highRange
  rw [wordOf, BitVec.toNat_ofNat]
  exact Nat.mod_eq_of_lt (by omega)

/-- Splitting a word into limbs and reading them back. -/
theorem wordOf_split (value : U32) :
    wordOf (fromLimb (splitU32IntoPairU16 value).1) (fromLimb (splitU32IntoPairU16 value).2) =
      value := by
  apply BitVec.eq_of_toNat_eq
  rw [toNat_wordOf (isU16_fromLimb _) (isU16_fromLimb _), val_fromLimb, val_fromLimb,
    splitU32IntoPairU16_low, splitU32IntoPairU16_high]
  omega

/-! ## Small expressions -/

/-- An integer whose image is zero is a multiple of the modulus. -/
theorem intCast_eq_zero_iff {z : ℤ} : (z : F) = 0 ↔ ∃ k : ℤ, z = 2147483647 * k := by
  rw [ZMod.intCast_zmod_eq_zero_iff_dvd]
  exact Iff.rfl

theorem eq_zero_of_small {z : ℤ} (zero : (z : F) = 0) (lower : -2147483647 < z)
    (upper : z < 2147483647) : z = 0 := by
  rcases intCast_eq_zero_iff.mp zero with ⟨k, multiple⟩
  omega

/-! ## Tables over all keys of a width -/

/-- A table whose keys are the numbers of a width, from `key_for_continuous_log2_range`. -/
def tableForContinuousLog2Range (width : Nat) (values : Nat → F × F) : List (F × F × F) :=
  (List.range (2 ^ width)).map fun (key : Nat) => ((key : F), values key)

theorem mem_tableForContinuousLog2Range {width : Nat} {values : Nat → F × F} {key : Nat}
    {row : F × F} (small : width ≤ 30) (bound : key < 2 ^ width) :
    ((key : F), row) ∈ tableForContinuousLog2Range width values ↔ row = values key := by
  have fits : 2 ^ width ≤ 2 ^ 30 := Nat.pow_le_pow_right Nat.two_pos small
  have modulusBound : 2 ^ 30 < modulus := by decide
  rw [tableForContinuousLog2Range, List.mem_map]
  constructor
  · rintro ⟨other, inRange, same⟩
    rcases Prod.mk.inj same with ⟨keys, rfl⟩
    have otherBound := List.mem_range.mp inRange
    have values := congrArg ZMod.val keys
    rw [val_natCast_of_lt (by omega), val_natCast_of_lt (by omega)] at values
    rw [values]
  · rintro rfl
    exact ⟨key, List.mem_range.mpr bound, rfl⟩

end Airbender.Circuit
