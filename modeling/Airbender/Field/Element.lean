import Airbender.Field.Mersenne31
import Airbender.Field.Quartic

/-!
# Stored field elements

`Mersenne31Field` as the host keeps it: a word below `2^31`, in which zero has two
representations.  The operations act on the residue the word stands for.
-/

namespace Airbender.Mersenne31

open Circuit (F)

@[ext] structure Element where
  raw : U32
  bound : raw.toNat < 2 ^ 31
deriving DecidableEq

namespace Element

def zero : Element := ⟨0, by decide⟩

def one : Element := ⟨1, by decide⟩

/-- `MINUS_ONE`. -/
def minusOne : Element := ⟨order - 1, by decide⟩

/-- `as_u64_reduced`. -/
def asU64Reduced (a : Element) : Nat := (toReducedU32 a.raw).toNat

/-- Both representations of zero. -/
def isZero (a : Element) : Bool := a.raw == 0 || a.raw == order

/-- `PartialEq`: the reduced values agree. -/
def eq (a b : Element) : Bool := a.asU64Reduced == b.asU64Reduced

def addAssign (a b : Element) : Element := ⟨addMod a.raw b.raw, (addMod_spec a.bound b.bound).1⟩

def subAssign (a b : Element) : Element :=
  ⟨subMod a.raw b.raw, (subMod_spec_of_lt a.bound b.bound).1⟩

def mulAssign (a b : Element) : Element :=
  ⟨mulMod a.raw b.raw, (mulMod_spec_of_lt a.bound b.bound).1⟩

/-- Negation goes from one zero to the other. -/
def negate (a : Element) : Element :=
  ⟨order - a.raw, by
    have bound := a.bound
    have orderValue : order.toNat = 2 ^ 31 - 1 := rfl
    rw [BitVec.toNat_sub, orderValue]
    omega⟩

/-- `square_impl`. -/
def square (a : Element) : Element := a.mulAssign a

/-- `double_impl`. -/
def double (a : Element) : Element :=
  let sum := a.raw <<< 1
  let msb := sum &&& ((1 : U32) <<< 31)
  ⟨(sum ^^^ msb) + (if msb ≠ 0 then 1 else 0), by
    have folded := (addMod_spec a.bound a.bound).1
    rwa [addMod, ← shiftLeft_one] at folded⟩

/-- `mul_by_non_residue_impl`: the non-residue of the base field is minus one. -/
def mulByNonResidue (a : Element) : Element := a.negate

def expPowerOf2 (a : Element) : Nat → Element
  | 0 => a
  | powerLog + 1 => expPowerOf2 (a.mulAssign a) powerLog

/-- `inverse_impl`. -/
def inverse (a : Element) : Option Element :=
  if a.isZero then
    none
  else
    let p101 := (a.expPowerOf2 2).mulAssign a
    let p1111 := (p101.mulAssign p101).mulAssign p101
    let p11111111 := (p1111.expPowerOf2 4).mulAssign p1111
    let p111111110000 := p11111111.expPowerOf2 4
    let p111111111111 := p111111110000.mulAssign p1111
    let ones16 := (p111111110000.expPowerOf2 4).mulAssign p11111111
    let ones28 := (ones16.expPowerOf2 12).mulAssign p111111111111
    some ((ones28.expPowerOf2 3).mulAssign p101)

/-- `from_u64`, which looks at the low word only. -/
def fromU64 (value : U64) : Option Element :=
  if bound : (value.setWidth 32).toNat < 2 ^ 31 - 1 then
    some ⟨value.setWidth 32, by omega⟩
  else
    none

/-- `from_u64_unchecked`, which keeps the low word and asserts that it has 31 bits. -/
def fromU64Unchecked (value : U64) : Option Element :=
  if bound : (value.setWidth 32).toNat < 2 ^ 31 then some ⟨value.setWidth 32, bound⟩ else none

/-- `as_u64`. -/
def asU64 (a : Element) : U64 := a.raw.setWidth 64

def fromU64WithReduction (value : U64) : Element :=
  ⟨(value % order.setWidth 64).setWidth 32, by
    have orderValue : (order.setWidth 64 : U64).toNat = 2 ^ 31 - 1 := rfl
    have reduced : value.toNat % (2 ^ 31 - 1) < 2 ^ 31 - 1 := Nat.mod_lt _ (by decide)
    rw [BitVec.toNat_setWidth, BitVec.toNat_umod, orderValue]
    omega⟩

/-! ## The residue -/

/-- The residue that the stored word represents. -/
def value (a : Element) : F := (a.raw.toNat : F)

@[simp] theorem value_zero : zero.value = 0 := rfl

@[simp] theorem value_one : one.value = 1 := rfl

@[simp] theorem value_minusOne : minusOne.value = -1 := by decide

theorem value_eq_iff_mod {a : Element} {n : Nat} :
    a.value = (n : F) ↔ a.raw.toNat % (2 ^ 31 - 1) = n % (2 ^ 31 - 1) :=
  ZMod.natCast_eq_natCast_iff' a.raw.toNat n Circuit.modulus

@[simp] theorem value_addAssign (a b : Element) : (a.addAssign b).value = a.value + b.value := by
  have residue : (a.addAssign b).value = ((a.raw.toNat + b.raw.toNat : Nat) : F) :=
    value_eq_iff_mod.mpr (addMod_spec a.bound b.bound).2
  rw [residue, Nat.cast_add, value, value]

@[simp] theorem value_subAssign (a b : Element) : (a.subAssign b).value = a.value - b.value := by
  have bound := b.bound
  have residue : (a.subAssign b).value =
      ((a.raw.toNat + (2 ^ 31 - 1) - b.raw.toNat : Nat) : F) :=
    value_eq_iff_mod.mpr (subMod_spec_of_lt a.bound b.bound).2
  have zero : ((2 ^ 31 - 1 : Nat) : F) = 0 := ZMod.natCast_self Circuit.modulus
  rw [residue, Nat.cast_sub (by omega), Nat.cast_add, zero, add_zero, value, value]

@[simp] theorem value_mulAssign (a b : Element) : (a.mulAssign b).value = a.value * b.value := by
  have residue : (a.mulAssign b).value = ((a.raw.toNat * b.raw.toNat : Nat) : F) :=
    value_eq_iff_mod.mpr (mulMod_spec_of_lt a.bound b.bound).2
  rw [residue, Nat.cast_mul, value, value]

theorem double_eq (a : Element) : a.double = a.addAssign a := by
  ext1
  change a.double.raw = addMod a.raw a.raw
  rw [addMod, ← shiftLeft_one]
  rfl

@[simp] theorem value_double (a : Element) : a.double.value = 2 * a.value := by
  rw [double_eq, value_addAssign, two_mul]

@[simp] theorem value_square (a : Element) : a.square.value = a.value ^ 2 := by
  rw [square, value_mulAssign, pow_two]

@[simp] theorem value_negate (a : Element) : a.negate.value = -a.value := by
  have bound := a.bound
  have orderValue : order.toNat = 2 ^ 31 - 1 := rfl
  have raw : a.negate.raw.toNat = (2 ^ 31 - 1) - a.raw.toNat := by
    rw [negate, BitVec.toNat_sub, orderValue]
    omega
  rw [eq_neg_iff_add_eq_zero, value, value, raw, ← Nat.cast_add, Nat.sub_add_cancel (by omega)]
  exact ZMod.natCast_self Circuit.modulus

@[simp] theorem value_mulByNonResidue (a : Element) : a.mulByNonResidue.value = -a.value :=
  value_negate a

theorem toNat_asU64 (a : Element) : a.asU64.toNat = a.raw.toNat := by
  have bound := a.bound
  rw [asU64, BitVec.toNat_setWidth]
  omega

@[simp] theorem value_fromU64WithReduction (value : U64) :
    (fromU64WithReduction value).value = (value.toNat : F) := by
  apply value_eq_iff_mod.mpr
  have orderValue : (order.setWidth 64 : U64).toNat = 2 ^ 31 - 1 := rfl
  have reduced : value.toNat % (2 ^ 31 - 1) < 2 ^ 31 - 1 := Nat.mod_lt _ (by decide)
  rw [fromU64WithReduction, BitVec.toNat_setWidth, BitVec.toNat_umod, orderValue,
    Nat.mod_eq_of_lt (b := 2 ^ 32) (by omega), Nat.mod_mod]

theorem value_expPowerOf2 (a : Element) (powerLog : Nat) :
    (a.expPowerOf2 powerLog).value = Mersenne31Field.expPowerOf2 a.value powerLog := by
  induction powerLog generalizing a with
  | zero => rfl
  | succ powerLog inductionHypothesis =>
      rw [expPowerOf2, Mersenne31Field.expPowerOf2, inductionHypothesis, value_mulAssign]

/-- The reduced word is the least representative of the residue. -/
theorem asU64Reduced_eq (a : Element) : a.asU64Reduced = a.value.val := by
  rw [asU64Reduced, toNat_toReducedU32 a.bound, value, ZMod.val_natCast]
  rfl

theorem isZero_iff {a : Element} : a.isZero = true ↔ a.value = 0 := by
  have bound := a.bound
  have orderValue : order.toNat = 2 ^ 31 - 1 := rfl
  have residue : a.value = 0 ↔ a.raw.toNat % (2 ^ 31 - 1) = 0 := value_eq_iff_mod (n := 0)
  rw [residue, isZero, Bool.or_eq_true, beq_iff_eq, beq_iff_eq, ← BitVec.toNat_inj,
    ← BitVec.toNat_inj, orderValue]
  change a.raw.toNat = 0 ∨ _ ↔ _
  omega

theorem isZero_eq_false_iff {a : Element} : a.isZero = false ↔ a.value ≠ 0 := by
  rw [ne_eq, ← isZero_iff, Bool.not_eq_true]

/-- Away from zero the stored word is determined by the residue. -/
theorem eq_of_value_eq {a b : Element} (nonzero : a.value ≠ 0) (same : a.value = b.value) :
    a = b := by
  have aBound := a.bound
  have bBound := b.bound
  have residues : a.raw.toNat % (2 ^ 31 - 1) = b.raw.toNat % (2 ^ 31 - 1) :=
    value_eq_iff_mod.mp same
  have different : a.raw.toNat % (2 ^ 31 - 1) ≠ 0 := fun zero =>
    nonzero ((value_eq_iff_mod (n := 0)).mpr zero)
  have raws : a.raw = b.raw := BitVec.eq_of_toNat_eq (by omega)
  cases a
  cases b
  congr

theorem eq_iff {a b : Element} : a.eq b = true ↔ a.value = b.value := by
  rw [eq, beq_iff_eq, asU64Reduced_eq, asU64Reduced_eq]
  exact (ZMod.val_injective Circuit.modulus).eq_iff

theorem inverse_zero {a : Element} (zero : a.value = 0) : a.inverse = none :=
  if_pos (isZero_iff.mpr zero)

theorem inverse_eq {a : Element} (nonzero : a.value ≠ 0) :
    ∃ inverted, a.inverse = some inverted ∧ inverted.value = a.value⁻¹ := by
  have chain := Mersenne31Field.inverse_eq nonzero
  rw [Mersenne31Field.inverse, if_neg nonzero] at chain
  have tested : ¬ a.isZero = true := fun zero => nonzero (isZero_iff.mp zero)
  rw [inverse, if_neg tested]
  refine ⟨_, rfl, ?_⟩
  simp only [value_mulAssign, value_expPowerOf2]
  exact Option.some.inj chain

end Element

end Airbender.Mersenne31
