import Mathlib.Tactic.NormNum.LegendreSymbol
import Airbender.Field.Complex

/-!
# The quartic extension as a field

`2 + i` has no square root in the complex extension: its norm is five, which has none in the
base field.
-/

namespace Airbender.Mersenne31Quartic

open Circuit (F)

attribute [ext] Mersenne31Quartic

section Components

variable (a b : Mersenne31Quartic)

@[simp] theorem zero_c0 : (0 : Mersenne31Quartic).c0 = 0 := rfl

@[simp] theorem zero_c1 : (0 : Mersenne31Quartic).c1 = 0 := rfl

@[simp] theorem one_c0 : (1 : Mersenne31Quartic).c0 = 1 := rfl

@[simp] theorem one_c1 : (1 : Mersenne31Quartic).c1 = 0 := rfl

@[simp] theorem add_c0 : (a + b).c0 = a.c0 + b.c0 := rfl

@[simp] theorem add_c1 : (a + b).c1 = a.c1 + b.c1 := rfl

@[simp] theorem sub_c0 : (a - b).c0 = a.c0 - b.c0 := rfl

@[simp] theorem sub_c1 : (a - b).c1 = a.c1 - b.c1 := rfl

end Components

/-- The square of the generator of the quartic extension. -/
def nonResidue : Mersenne31Complex := ⟨2, 1⟩

theorem mulByNonResidue_eq (a : Mersenne31Complex) : a.mulByNonResidue = a * nonResidue := by
  ext
  · rw [Mersenne31Complex.mul_c0]
    change a.c0 + a.c0 - a.c1 = a.c0 * 2 - a.c1 * 1
    ring
  · rw [Mersenne31Complex.mul_c1]
    change a.c1 + a.c1 + a.c0 = a.c0 * 1 + a.c1 * 2
    ring

section Products

variable (a b : Mersenne31Quartic)

@[simp] theorem mul_c0 : (a * b).c0 = a.c0 * b.c0 + a.c1 * b.c1 * nonResidue := by
  rw [← mulByNonResidue_eq]
  rfl

@[simp] theorem mul_c1 : (a * b).c1 = a.c0 * b.c1 + a.c1 * b.c0 := by
  change (a.c1 + a.c0) * (b.c0 + b.c1) - a.c0 * b.c0 - a.c1 * b.c1 = _
  ring

end Products

instance : Neg Mersenne31Quartic := ⟨fun a => ⟨-a.c0, -a.c1⟩⟩

@[simp] theorem neg_c0 (a : Mersenne31Quartic) : (-a).c0 = -a.c0 := rfl

@[simp] theorem neg_c1 (a : Mersenne31Quartic) : (-a).c1 = -a.c1 := rfl

instance : CommRing Mersenne31Quartic where
  add_assoc a b c := by ext1 <;> simp only [add_c0, add_c1, add_assoc]
  zero_add a := by ext1 <;> simp only [add_c0, add_c1, zero_c0, zero_c1, zero_add]
  add_zero a := by ext1 <;> simp only [add_c0, add_c1, zero_c0, zero_c1, add_zero]
  add_comm a b := by ext1 <;> simp only [add_c0, add_c1, add_comm]
  neg_add_cancel a := by
    ext1 <;> simp only [add_c0, add_c1, neg_c0, neg_c1, zero_c0, zero_c1, neg_add_cancel]
  sub_eq_add_neg a b := by
    ext1 <;> simp only [sub_c0, sub_c1, add_c0, add_c1, neg_c0, neg_c1, sub_eq_add_neg]
  mul_assoc a b c := by
    ext1 <;> simp only [mul_c0, mul_c1] <;> ring
  mul_comm a b := by
    ext1 <;> simp only [mul_c0, mul_c1] <;> ring
  one_mul a := by
    ext1 <;> simp only [mul_c0, mul_c1, one_c0, one_c1] <;> ring
  mul_one a := by
    ext1 <;> simp only [mul_c0, mul_c1, one_c0, one_c1] <;> ring
  left_distrib a b c := by
    ext1 <;> simp only [mul_c0, mul_c1, add_c0, add_c1] <;> ring
  right_distrib a b c := by
    ext1 <;> simp only [mul_c0, mul_c1, add_c0, add_c1] <;> ring
  zero_mul a := by
    ext1 <;> simp only [mul_c0, mul_c1, zero_c0, zero_c1] <;> ring
  mul_zero a := by
    ext1 <;> simp only [mul_c0, mul_c1, zero_c0, zero_c1] <;> ring
  nsmul := nsmulRec
  zsmul := zsmulRec

/-! ## Embeddings -/

/-- `from_base` of the complex extension. -/
def fromComplex : Mersenne31Complex →+* Mersenne31Quartic where
  toFun base := ⟨base, 0⟩
  map_zero' := rfl
  map_one' := rfl
  map_add' a b := by
    ext1
    · rfl
    · exact (add_zero 0).symm
  map_mul' a b := by
    ext1
    · rw [mul_c0]
      ring
    · rw [mul_c1]
      ring

/-- `mul_assign_by_base` of the complex extension. -/
def mulByComplex (a : Mersenne31Quartic) (base : Mersenne31Complex) : Mersenne31Quartic :=
  ⟨a.c0 * base, a.c1 * base⟩

/-- `sub_assign_base` of the complex extension. -/
def subComplex (a : Mersenne31Quartic) (base : Mersenne31Complex) : Mersenne31Quartic :=
  ⟨a.c0 - base, a.c1⟩

theorem mulByComplex_eq (a : Mersenne31Quartic) (base : Mersenne31Complex) :
    a.mulByComplex base = a * fromComplex base := by
  ext1
  · rw [mul_c0]
    change a.c0 * base = a.c0 * base + a.c1 * 0 * nonResidue
    ring
  · rw [mul_c1]
    change a.c1 * base = a.c0 * 0 + a.c1 * base
    ring

theorem subComplex_eq (a : Mersenne31Quartic) (base : Mersenne31Complex) :
    a.subComplex base = a - fromComplex base := by
  ext1
  · rfl
  · exact (sub_zero a.c1).symm

theorem fromBase_eq (base : F) :
    fromBase base = fromComplex (Mersenne31Complex.fromBase base) := rfl

theorem mulByBase_eq (a : Mersenne31Quartic) (base : F) :
    a.mulByBase base = a * fromBase base := by
  rw [fromBase_eq, ← mulByComplex_eq]
  ext1
  · ext
    · rw [mulByBase, mulByComplex, Mersenne31Complex.mul_c0]
      change a.c0.c0 * base = a.c0.c0 * base - a.c0.c1 * 0
      ring
    · rw [mulByBase, mulByComplex, Mersenne31Complex.mul_c1]
      change a.c0.c1 * base = a.c0.c0 * 0 + a.c0.c1 * base
      ring
  · ext
    · rw [mulByBase, mulByComplex, Mersenne31Complex.mul_c0]
      change a.c1.c0 * base = a.c1.c0 * base - a.c1.c1 * 0
      ring
    · rw [mulByBase, mulByComplex, Mersenne31Complex.mul_c1]
      change a.c1.c1 * base = a.c1.c0 * 0 + a.c1.c1 * base
      ring

/-! ## Inverses -/

/-- Five is not a square modulo `2 ^ 31 - 1`. -/
theorem five_not_isSquare : ¬ IsSquare (5 : F) := by
  have symbol : legendreSym Circuit.modulus 5 = -1 := by norm_num
  exact (legendreSym.eq_neg_one_iff Circuit.modulus).mp symbol

theorem nonResidue_not_isSquare : ¬ IsSquare nonResidue := by
  rintro ⟨root, square⟩
  have norms : root.norm * root.norm = 5 := by
    have multiplicative : (root * root).norm = root.norm * root.norm := by
      simp only [Mersenne31Complex.norm, Mersenne31Complex.mul_c0, Mersenne31Complex.mul_c1]
      ring
    rw [← multiplicative, ← square]
    decide
  exact five_not_isSquare ⟨root.norm, norms.symm⟩

/-- The norm over the complex extension. -/
def norm (a : Mersenne31Quartic) : Mersenne31Complex :=
  a.c0 * a.c0 - a.c1 * a.c1 * nonResidue

theorem norm_eq_zero_iff {a : Mersenne31Quartic} : a.norm = 0 ↔ a = 0 := by
  constructor
  · intro vanishes
    by_cases linear : a.c1 = 0
    · have constant : a.c0 = 0 := by
        rw [norm, linear, mul_zero, zero_mul, sub_zero] at vanishes
        exact mul_self_eq_zero.mp vanishes
      ext1
      · exact constant
      · exact linear
    · have square : IsSquare nonResidue := by
        refine ⟨a.c0 / a.c1, ?_⟩
        field_simp
        rw [norm] at vanishes
        linear_combination -vanishes
      exact absurd square nonResidue_not_isSquare
  · rintro rfl
    rw [norm, zero_c0, zero_c1, mul_zero, zero_mul, sub_zero]

instance : Inv Mersenne31Quartic := ⟨fun a => ⟨a.c0 * a.norm⁻¹, -(a.c1 * a.norm⁻¹)⟩⟩

theorem inv_c0 (a : Mersenne31Quartic) : (a⁻¹).c0 = a.c0 * a.norm⁻¹ := rfl

theorem inv_c1 (a : Mersenne31Quartic) : (a⁻¹).c1 = -(a.c1 * a.norm⁻¹) := rfl

instance : Field Mersenne31Quartic where
  exists_pair_ne := ⟨0, 1, by decide⟩
  mul_inv_cancel a nonzero := by
    have invertible : a.norm ≠ 0 := fun zero => nonzero (norm_eq_zero_iff.mp zero)
    have cancels : (a.c0 * a.c0 - a.c1 * a.c1 * nonResidue) * a.norm⁻¹ = 1 :=
      mul_inv_cancel₀ invertible
    ext1
    · rw [mul_c0, inv_c0, inv_c1, one_c0]
      linear_combination cancels
    · rw [mul_c1, inv_c0, inv_c1, one_c1]
      ring
  inv_zero := by
    ext1
    · rw [inv_c0, zero_c0, zero_mul]
    · rw [inv_c1, zero_c1, zero_mul, neg_zero]
  nnqsmul := _
  nnqsmul_def := fun _ _ => rfl
  qsmul := _
  qsmul_def := fun _ _ => rfl

/-- `inverse` divides by the norm. -/
theorem inverse_eq {a : Mersenne31Quartic} (nonzero : a ≠ 0) : a.inverse = some a⁻¹ := by
  have invertible : a.norm ≠ 0 := fun zero => nonzero (norm_eq_zero_iff.mp zero)
  have computed : a.c0 * a.c0 - (a.c1 * a.c1).mulByNonResidue = a.norm := by
    rw [mulByNonResidue_eq, norm]
  rw [inverse, computed, Mersenne31Complex.inverse_eq invertible]
  rfl

end Airbender.Mersenne31Quartic
