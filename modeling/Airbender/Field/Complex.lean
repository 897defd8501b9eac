import Mathlib.NumberTheory.LegendreSymbol.Basic
import Mathlib.RingTheory.RootsOfUnity.PrimitiveRoots
import Airbender.Field.Quartic

/-!
# The complex extension as a field

The evaluation domains lie in the circle group of `Mersenne31Complex`: their points have norm
one, so that conjugation inverts them.
-/

namespace Airbender.Mersenne31Complex

open Circuit (F)

attribute [ext] Mersenne31Complex

section Components

variable (a b : Mersenne31Complex)

@[simp] theorem zero_c0 : (0 : Mersenne31Complex).c0 = 0 := rfl

@[simp] theorem zero_c1 : (0 : Mersenne31Complex).c1 = 0 := rfl

@[simp] theorem one_c0 : (1 : Mersenne31Complex).c0 = 1 := rfl

@[simp] theorem one_c1 : (1 : Mersenne31Complex).c1 = 0 := rfl

@[simp] theorem add_c0 : (a + b).c0 = a.c0 + b.c0 := rfl

@[simp] theorem add_c1 : (a + b).c1 = a.c1 + b.c1 := rfl

@[simp] theorem sub_c0 : (a - b).c0 = a.c0 - b.c0 := rfl

@[simp] theorem sub_c1 : (a - b).c1 = a.c1 - b.c1 := rfl

@[simp] theorem neg_c0 : (-a).c0 = -a.c0 := rfl

@[simp] theorem neg_c1 : (-a).c1 = -a.c1 := rfl

@[simp] theorem mul_c0 : (a * b).c0 = a.c0 * b.c0 - a.c1 * b.c1 := rfl

/-- The three products of the code give the schoolbook result. -/
@[simp] theorem mul_c1 : (a * b).c1 = a.c0 * b.c1 + a.c1 * b.c0 := by
  change (a.c1 + a.c0) * (b.c0 + b.c1) - a.c0 * b.c0 - a.c1 * b.c1 = _
  ring

end Components

instance : CommRing Mersenne31Complex where
  add_assoc a b c := by ext <;> simp only [add_c0, add_c1, add_assoc]
  zero_add a := by ext <;> simp only [add_c0, add_c1, zero_c0, zero_c1, zero_add]
  add_zero a := by ext <;> simp only [add_c0, add_c1, zero_c0, zero_c1, add_zero]
  add_comm a b := by ext <;> simp only [add_c0, add_c1, add_comm]
  neg_add_cancel a := by
    ext <;> simp only [add_c0, add_c1, neg_c0, neg_c1, zero_c0, zero_c1, neg_add_cancel]
  sub_eq_add_neg a b := by
    ext <;> simp only [sub_c0, sub_c1, add_c0, add_c1, neg_c0, neg_c1, sub_eq_add_neg]
  mul_assoc a b c := by
    ext <;> simp only [mul_c0, mul_c1] <;> ring
  mul_comm a b := by
    ext <;> simp only [mul_c0, mul_c1] <;> ring
  one_mul a := by
    ext <;> simp only [mul_c0, mul_c1, one_c0, one_c1] <;> ring
  mul_one a := by
    ext <;> simp only [mul_c0, mul_c1, one_c0, one_c1] <;> ring
  left_distrib a b c := by
    ext <;> simp only [mul_c0, mul_c1, add_c0, add_c1] <;> ring
  right_distrib a b c := by
    ext <;> simp only [mul_c0, mul_c1, add_c0, add_c1] <;> ring
  zero_mul a := by
    ext <;> simp only [mul_c0, mul_c1, zero_c0, zero_c1] <;> ring
  mul_zero a := by
    ext <;> simp only [mul_c0, mul_c1, zero_c0, zero_c1] <;> ring
  nsmul := nsmulRec
  zsmul := zsmulRec

/-! ## The norm -/

def norm (a : Mersenne31Complex) : F := a.c0 * a.c0 + a.c1 * a.c1

/-- `-1` is no square in the base field. -/
theorem norm_eq_zero_iff {a : Mersenne31Complex} : a.norm = 0 ↔ a = 0 := by
  constructor
  · intro vanishes
    by_cases imaginary : a.c1 = 0
    · have real : a.c0 = 0 := by
        rw [norm, imaginary, mul_zero, add_zero] at vanishes
        exact mul_self_eq_zero.mp vanishes
      ext
      · exact real
      · exact imaginary
    · have square : IsSquare (-1 : F) := by
        refine ⟨a.c0 / a.c1, ?_⟩
        field_simp
        rw [norm] at vanishes
        linear_combination -vanishes
      have residue := ZMod.exists_sq_eq_neg_one_iff.mp square
      exact absurd rfl residue
  · rintro rfl
    exact add_zero (0 * 0) |>.trans (mul_zero 0)

instance : Inv Mersenne31Complex := ⟨fun a => ⟨a.c0 * a.norm⁻¹, -(a.c1 * a.norm⁻¹)⟩⟩

instance : Field Mersenne31Complex where
  exists_pair_ne := ⟨0, 1, by decide⟩
  mul_inv_cancel a nonzero := by
    have invertible : a.norm ≠ 0 := fun zero => nonzero (norm_eq_zero_iff.mp zero)
    have cancels : (a.c0 * a.c0 + a.c1 * a.c1) * a.norm⁻¹ = 1 := mul_inv_cancel₀ invertible
    ext
    · change a.c0 * (a.c0 * a.norm⁻¹) - a.c1 * -(a.c1 * a.norm⁻¹) = 1
      linear_combination cancels
    · rw [mul_c1]
      change a.c0 * -(a.c1 * a.norm⁻¹) + a.c1 * (a.c0 * a.norm⁻¹) = 0
      ring
  inv_zero := by
    ext
    · exact zero_mul _
    · exact neg_eq_zero.mpr (zero_mul _)
  nnqsmul := _
  nnqsmul_def := fun _ _ => rfl
  qsmul := _
  qsmul_def := fun _ _ => rfl

/-- `inverse_impl` divides by the norm. -/
theorem inverse_eq {a : Mersenne31Complex} (nonzero : a ≠ 0) : a.inverse = some a⁻¹ := by
  have invertible : a.norm ≠ 0 := fun zero => nonzero (norm_eq_zero_iff.mp zero)
  have computed : a.c0 * a.c0 - -(a.c1 * a.c1) = a.norm := sub_neg_eq_add _ _
  rw [inverse, computed, Mersenne31Field.inverse_eq invertible]
  rfl

/-! ## Conjugation and the base field -/

/-- `from_base`. -/
def fromBase : F →+* Mersenne31Complex where
  toFun base := ⟨base, 0⟩
  map_zero' := rfl
  map_one' := rfl
  map_add' a b := by
    ext
    · rfl
    · exact (add_zero 0).symm
  map_mul' a b := by
    ext
    · rw [mul_c0]
      ring
    · rw [mul_c1]
      ring

def conj : Mersenne31Complex →+* Mersenne31Complex where
  toFun a := ⟨a.c0, -a.c1⟩
  map_zero' := by
    ext
    · rfl
    · exact neg_zero
  map_one' := by
    ext
    · rfl
    · exact neg_zero
  map_add' a b := by
    ext
    · rfl
    · exact neg_add a.c1 b.c1
  map_mul' a b := by
    ext
    · simp only [mul_c0]
      ring
    · simp only [mul_c1]
      ring

theorem conj_fromBase (base : F) : conj (fromBase base) = fromBase base := by
  ext
  · rfl
  · exact neg_zero

/-- The base field is what conjugation leaves alone. -/
theorem eq_fromBase_of_conj_eq {a : Mersenne31Complex} (real : conj a = a) :
    a = fromBase a.c0 := by
  have imaginary : -a.c1 = a.c1 := congrArg c1 real
  have zero : a.c1 = 0 := by
    have double : (2 : F) * a.c1 = 0 := by linear_combination -imaginary
    have two : (2 : F) ≠ 0 := by decide
    exact (mul_eq_zero.mp double).resolve_left two
  ext
  · rfl
  · exact zero

theorem mul_conj (a : Mersenne31Complex) : a * conj a = fromBase a.norm := by
  ext
  · rw [mul_c0]
    change a.c0 * a.c0 - a.c1 * -a.c1 = a.c0 * a.c0 + a.c1 * a.c1
    ring
  · rw [mul_c1]
    change a.c0 * -a.c1 + a.c1 * a.c0 = 0
    ring

end Airbender.Mersenne31Complex
