import Mathlib.Algebra.QuadraticAlgebra.Basic
import Mathlib.Tactic.LinearCombination

/-!
# Arithmetic in quadratic extensions

The formulas by which programs multiply, square and invert in an extension by the square root of a
non-residue, against the product of the extension.
-/

namespace QuadraticExtension

open QuadraticAlgebra

section Products

variable {R : Type*} [CommRing R] {nonResidue : R} (x y : QuadraticAlgebra R nonResidue 0)

/-- Three products are enough. -/
theorem karatsuba : x * y =
    ⟨x.re * y.re + x.im * y.im * nonResidue,
      (x.im + x.re) * (y.re + y.im) - x.re * y.re - x.im * y.im⟩ := by
  ext
  · rw [re_mul]
    ring
  · rw [im_mul]
    ring

/-- Two products are enough for a square. -/
theorem square : x ^ 2 =
    ⟨(x.re - x.im) * (x.re - x.im * nonResidue) + x.re * x.im + x.re * x.im * nonResidue,
      2 * (x.re * x.im)⟩ := by
  rw [pow_two]
  ext
  · rw [re_mul]
    ring
  · rw [im_mul]
    ring

theorem norm_eq : norm x = x.re ^ 2 - x.im ^ 2 * nonResidue := by
  rw [norm_def]
  ring

/-- The conjugate divided by the norm. -/
theorem mul_inverse {inversed : R} (cancels : norm x * inversed = 1) :
    x * ⟨x.re * inversed, -(x.im * inversed)⟩ = 1 := by
  rw [norm_eq] at cancels
  ext
  · rw [re_mul, re_one]
    linear_combination cancels
  · rw [im_mul, im_one]
    ring

/-- A factor from below multiplies both parts. -/
theorem mul_embedded (base : R) :
    x * (⟨base, 0⟩ : QuadraticAlgebra R nonResidue 0) = ⟨x.re * base, x.im * base⟩ := by
  ext
  · rw [re_mul]
    ring
  · rw [im_mul]
    ring

end Products

section Norm

variable {K : Type*} [Field K] {nonResidue : K}

/-- What the product of an extension by a non-residue needs to be one of a field. -/
theorem fact_of_not_isSquare (irreducible : ¬IsSquare nonResidue) :
    Fact (∀ root : K, root ^ 2 ≠ nonResidue + 0 * root) := by
  constructor
  intro root square
  rw [zero_mul, add_zero] at square
  exact irreducible ⟨root, by rw [← square, pow_two]⟩

theorem norm_eq_zero_iff [Fact (∀ root : K, root ^ 2 ≠ nonResidue + 0 * root)]
    {x : QuadraticAlgebra K nonResidue 0} : norm x = 0 ↔ x = 0 := by
  have units : IsUnit x ↔ IsUnit (norm x) := isUnit_iff_norm_isUnit
  rw [isUnit_iff_ne_zero, isUnit_iff_ne_zero] at units
  exact (not_iff_not.mp units).symm

end Norm

end QuadraticExtension
