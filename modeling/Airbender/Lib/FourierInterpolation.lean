import Mathlib.GroupTheory.OrderOfElement
import Mathlib.LinearAlgebra.Lagrange
import Mathlib.Tactic.Ring

/-!
# Interpolation on a cyclic group

The polynomial that interpolates on the powers of a root of unity has the inverse transform for
coefficients.  Over a field with a conjugation that inverts the points of the unit circle, a real
function of mean zero extends to a real function on every coset, up to a power of the coset's
offset.
-/

namespace FourierInterpolation

open Finset Polynomial

universe u

variable {K : Type u} [Field K]

/-- A coefficient of the interpolating polynomial. -/
noncomputable def coefficient (ω : K) (N : ℕ) (x : ℕ → K) (c : ℕ) : K :=
  (N : K)⁻¹ * ∑ i ∈ range N, ω⁻¹ ^ (c * i) * x i

/-- The function on the powers of `ω`, extended to the whole field. -/
noncomputable def extension (ω : K) (N : ℕ) (x : ℕ → K) (z : K) : K :=
  (Lagrange.interpolate (range N) (fun i => ω ^ i) x).eval z

section Coefficients

variable {ω : K} {N : ℕ}

theorem pow_injOn (order : orderOf ω = N) : Set.InjOn (fun i => ω ^ i) (range N : Set ℕ) := by
  intro i iMember j jMember same
  rw [coe_range, Set.mem_Iio] at iMember jMember
  rw [← order] at iMember jMember
  exact pow_injOn_Iio_orderOf iMember jMember same

/-- The characters are orthogonal. -/
theorem sum_pow_mul_pow (order : orderOf ω = N) (nonzero : ω ≠ 0) {i j : ℕ} (iBound : i < N)
    (jBound : j < N) :
    ∑ c ∈ range N, ω⁻¹ ^ (c * i) * (ω ^ j) ^ c = if i = j then (N : K) else 0 := by
  have root : ω ^ N = 1 := by
    rw [← order]
    exact pow_orderOf_eq_one ω
  have terms : ∀ c, ω⁻¹ ^ (c * i) * (ω ^ j) ^ c = (ω⁻¹ ^ i * ω ^ j) ^ c := by
    intro c
    rw [mul_pow, ← pow_mul, ← pow_mul, Nat.mul_comm c i]
  simp only [terms]
  by_cases same : i = j
  · have unit : ω⁻¹ ^ i * ω ^ j = 1 := by
      rw [same, ← mul_pow, inv_mul_cancel₀ nonzero, one_pow]
    rw [if_pos same, unit]
    simp only [one_pow, sum_const, card_range, nsmul_eq_mul, mul_one]
  · have proper : ω⁻¹ ^ i * ω ^ j - 1 ≠ 0 := by
      intro vanishes
      apply same
      apply pow_injOn order
      · rw [coe_range, Set.mem_Iio]
        exact iBound
      · rw [coe_range, Set.mem_Iio]
        exact jBound
      · have unit := sub_eq_zero.mp vanishes
        rw [inv_pow, inv_mul_eq_one₀ (pow_ne_zero i nonzero)] at unit
        exact unit
    have closed : (ω⁻¹ ^ i * ω ^ j) ^ N = 1 := by
      rw [mul_pow, ← pow_mul, ← pow_mul, Nat.mul_comm i, Nat.mul_comm j, pow_mul, pow_mul, root,
        inv_pow, root, inv_one, one_pow, one_pow, one_mul]
    have geometric := geom_sum_mul (ω⁻¹ ^ i * ω ^ j) N
    rw [closed, sub_self] at geometric
    rw [if_neg same]
    exact (mul_eq_zero.mp geometric).resolve_right proper

/-- The extension is the polynomial with the inverse transform for coefficients. -/
theorem extension_eq (order : orderOf ω = N) (nonzero : ω ≠ 0) (size : (N : K) ≠ 0)
    (x : ℕ → K) (z : K) :
    extension ω N x z = ∑ c ∈ range N, z ^ c * coefficient ω N x c := by
  let p : K[X] := ∑ c ∈ range N, C (coefficient ω N x c) * X ^ c
  have value : ∀ y, p.eval y = ∑ c ∈ range N, y ^ c * coefficient ω N x c := by
    intro y
    rw [eval_finsetSum]
    apply sum_congr rfl
    intro c _
    rw [eval_mul, eval_C, eval_pow, eval_X, mul_comm]
  have degree : p.degree < #(range N) := by
    rw [card_range]
    apply (degree_sum_le _ _).trans_lt
    apply (Finset.sup_lt_iff (by exact WithBot.bot_lt_coe N)).mpr
    intro c member
    exact (degree_C_mul_X_pow_le c _).trans_lt (Nat.cast_lt.mpr (mem_range.mp member))
  have nodes : ∀ j ∈ range N, p.eval (ω ^ j) = x j := by
    intro j jMember
    have orthogonal : ∀ i ∈ range N, ∑ c ∈ range N, ω⁻¹ ^ (c * i) * (ω ^ j) ^ c =
        if i = j then (N : K) else 0 := fun i iMember =>
      sum_pow_mul_pow order nonzero (mem_range.mp iMember) (mem_range.mp jMember)
    calc p.eval (ω ^ j)
        = ∑ c ∈ range N, (N : K)⁻¹ * ∑ i ∈ range N, ω⁻¹ ^ (c * i) * (ω ^ j) ^ c * x i := by
          rw [value]
          apply sum_congr rfl
          intro c _
          rw [coefficient, mul_left_comm, mul_sum]
          congr 1
          apply sum_congr rfl
          intro i _
          ring
      _ = (N : K)⁻¹ * ∑ i ∈ range N, (∑ c ∈ range N, ω⁻¹ ^ (c * i) * (ω ^ j) ^ c) * x i := by
          rw [← mul_sum, sum_comm]
          congr 1
          apply sum_congr rfl
          intro i _
          rw [sum_mul]
      _ = (N : K)⁻¹ * ∑ i ∈ range N, (if i = j then (N : K) else 0) * x i := by
          congr 1
          apply sum_congr rfl
          intro i iMember
          rw [orthogonal i iMember]
      _ = x j := by
          simp only [ite_mul, zero_mul, sum_ite_eq', if_pos jMember]
          rw [← mul_assoc, inv_mul_cancel₀ size, one_mul]
  rw [extension, ← Lagrange.eq_interpolate_of_eval_eq x (pow_injOn order) degree nodes, value]

/-- A polynomial of degree below `N` has given values at given points. -/
structure Interpolates (N : ℕ) (points x : ℕ → K) (p : K[X]) : Prop where
  degree : p.degree < N
  values : ∀ i < N, p.eval (points i) = x i

theorem existsUnique_interpolates {points : ℕ → K}
    (distinct : Set.InjOn points (range N : Set ℕ)) (x : ℕ → K) :
    ∃! p, Interpolates N points x p := by
  refine ⟨Lagrange.interpolate (range N) points x, ⟨?_, ?_⟩, ?_⟩
  · have degree := Lagrange.degree_interpolate_lt x distinct
    rwa [card_range] at degree
  · intro i bound
    exact Lagrange.eval_interpolate_at_node x distinct (mem_range.mpr bound)
  · intro p interpolates
    apply Lagrange.eq_interpolate_of_eval_eq x distinct
    · rw [card_range]
      exact interpolates.degree
    · intro i member
      exact interpolates.values i (mem_range.mp member)

/-- The points of a coset are as many as those of the subgroup. -/
theorem coset_injOn (order : orderOf ω = N) {τ : K} (offset : τ ≠ 0) :
    Set.InjOn (fun i => τ * ω ^ i) (range N : Set ℕ) := by
  intro i iMember j jMember same
  exact pow_injOn order iMember jMember (mul_left_cancel₀ offset same)

/-- A polynomial through values on a coset is the extension of the values from the subgroup, at
the quotient by the offset. -/
theorem eval_eq_extension (order : orderOf ω = N) {τ : K} {x : ℕ → K} {p : K[X]}
    (interpolates : Interpolates N (fun i => τ * ω ^ i) x p) (z : K) :
    p.eval (τ * z) = extension ω N x z := by
  have degree : (p.comp (C τ * X)).degree < #(range N) := by
    rw [card_range, degree_lt_iff_coeff_zero]
    intro m outside
    rw [comp_C_mul_X_coeff,
      (degree_lt_iff_coeff_zero p N).mp interpolates.degree m outside, zero_mul]
  have eval : ∀ y, (p.comp (C τ * X)).eval y = p.eval (τ * y) := by
    intro y
    rw [eval_comp, eval_mul, eval_C, eval_X]
  have nodes : ∀ i ∈ range N, (p.comp (C τ * X)).eval (ω ^ i) = x i := by
    intro i member
    rw [eval]
    exact interpolates.values i (mem_range.mp member)
  rw [extension, ← Lagrange.eq_interpolate_of_eval_eq x (pow_injOn order) degree nodes, eval]

/-- At the points themselves the extension is the function. -/
theorem extension_node (order : orderOf ω = N) (x : ℕ → K) {i : ℕ} (bound : i < N) :
    extension ω N x (ω ^ i) = x i :=
  Lagrange.eval_interpolate_at_node x (pow_injOn order) (mem_range.mpr bound)

theorem extension_add (x y : ℕ → K) (z : K) :
    extension ω N (fun i => x i + y i) z = extension ω N x z + extension ω N y z := by
  have sum : (fun i => x i + y i) = x + y := rfl
  rw [extension, sum, map_add, eval_add, extension, extension]

theorem extension_mul (a : K) (x : ℕ → K) (z : K) :
    extension ω N (fun i => a * x i) z = a * extension ω N x z := by
  have scaled : (fun i => a * x i) = a • x := rfl
  rw [extension, scaled, map_smul, eval_smul, smul_eq_mul, extension]

end Coefficients

/-! ## Conjugation -/

section Conjugation

variable {σ : K →+* K} {ω τ : K} {N : ℕ} {x : ℕ → K}

/-- Conjugation exchanges the coefficients of opposite frequencies. -/
theorem conj_coefficient (root : ω ^ N = 1) (unit : σ ω = ω⁻¹)
    (real : ∀ i, σ (x i) = x i) {c d : ℕ} (opposite : c + d = N) :
    σ (coefficient ω N x c) = coefficient ω N x d := by
  rw [coefficient, map_mul, map_inv₀, map_natCast, map_sum, coefficient]
  congr 1
  apply sum_congr rfl
  intro i _
  have exponents : ω ^ (c * i) * ω ^ (d * i) = 1 := by
    rw [← pow_add, ← Nat.add_mul, opposite, pow_mul, root, one_pow]
  rw [map_mul, real, map_pow, map_inv₀, unit, inv_inv, inv_pow,
    eq_inv_of_mul_eq_one_left exponents]

/-- Without a mean the constant coefficient vanishes. -/
theorem coefficient_zero (mean : ∑ i ∈ range N, x i = 0) : coefficient ω N x 0 = 0 := by
  rw [coefficient]
  simp only [Nat.zero_mul, pow_zero, one_mul]
  rw [mean, mul_zero]

/-- A real function of mean zero is real on the cosets of the unit circle, after the division by
the square root of the coset's vanishing value. -/
theorem conj_extension {half : ℕ} (even : N = 2 * half) (positive : 0 < half)
    (order : orderOf ω = N) (nonzero : ω ≠ 0) (size : (N : K) ≠ 0) (unit : σ ω = ω⁻¹)
    (offset : σ τ = τ⁻¹) (offsetNonzero : τ ≠ 0) (real : ∀ i, σ (x i) = x i)
    (mean : ∑ i ∈ range N, x i = 0) (r : ℕ) :
    σ ((τ ^ half)⁻¹ * extension ω N x (τ * ω ^ r)) =
      (τ ^ half)⁻¹ * extension ω N x (τ * ω ^ r) := by
  have root : ω ^ N = 1 := by
    rw [← order]
    exact pow_orderOf_eq_one ω
  obtain ⟨M, succ⟩ : ∃ M, N = M + 1 := ⟨N - 1, by omega⟩
  obtain ⟨z, point⟩ : ∃ z, z = τ * ω ^ r := ⟨_, rfl⟩
  have zNonzero : z ≠ 0 := by
    rw [point]
    exact mul_ne_zero offsetNonzero (pow_ne_zero r nonzero)
  have zConj : σ z = z⁻¹ := by
    rw [point, map_mul, map_pow, offset, unit, mul_inv, inv_pow]
  have zPower : z ^ N = τ ^ half * τ ^ half := by
    rw [point, mul_pow, ← pow_mul, Nat.mul_comm r, pow_mul, root, one_pow, mul_one, ← pow_add,
      even, Nat.two_mul]
  have expanded : extension ω N x z =
      ∑ c ∈ range M, z ^ (c + 1) * coefficient ω N x (c + 1) := by
    rw [extension_eq order nonzero size, succ, sum_range_succ', ← succ, coefficient_zero mean,
      mul_zero, add_zero]
  have flipped : σ (extension ω N x z) =
      ∑ c ∈ range M, (z ^ (M - c))⁻¹ * coefficient ω N x (c + 1) := by
    rw [expanded, map_sum, ← sum_range_reflect]
    apply sum_congr rfl
    intro c member
    have bound := mem_range.mp member
    have place : M - 1 - c + 1 = M - c := by omega
    rw [map_mul, map_pow, zConj, place, inv_pow,
      conj_coefficient root unit real (show M - c + (c + 1) = N by omega)]
  rw [← point, map_mul, map_inv₀, map_pow, offset, inv_pow, inv_inv, flipped, expanded, mul_sum,
    mul_sum]
  apply sum_congr rfl
  intro c member
  have bound := mem_range.mp member
  have split : z ^ (M - c) * z ^ (c + 1) = τ ^ half * τ ^ half := by
    rw [← pow_add, ← zPower]
    congr 1
    omega
  have halfNonzero : τ ^ half ≠ 0 := pow_ne_zero half offsetNonzero
  have powerNonzero : z ^ (M - c) ≠ 0 := pow_ne_zero _ zNonzero
  have factors : τ ^ half * (z ^ (M - c))⁻¹ = (τ ^ half)⁻¹ * z ^ (c + 1) := by
    field_simp
    rw [split, sq]
  rw [← mul_assoc, ← mul_assoc, factors]

end Conjugation

end FourierInterpolation
