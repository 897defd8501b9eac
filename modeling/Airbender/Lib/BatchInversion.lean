import Mathlib.Algebra.BigOperators.Group.List.Basic
import Mathlib.Algebra.GroupWithZero.Units.Basic
import Mathlib.Data.List.SplitLengths

/-!
# Inverting many elements at the cost of one inversion

The products of the elements before each element are kept in a buffer.  The inverse of the whole
product is then taken apart from the last element to the first.
-/

namespace BatchInversion

universe u

variable {F : Type u}

/-! ## The two passes -/

section Passes

variable [Mul F]

/-- The pass that fills a new buffer: the product so far is kept before each element is
multiplied in. -/
def products (accumulator : F) : List F → F × List F
  | [] => (accumulator, [])
  | el :: els =>
      let (total, rest) := products (accumulator * el) els
      (total, accumulator :: rest)

/-- The same pass over the places of an old buffer, as long as there are elements and places. -/
def accumulate (accumulator : F) : List F → List F → F × List F
  | el :: els, _ :: outs =>
      let (total, rest) := accumulate (accumulator * el) els outs
      (total, accumulator :: rest)
  | [], outs => (accumulator, outs)
  | _ :: _, [] => (accumulator, [])

/-- The pass back, over the buffer and the elements from their ends. -/
def unwind (grandInverse : F) : List F → List F → List F
  | tmp :: tmps, original :: originals =>
      tmp * grandInverse :: unwind (grandInverse * original) tmps originals
  | [], originals => originals
  | _ :: _, [] => []

end Passes

theorem length_products [Mul F] (accumulator : F) (els : List F) :
    (products accumulator els).2.length = els.length := by
  induction els generalizing accumulator with
  | nil => rfl
  | cons el els inductionHypothesis =>
      rw [products, List.length_cons, inductionHypothesis, List.length_cons]

/-- Nothing of the old contents is left in a buffer of the right length. -/
theorem accumulate_eq_products [Mul F] {els outs : List F}
    (sameLength : outs.length = els.length) (accumulator : F) :
    accumulate accumulator els outs = products accumulator els := by
  induction els generalizing outs accumulator with
  | nil =>
      rw [List.length_eq_zero_iff.mp sameLength]
      rfl
  | cons el els inductionHypothesis =>
      cases outs with
      | nil => exact absurd sameLength.symm (Nat.succ_ne_zero els.length)
      | cons out outs =>
          rw [accumulate, inductionHypothesis (Nat.succ.inj sameLength), products]

section Inverses

variable [CommGroupWithZero F]

theorem products_ne_zero {els : List F} (nonzero : ∀ el ∈ els, el ≠ 0) {accumulator : F}
    (start : accumulator ≠ 0) : (products accumulator els).1 ≠ 0 := by
  induction els generalizing accumulator with
  | nil => exact start
  | cons el els inductionHypothesis =>
      rcases List.forall_mem_cons.mp nonzero with ⟨here, later⟩
      exact inductionHypothesis later (mul_ne_zero start here)

/-- The pass back over what the first pass wrote leaves the inverses, and the inverse of the
accumulator for the elements in front. -/
theorem unwind_products {els : List F} (nonzero : ∀ el ∈ els, el ≠ 0) {accumulator : F}
    (start : accumulator ≠ 0) (tmps originals : List F) :
    unwind (products accumulator els).1⁻¹ ((products accumulator els).2.reverse ++ tmps)
        (els.reverse ++ originals) =
      (els.map (·⁻¹)).reverse ++ unwind accumulator⁻¹ tmps originals := by
  induction els generalizing accumulator tmps originals with
  | nil => rfl
  | cons el els inductionHypothesis =>
      rcases List.forall_mem_cons.mp nonzero with ⟨here, later⟩
      have rest := inductionHypothesis later (mul_ne_zero start here) (accumulator :: tmps)
        (el :: originals)
      have inverse : accumulator * (accumulator * el)⁻¹ = el⁻¹ := by
        rw [mul_inv, mul_inv_cancel_left₀ start]
      have remaining : (accumulator * el)⁻¹ * el = accumulator⁻¹ := by
        rw [mul_inv, inv_mul_cancel_right₀ here]
      rw [unwind, inverse, remaining] at rest
      rw [products, List.reverse_cons, List.reverse_cons, List.map_cons, List.reverse_cons,
        List.append_assoc, List.append_assoc, List.append_assoc]
      exact rest

/-- Both passes from the first element on. -/
theorem unwind_reverse {first : F} {els : List F} (nonzero : ∀ el ∈ first :: els, el ≠ 0) :
    (unwind (products first els).1⁻¹ (1 :: (products first els).2).reverse
      (first :: els).reverse).reverse = (first :: els).map (·⁻¹) := by
  rcases List.forall_mem_cons.mp nonzero with ⟨here, later⟩
  have passes := unwind_products later here [1] [first]
  have head : unwind first⁻¹ [1] [first] = [first⁻¹] := by rw [unwind, one_mul, unwind]
  rw [head] at passes
  rw [List.reverse_cons, List.reverse_cons, passes, List.reverse_append, List.reverse_reverse,
    List.map_cons]
  rfl

end Inverses

/-! ## Slices of one list -/

/-- Elements that were taken from slices go back to them. -/
theorem splitLengths_flatten {α : Type u} (slices : List (List α)) :
    (slices.map List.length).splitLengths slices.flatten = slices := by
  induction slices with
  | nil => rfl
  | cons slice slices inductionHypothesis =>
      rw [List.map_cons, List.flatten_cons, List.splitLengths_cons, List.take_left,
        List.drop_left, inductionHypothesis]

theorem splitLengths_map_flatten {α : Type u} (f : α → α) (slices : List (List α)) :
    (slices.map List.length).splitLengths (slices.flatten.map f) = slices.map (List.map f) := by
  have lengths : slices.map List.length = (slices.map (List.map f)).map List.length := by
    rw [List.map_map]
    apply List.map_congr_left
    intro slice _
    exact (List.length_map f).symm
  rw [List.map_flatten, lengths, splitLengths_flatten]

end BatchInversion
