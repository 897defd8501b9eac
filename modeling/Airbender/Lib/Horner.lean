import Mathlib.Algebra.BigOperators.Group.List.Basic
import Mathlib.Algebra.Ring.Defs
import Mathlib.Tactic.Ring

/-!
# Horner's rule

A list of coefficients is evaluated from its end, or from its start with stored powers.
-/

namespace Horner

universe u

variable {R : Type u} [CommRing R]

/-- Horner's rule, from the last coefficient to the first. -/
def eval (point : R) (coefficients : List R) : R :=
  coefficients.foldr (fun coefficient value => value * point + coefficient) 0

/-- The coefficients times the powers of a point, the first power being `start`. -/
def powerSum (point : R) (start : Nat) (coefficients : List R) : R :=
  ((coefficients.zipIdx start).map fun term => point ^ term.2 * term.1).sum

variable (point : R)

@[simp]
theorem eval_nil : eval point [] = 0 := rfl

@[simp]
theorem eval_cons (coefficient : R) (coefficients : List R) :
    eval point (coefficient :: coefficients) = eval point coefficients * point + coefficient := rfl

@[simp]
theorem eval_singleton (coefficient : R) : eval point [coefficient] = coefficient := by
  rw [eval_cons, eval_nil, zero_mul, zero_add]

/-- Horner's rule from a value that is already there. -/
theorem foldr_eq (coefficients : List R) (value : R) :
    coefficients.foldr (fun coefficient value => value * point + coefficient) value =
      eval point coefficients + point ^ coefficients.length * value := by
  induction coefficients with
  | nil => rw [List.foldr_nil, eval_nil, List.length_nil, pow_zero, one_mul, zero_add]
  | cons coefficient coefficients inductionHypothesis =>
      rw [List.foldr_cons, inductionHypothesis, eval_cons, List.length_cons, pow_succ]
      ring

theorem eval_append (first second : List R) :
    eval point (first ++ second) = eval point first + point ^ first.length * eval point second := by
  rw [eval, List.foldr_append, foldr_eq]
  rfl

theorem eval_map_mul (coefficients : List R) (factor : R) :
    eval point (coefficients.map fun coefficient => coefficient * factor) =
      eval point coefficients * factor := by
  induction coefficients with
  | nil => rw [List.map_nil, eval_nil, zero_mul]
  | cons coefficient coefficients inductionHypothesis =>
      rw [List.map_cons, eval_cons, eval_cons, inductionHypothesis]
      ring

theorem eval_zipWith_sub {first second : List R} (length : first.length = second.length) :
    eval point (List.zipWith (fun a b => a - b) first second) =
      eval point first - eval point second := by
  induction first generalizing second with
  | nil =>
      rw [List.length_nil] at length
      rw [List.eq_nil_of_length_eq_zero length.symm, List.zipWith_nil_left, eval_nil, sub_zero]
  | cons a first inductionHypothesis =>
      cases second with
      | nil => cases length
      | cons b second =>
          rw [List.zipWith_cons_cons, eval_cons, eval_cons, eval_cons,
            inductionHypothesis (Nat.succ.inj length)]
          ring

/-- Powers and Horner's rule agree. -/
theorem powerSum_eq (start : Nat) (coefficients : List R) :
    powerSum point start coefficients = point ^ start * eval point coefficients := by
  induction coefficients generalizing start with
  | nil => rw [powerSum, List.zipIdx_nil, List.map_nil, List.sum_nil, eval_nil, mul_zero]
  | cons coefficient coefficients inductionHypothesis =>
      have rest := inductionHypothesis (start + 1)
      rw [powerSum] at rest ⊢
      rw [List.zipIdx_cons, List.map_cons, List.sum_cons, rest, eval_cons, pow_succ]
      ring

end Horner
