import Mathlib.Algebra.BigOperators.Intervals
import Mathlib.Algebra.BigOperators.Ring.Finset
import Mathlib.Algebra.Order.BigOperators.Group.Finset
import Mathlib.Tactic.Ring

/-!
# Numbers in positional notation

A number is a sequence of digits in some base.  This module contains the carries of a long
addition, the product of two sequences of digits, and the change to a base of squared size.
-/

namespace LongArithmetic

open Finset

variable {base : Nat}

/-- The first `n` digits as a number. -/
def value (base n : Nat) (digits : Nat → Nat) : Nat :=
  ∑ i ∈ range n, digits i * base ^ i

/-! ## Digits -/

section Digits

variable {n : Nat} {digits other : Nat → Nat}

@[simp] theorem value_zero (base : Nat) (digits : Nat → Nat) : value base 0 digits = 0 := rfl

theorem value_succ (base n : Nat) (digits : Nat → Nat) :
    value base (n + 1) digits = value base n digits + digits n * base ^ n :=
  sum_range_succ _ n

theorem value_succ' (base n : Nat) (digits : Nat → Nat) :
    value base (n + 1) digits = digits 0 + base * value base n (fun i => digits (i + 1)) := by
  rw [value, sum_range_succ', value, mul_sum, Nat.pow_zero, Nat.mul_one, Nat.add_comm]
  congr 1
  apply sum_congr rfl
  intro i _
  rw [Nat.pow_succ]
  ring

theorem value_append (base n m : Nat) (digits : Nat → Nat) :
    value base (n + m) digits =
      value base n digits + base ^ n * value base m (fun i => digits (n + i)) := by
  rw [value, sum_range_add, value, value, mul_sum]
  congr 1
  apply sum_congr rfl
  intro i _
  rw [Nat.pow_add]
  ring

theorem value_eq_zero_iff (positive : 0 < base) :
    value base n digits = 0 ↔ ∀ i < n, digits i = 0 := by
  rw [value, sum_eq_zero_iff]
  constructor
  · intro zero i inRange
    exact (Nat.mul_eq_zero.mp (zero i (mem_range.mpr inRange))).resolve_right
      (Nat.pow_pos positive).ne'
  · intro zero i inRange
    rw [zero i (mem_range.mp inRange), Nat.zero_mul]

theorem value_congr (same : ∀ i < n, digits i = other i) :
    value base n digits = value base n other := by
  apply sum_congr rfl
  intro i inRange
  rw [same i (mem_range.mp inRange)]

theorem value_add (base n : Nat) (digits other : Nat → Nat) :
    value base n (fun i => digits i + other i) = value base n digits + value base n other := by
  rw [value, value, value, ← sum_add_distrib]
  apply sum_congr rfl
  intro i _
  exact Nat.add_mul _ _ _

theorem value_const_zero (base n : Nat) : value base n (fun _ => 0) = 0 := by
  apply sum_eq_zero
  intro i _
  exact Nat.zero_mul _

theorem value_lt (bound : ∀ i < n, digits i < base) :
    value base n digits < base ^ n := by
  induction n with
  | zero => exact Nat.one_pos
  | succ n hypothesis =>
      have below := hypothesis fun i inRange => bound i (Nat.lt_succ_of_lt inRange)
      have top : digits n + 1 ≤ base := bound n (Nat.lt_succ_self n)
      have power := Nat.mul_le_mul_right (base ^ n) top
      rw [value_succ, Nat.pow_succ]
      rw [Nat.add_mul] at power
      have commuted := Nat.mul_comm base (base ^ n)
      omega

/-- The digits of a number. -/
theorem value_digits (number : Nat) :
    value base n (fun i => number / base ^ i % base) = number % base ^ n := by
  induction n with
  | zero => exact (Nat.mod_one number).symm
  | succ n hypothesis =>
      rw [value_succ, hypothesis, Nat.pow_succ, Nat.mod_mul, Nat.mul_comm]

/-- A digit is read off the value of any longer prefix. -/
theorem value_div_mod (positive : 0 < base) (bound : ∀ i < n, digits i < base) {i : Nat}
    (inRange : i < n) : value base n digits / base ^ i % base = digits i := by
  induction n with
  | zero => exact absurd inRange (Nat.not_lt_zero i)
  | succ n hypothesis =>
      have bounds : ∀ j < n, digits j < base := fun j inside => bound j (Nat.lt_succ_of_lt inside)
      have powers := Nat.pow_pos (n := i) positive
      rw [value_succ]
      rcases Nat.lt_succ_iff_lt_or_eq.mp inRange with inside | rfl
      · have split : base ^ n = base ^ i * (base * base ^ (n - i - 1)) := by
          rw [← Nat.pow_succ', ← Nat.pow_add]
          congr 1
          omega
        rw [split, Nat.mul_left_comm, Nat.add_mul_div_left _ _ powers, Nat.mul_left_comm,
          Nat.add_mul_mod_self_left, hypothesis bounds inside]
      · rw [Nat.add_mul_div_right _ _ powers, Nat.div_eq_of_lt (value_lt bounds),
          Nat.zero_add, Nat.mod_eq_of_lt (bound i (Nat.lt_succ_self i))]

theorem digits_eq_of_value_eq (positive : 0 < base) (bound : ∀ i < n, digits i < base)
    (otherBound : ∀ i < n, other i < base)
    (equal : value base n digits = value base n other) {i : Nat} (inRange : i < n) :
    digits i = other i := by
  rw [← value_div_mod positive bound inRange, equal, value_div_mod positive otherBound inRange]

/-- Two digits make one digit of the squared base. -/
theorem value_pairs (base n : Nat) (digits : Nat → Nat) :
    value (base ^ 2) n (fun i => digits (2 * i) + base * digits (2 * i + 1)) =
      value base (2 * n) digits := by
  induction n with
  | zero => rfl
  | succ n hypothesis =>
      rw [Nat.mul_succ, value_succ, value_succ, value_succ, hypothesis, ← Nat.pow_mul,
        Nat.pow_succ]
      ring

end Digits

/-! ## Carries -/

section Carries

variable {n : Nat} {terms words carries : Nat → Nat}

/-- What the digits below a position carry into it. -/
def carry (base carryIn : Nat) (terms : Nat → Nat) (i : Nat) : Nat :=
  (value base i terms + carryIn) / base ^ i

@[simp] theorem carry_zero (base carryIn : Nat) (terms : Nat → Nat) :
    carry base carryIn terms 0 = carryIn := by
  rw [carry, value_zero, Nat.zero_add, Nat.pow_zero, Nat.div_one]

theorem carry_succ (positive : 0 < base) (carryIn : Nat) (terms : Nat → Nat) (i : Nat) :
    carry base carryIn terms (i + 1) = (terms i + carry base carryIn terms i) / base := by
  have powers := Nat.pow_pos (n := i) positive
  rw [carry, carry, value_succ, Nat.pow_succ, ← Nat.div_div_eq_div_mul, Nat.add_right_comm,
    Nat.add_mul_div_right _ _ powers, Nat.add_comm]

/-- `terms i + carries i` is the digit of the sum and the next carry. -/
def Chain (base n : Nat) (terms words carries : Nat → Nat) : Prop :=
  ∀ i < n, terms i + carries i = words i + base * carries (i + 1)

/-- A chain of carries adds up the numbers. -/
theorem Chain.value_eq (chain : Chain base n terms words carries) :
    value base n terms + carries 0 = value base n words + base ^ n * carries n := by
  induction n with
  | zero => simp
  | succ n hypothesis =>
      have below := hypothesis fun i inRange => chain i (Nat.lt_succ_of_lt inRange)
      have top := chain n (Nat.lt_succ_self n)
      have scaled := congrArg (· * base ^ n) top
      simp only [Nat.add_mul] at scaled
      rw [value_succ, value_succ, Nat.pow_succ]
      calc value base n terms + terms n * base ^ n + carries 0
          = value base n terms + carries 0 + terms n * base ^ n := by ring
        _ = value base n words + base ^ n * carries n + terms n * base ^ n := by rw [below]
        _ = value base n words + (terms n * base ^ n + carries n * base ^ n) := by ring
        _ = value base n words + words n * base ^ n + base ^ n * base * carries (n + 1) := by
            rw [scaled]
            ring

/-- The honest carries: every word is what remains of the terms and the carry. -/
theorem chain_carry (positive : 0 < base) (carryIn : Nat) (terms : Nat → Nat) (n : Nat) :
    Chain base n terms (fun i => (terms i + carry base carryIn terms i) % base)
      (carry base carryIn terms) := by
  intro i _
  rw [carry_succ positive]
  exact (Nat.mod_add_div _ _).symm

/-- Words that satisfy the sum are the words of the honest chain. -/
theorem chain_of_value_eq (positive : 0 < base) {carryIn carryOut : Nat}
    (bound : ∀ i < n, words i < base)
    (equal : value base n terms + carryIn = value base n words + base ^ n * carryOut) :
    Chain base n terms words (carry base carryIn terms) ∧
      carry base carryIn terms n = carryOut := by
  have honest := chain_carry positive carryIn terms n
  have total := honest.value_eq
  have honestBound : ∀ i < n, (terms i + carry base carryIn terms i) % base < base :=
    fun i _ => Nat.mod_lt _ positive
  have below := value_lt bound
  have honestBelow := value_lt honestBound
  have powers := Nat.pow_pos (n := n) positive
  rw [carry_zero, equal] at total
  have carries := congrArg (· / base ^ n) total
  simp only [Nat.add_mul_div_left _ _ powers, Nat.div_eq_of_lt below,
    Nat.div_eq_of_lt honestBelow, Nat.zero_add] at carries
  rw [carries] at total
  refine ⟨?_, carries.symm⟩
  intro i inRange
  have word := digits_eq_of_value_eq positive bound honestBound (Nat.add_right_cancel total) inRange
  rw [word]
  exact honest i inRange

/-- The carries of the sum of two numbers are at most one. -/
theorem carry_le_one (positive : 0 < base) {carryIn : Nat} (carryInBound : carryIn ≤ 1)
    (bound : ∀ i < n, terms i ≤ 2 * (base - 1)) {i : Nat} (inRange : i ≤ n) :
    carry base carryIn terms i ≤ 1 := by
  induction i with
  | zero =>
      rw [carry_zero]
      exact carryInBound
  | succ i hypothesis =>
      have below := hypothesis (Nat.le_of_succ_le inRange)
      have term := bound i inRange
      rw [carry_succ positive, ← Nat.lt_succ_iff, Nat.div_lt_iff_lt_mul positive]
      omega

end Carries

/-! ## Products -/

section Products

/-- The sum of the products of digits whose positions add up to `k`. -/
def convolution (n : Nat) (x y : Nat → Nat) (k : Nat) : Nat :=
  ∑ i ∈ range n, ∑ j ∈ range n, if i + j = k then x i * y j else 0

/-- The convolution of the digits is the product of the numbers. -/
theorem value_convolution (base n : Nat) (x y : Nat → Nat) :
    value base (2 * n) (convolution n x y) = value base n x * value base n y := by
  have column (i j : Nat) (iBound : i < n) (jBound : j < n) :
      ∑ k ∈ range (2 * n), (if i + j = k then x i * y j else 0) * base ^ k =
        x i * base ^ i * (y j * base ^ j) := by
    rw [sum_eq_single (i + j)]
    · rw [if_pos rfl, Nat.pow_add]
      ring
    · intro k _ different
      rw [if_neg (Ne.symm different), Nat.zero_mul]
    · intro outside
      exact absurd (mem_range.mpr (by omega)) outside
  calc value base (2 * n) (convolution n x y)
      = ∑ k ∈ range (2 * n), ∑ i ∈ range n, ∑ j ∈ range n,
          (if i + j = k then x i * y j else 0) * base ^ k := by
        apply sum_congr rfl
        intro k _
        rw [convolution, sum_mul]
        apply sum_congr rfl
        intro i _
        exact sum_mul _ _ _
    _ = ∑ i ∈ range n, ∑ j ∈ range n, ∑ k ∈ range (2 * n),
          (if i + j = k then x i * y j else 0) * base ^ k := by
        rw [sum_comm]
        apply sum_congr rfl
        intro i _
        exact sum_comm
    _ = ∑ i ∈ range n, ∑ j ∈ range n, x i * base ^ i * (y j * base ^ j) := by
        apply sum_congr rfl
        intro i iRange
        apply sum_congr rfl
        intro j jRange
        exact column i j (mem_range.mp iRange) (mem_range.mp jRange)
    _ = value base n x * value base n y := (sum_mul_sum _ _ _ _).symm

end Products

end LongArithmetic
