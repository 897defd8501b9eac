import Mathlib.GroupTheory.OrderOfElement
import Airbender.Field.Complex

/-!
# The two-adic subgroup of the complex extension

`Mersenne31Complex` has the circle group of order `2^31`; every evaluation domain is generated by
a power of its generator.
-/

namespace Airbender

/-- `is_power_of_two` of a `usize`. -/
def Usize.isPowerOfTwo (n : Nat) : Bool := n == 2 ^ n.log2

theorem Usize.isPowerOfTwo_two_pow (n : Nat) : isPowerOfTwo (2 ^ n) = true := by
  rw [isPowerOfTwo, Nat.log2_two_pow]
  exact beq_self_eq_true _

namespace Mersenne31Complex

open Circuit (F)

/-- `square_impl` of the host. -/
def square (a : Mersenne31Complex) : Mersenne31Complex :=
  let v2 := a.c0 * a.c1
  ⟨(a.c0 - a.c1) * (a.c0 + a.c1) + v2 - v2, v2 + v2⟩

theorem square_eq (a : Mersenne31Complex) : a.square = a ^ 2 := by
  rw [pow_two]
  ext
  · rw [mul_c0]
    change (a.c0 - a.c1) * (a.c0 + a.c1) + a.c0 * a.c1 - a.c0 * a.c1 = _
    ring
  · rw [mul_c1]
    change a.c0 * a.c1 + a.c0 * a.c1 = _
    ring

/-- The loop of `pow`; an exponent of `bits` bits is zero after as many rounds. -/
def powLoop (base result : Mersenne31Complex) (exp : Nat) : Nat → Mersenne31Complex
  | 0 => result
  | bits + 1 =>
      if exp = 0 then
        result
      else
        powLoop base.square (if exp % 2 = 1 then result * base else result) (exp / 2) bits

def pow (a : Mersenne31Complex) (exp : U32) : Mersenne31Complex :=
  powLoop a 1 exp.toNat 32

theorem powLoop_eq (base result : Mersenne31Complex) {exp bits : Nat} (bound : exp < 2 ^ bits) :
    powLoop base result exp bits = result * base ^ exp := by
  induction bits generalizing base result exp with
  | zero =>
      have zero : exp = 0 := Nat.lt_one_iff.mp bound
      rw [zero, pow_zero, mul_one]
      rfl
  | succ bits inductionHypothesis =>
      by_cases finished : exp = 0
      · rw [powLoop, if_pos finished, finished, pow_zero, mul_one]
      · have half : exp / 2 < 2 ^ bits := by
          rw [Nat.pow_succ] at bound
          omega
        rw [powLoop, if_neg finished, inductionHypothesis _ _ half, square_eq, ← pow_mul]
        by_cases odd : exp % 2 = 1
        · have split : exp = 2 * (exp / 2) + 1 := by omega
          rw [if_pos odd, mul_assoc, ← pow_succ', ← split]
        · have split : exp = 2 * (exp / 2) := by omega
          rw [if_neg odd, ← split]

theorem pow_eq (a : Mersenne31Complex) (exp : U32) : a.pow exp = a ^ exp.toNat := by
  rw [pow, powLoop_eq a 1 exp.isLt, one_mul]

theorem pow_ofNat (a : Mersenne31Complex) {exp : Nat} (bound : exp < 2 ^ 32) :
    a.pow (BitVec.ofNat 32 exp) = a ^ exp := by
  rw [pow_eq, BitVec.toNat_ofNat, Nat.mod_eq_of_lt bound]

/-! ## Generators of the domains -/

/-- `TWO_ADICITY`. -/
def twoAdicity : Nat := 31

/-- An element of order `p + 1`. -/
def twoAdicGenerator : Mersenne31Complex := ⟨311014874, 1584694829⟩

def twoAdicGroupOrder : Nat := 1 <<< 31

/-- Squares the element `count` times. -/
def expPowerOf2 (a : Mersenne31Complex) : Nat → Mersenne31Complex
  | 0 => a
  | count + 1 => expPowerOf2 a.square count

/-- The rounds of a loop that looks at the element and squares it. -/
def squareWhile (check : Mersenne31Complex → Bool) (a : Mersenne31Complex) :
    Nat → Option Mersenne31Complex
  | 0 => some a
  | count + 1 => do
      guard (check a)
      squareWhile check a.square count

/-- The rounds of a loop that squares the element and looks at it. -/
def squareThen (check : Mersenne31Complex → Bool) (a : Mersenne31Complex) :
    Nat → Option Mersenne31Complex
  | 0 => some a
  | count + 1 => do
      guard (check a.square)
      squareThen check a.square count

/-- `domain_generator_for_size`; a failed assertion is `none`. -/
def domainGeneratorForSize (size : Nat) : Option Mersenne31Complex := do
  guard (Usize.isPowerOfTwo size)
  guard (size.log2 ≤ twoAdicity)
  let omega := twoAdicGenerator
  guard (omega.expPowerOf2 twoAdicity = 1)
  let _ ← squareWhile (fun t => t != 1) omega (twoAdicity - 1)
  let omega ← squareThen (fun t => size == 1 || t != 1) omega (twoAdicity - size.log2)
  guard (omega.pow (BitVec.ofNat 32 size) = 1)
  some omega

theorem expPowerOf2_eq (a : Mersenne31Complex) (count : Nat) :
    a.expPowerOf2 count = a ^ 2 ^ count := by
  induction count generalizing a with
  | zero => exact (pow_one a).symm
  | succ count inductionHypothesis =>
      rw [expPowerOf2, inductionHypothesis, square_eq, ← pow_mul, Nat.pow_succ']

theorem squareWhile_eq {check : Mersenne31Complex → Bool} {a : Mersenne31Complex} {count : Nat}
    (passes : ∀ i < count, check (a ^ 2 ^ i) = true) :
    squareWhile check a count = some (a ^ 2 ^ count) := by
  induction count generalizing a with
  | zero => rw [squareWhile, Nat.pow_zero, pow_one]
  | succ count inductionHypothesis =>
      have first : check a = true := by
        have head := passes 0 count.succ_pos
        rwa [Nat.pow_zero, pow_one] at head
      have rest : ∀ i < count, check (a.square ^ 2 ^ i) = true := by
        intro i bound
        have later := passes (i + 1) (Nat.succ_lt_succ bound)
        rwa [Nat.pow_succ', pow_mul, ← square_eq] at later
      rw [squareWhile, guard, if_pos first]
      change squareWhile check a.square count = _
      rw [inductionHypothesis rest, square_eq, ← pow_mul, ← Nat.pow_succ']

theorem squareThen_eq {check : Mersenne31Complex → Bool} {a : Mersenne31Complex} {count : Nat}
    (passes : ∀ i < count, check (a ^ 2 ^ (i + 1)) = true) :
    squareThen check a count = some (a ^ 2 ^ count) := by
  induction count generalizing a with
  | zero => rw [squareThen, Nat.pow_zero, pow_one]
  | succ count inductionHypothesis =>
      have first : check a.square = true := by
        have head := passes 0 count.succ_pos
        rwa [Nat.zero_add, Nat.pow_one, ← square_eq] at head
      have rest : ∀ i < count, check (a.square ^ 2 ^ (i + 1)) = true := by
        intro i bound
        have later := passes (i + 1) (Nat.succ_lt_succ bound)
        rwa [Nat.pow_succ', pow_mul, ← square_eq] at later
      rw [squareThen, guard, if_pos first]
      change squareThen check a.square count = _
      rw [inductionHypothesis rest, square_eq, ← pow_mul, ← Nat.pow_succ']

/-- Halfway round the circle. -/
theorem twoAdicGenerator_half : twoAdicGenerator ^ 2 ^ 30 = -1 := by
  rw [← expPowerOf2_eq]
  decide +kernel

theorem orderOf_twoAdicGenerator : orderOf twoAdicGenerator = 2 ^ 31 := by
  apply orderOf_eq_prime_pow
  · rw [twoAdicGenerator_half]
    decide
  · rw [Nat.pow_succ, pow_mul, twoAdicGenerator_half]
    decide

theorem norm_twoAdicGenerator : twoAdicGenerator.norm = 1 := by decide +kernel

/-- The generator of the domain of size `2^n`. -/
def domainRoot (n : Nat) : Mersenne31Complex := twoAdicGenerator ^ 2 ^ (31 - n)

theorem orderOf_domainRoot {n : Nat} (bound : n ≤ 31) : orderOf (domainRoot n) = 2 ^ n := by
  have divides : 2 ^ (31 - n) ∣ orderOf twoAdicGenerator := by
    rw [orderOf_twoAdicGenerator]
    exact Nat.pow_dvd_pow 2 (Nat.sub_le 31 n)
  rw [domainRoot, orderOf_pow_of_dvd (Nat.two_pow_pos _).ne' divides, orderOf_twoAdicGenerator,
    Nat.pow_div (Nat.sub_le 31 n) Nat.two_pos, Nat.sub_sub_self bound]

/-- A domain is the subgroup of the larger one with every `2^l`-th element. -/
theorem domainRoot_add {n l : Nat} (bound : n + l ≤ 31) :
    domainRoot (n + l) ^ 2 ^ l = domainRoot n := by
  have exponents : 31 - (n + l) + l = 31 - n := by omega
  rw [domainRoot, ← pow_mul, ← Nat.pow_add, exponents, domainRoot]

theorem domainRoot_pow_size {n : Nat} (bound : n ≤ 31) : domainRoot n ^ 2 ^ n = 1 := by
  have order := pow_orderOf_eq_one (domainRoot n)
  rwa [orderOf_domainRoot bound] at order

theorem domainRoot_half {n : Nat} (bound : n + 1 ≤ 31) : domainRoot (n + 1) ^ 2 ^ n = -1 := by
  have exponents : 31 - (n + 1) + n = 30 := by omega
  rw [domainRoot, ← pow_mul, ← Nat.pow_add, exponents, twoAdicGenerator_half]

theorem domainRoot_ne_zero (n : Nat) : domainRoot n ≠ 0 :=
  pow_ne_zero _ (by decide)

/-- The points of the circle are inverted by conjugation. -/
theorem conj_domainRoot (n : Nat) : conj (domainRoot n) = (domainRoot n)⁻¹ := by
  have unit : twoAdicGenerator * conj twoAdicGenerator = 1 := by
    rw [mul_conj, norm_twoAdicGenerator, map_one]
  apply eq_inv_of_mul_eq_one_right
  rw [domainRoot, map_pow, ← mul_pow, unit, one_pow]

theorem domainGeneratorForSize_eq {n : Nat} (bound : n ≤ 31) :
    domainGeneratorForSize (2 ^ n) = some (domainRoot n) := by
  have small : 2 ^ n < 2 ^ 32 := Nat.pow_lt_pow_right (by decide) (by omega)
  have top : twoAdicGenerator.expPowerOf2 twoAdicity = 1 := by
    rw [expPowerOf2_eq, twoAdicity, Nat.pow_succ, pow_mul, twoAdicGenerator_half]
    decide
  have proper : ∀ i < 31, twoAdicGenerator ^ 2 ^ i ≠ 1 := by
    intro i below trivial
    have divides := orderOf_dvd_of_pow_eq_one trivial
    rw [orderOf_twoAdicGenerator] at divides
    exact absurd ((Nat.pow_dvd_pow_iff_le_right (by decide)).mp divides) (by omega)
  have walk : squareWhile (fun t => t != 1) twoAdicGenerator (twoAdicity - 1) =
      some (twoAdicGenerator ^ 2 ^ (twoAdicity - 1)) := by
    apply squareWhile_eq
    intro i below
    exact bne_iff_ne.mpr (proper i (below.trans (by decide)))
  have squares : squareThen (fun t => 2 ^ n == 1 || t != 1) twoAdicGenerator (twoAdicity - n) =
      some (domainRoot n) := by
    apply squareThen_eq
    intro i below
    by_cases trivial : n = 0
    · rw [trivial]
      rfl
    · have different : twoAdicGenerator ^ 2 ^ (i + 1) ≠ 1 := by
        apply proper
        rw [twoAdicity] at below
        omega
      rw [bne_iff_ne.mpr different, Bool.or_true]
  have powered : (domainRoot n).pow (BitVec.ofNat 32 (2 ^ n)) = 1 := by
    rw [pow_ofNat _ small, domainRoot_pow_size bound]
  have size : n ≤ twoAdicity := bound
  simp only [domainGeneratorForSize, Nat.log2_two_pow, Usize.isPowerOfTwo_two_pow, guard, if_true,
    if_pos size, if_pos top, walk, squares, if_pos powered, Option.pure_def,
    Option.bind_eq_bind, Option.bind_some]

end Mersenne31Complex

end Airbender
