import Airbender.Fft.Worker
import Airbender.Lib.RadixTwo

/-!
# Precomputed powers

The twiddles of the transforms, and the factors that take unscaled monomials to a coset.
-/

namespace Airbender.Fft

open Circuit (F)
open Mersenne31Complex

/-! ## Powers -/

/-- `count` elements, each the product of the previous one and `step`. -/
def powersFrom (current step : Mersenne31Complex) : ℕ → List Mersenne31Complex
  | 0 => []
  | count + 1 => current :: powersFrom (current * step) step count

/-- `materialize_powers_serial_starting_with_one`. -/
def materializePowersSerialStartingWithOne (base : Mersenne31Complex) (size : ℕ) :
    List Mersenne31Complex :=
  powersFrom 1 base size

/-- `materialize_powers_parallel`: every thread starts from its own power of the step. -/
def materializePowersParallel (numCores : ℕ) (firstElement step : Mersenne31Complex)
    (size : ℕ) : Option (List Mersenne31Complex) := do
  if size = 0 then
    return []
  guard (Usize.isPowerOfTwo size)
  let chunks ← workChunks numCores size
  return chunks.flatMap fun chunk =>
    powersFrom (step.pow (BitVec.ofNat 32 chunk.1) * firstElement) step chunk.2

def materializePowersParallelStartingWithOne (numCores : ℕ) (base : Mersenne31Complex)
    (size : ℕ) : Option (List Mersenne31Complex) := do
  if size = 0 then
    return []
  guard (Usize.isPowerOfTwo size)
  let chunks ← workChunks numCores size
  return chunks.flatMap fun chunk =>
    powersFrom (base.pow (BitVec.ofNat 32 chunk.1)) base chunk.2

theorem powersFrom_eq (current step : Mersenne31Complex) (count : ℕ) :
    powersFrom current step count = (List.range count).map fun i => current * step ^ i := by
  induction count generalizing current with
  | zero => rfl
  | succ count inductionHypothesis =>
      rw [powersFrom, inductionHypothesis, List.range_succ_eq_map, List.map_cons, pow_zero,
        mul_one, List.map_map]
      congr 1
      apply List.map_congr_left
      intro i _
      change current * step * step ^ i = current * step ^ (i + 1)
      rw [pow_succ', mul_assoc]

/-- The powers of one chunk. -/
theorem powersFrom_chunk (firstElement step : Mersenne31Complex) (start count : ℕ) :
    powersFrom (step ^ start * firstElement) step count =
      (List.range' start count).map fun i => firstElement * step ^ i := by
  have shifted : List.range' start count = (List.range count).map (start + ·) := by
    rw [List.range_eq_range', List.map_add_range', Nat.add_zero]
  rw [powersFrom_eq, shifted, List.map_map]
  apply List.map_congr_left
  intro i _
  change step ^ start * firstElement * step ^ i = firstElement * step ^ (start + i)
  rw [pow_add]
  ring

/-- Together the threads produce the powers in order. -/
theorem materializePowersParallel_eq {numCores n : ℕ} (cores : numCores ≠ 0)
    (firstElement step : Mersenne31Complex) (bound : n < 32) :
    materializePowersParallel numCores firstElement step (2 ^ n) =
      some ((List.range (2 ^ n)).map fun i => firstElement * step ^ i) := by
  have size : 2 ^ n < 2 ^ 32 := Nat.pow_lt_pow_right (by decide) bound
  obtain ⟨chunks, chunked, total⟩ := workChunks_eq cores (Nat.two_pow_pos n).ne'
  have power := Usize.isPowerOfTwo_two_pow n
  have values : ∀ chunk ∈ chunks,
      powersFrom (step.pow (BitVec.ofNat 32 chunk.1) * firstElement) step chunk.2 =
        (positions chunk).map fun i => firstElement * step ^ i := by
    intro chunk member
    rcases chunk_le_of_flatMap total member with inside | empty
    · rw [pow_ofNat step (by omega), powersFrom_chunk, positions]
    · rw [positions, empty]
      rfl
  simp only [materializePowersParallel, if_neg (Nat.two_pow_pos n).ne', guard_of power, chunked,
    Option.bind_eq_bind, Option.bind_some, Option.pure_def]
  rw [List.flatMap_congr values, ← total, List.map_flatMap]

theorem materializePowersParallelStartingWithOne_eq {numCores n : ℕ} (cores : numCores ≠ 0)
    (base : Mersenne31Complex) (bound : n < 32) :
    materializePowersParallelStartingWithOne numCores base (2 ^ n) =
      some ((List.range (2 ^ n)).map fun i => base ^ i) := by
  have general := materializePowersParallel_eq cores 1 base bound
  simp only [materializePowersParallel, mul_one, one_mul] at general
  exact general

theorem cores_of_materializePowersParallel {numCores n : ℕ} {firstElement step : Mersenne31Complex}
    {powers : List Mersenne31Complex}
    (computed : materializePowersParallel numCores firstElement step (2 ^ n) = some powers) :
    numCores ≠ 0 := by
  rw [materializePowersParallel, if_neg (Nat.two_pow_pos n).ne'] at computed
  rcases Option.bind_eq_some_iff.mp computed with ⟨_, _, afterPower⟩
  rcases Option.bind_eq_some_iff.mp afterPower with ⟨_, chunked, _⟩
  rw [workChunks] at chunked
  rcases Option.bind_eq_some_iff.mp chunked with ⟨_, split, _⟩
  exact cores_of_getGeometryForNumCores split

/-- `bitreverse_enumeration_inplace`, which exchanges every place with its reversal once. -/
def bitreverseEnumerationInplace {α : Type} (input : List α) : Option (List α) := do
  if input.length = 0 then
    return []
  guard (Usize.isPowerOfTwo input.length)
  guard (input.length ≤ 2 ^ 31)
  return RadixTwo.reverseInPlace input.length.log2 input

theorem bitreverseEnumerationInplace_eq {α : Type} {n : ℕ} (bound : n ≤ 31) (f : ℕ → α) :
    bitreverseEnumerationInplace ((List.range (2 ^ n)).map f) =
      some ((List.range (2 ^ n)).map fun i => f (RadixTwo.reversed n i)) := by
  have length : ((List.range (2 ^ n)).map f).length = 2 ^ n := by
    rw [List.length_map, List.length_range]
  have size : 2 ^ n ≤ 2 ^ 31 := Nat.pow_le_pow_right Nat.two_pos bound
  have power := Usize.isPowerOfTwo_two_pow n
  simp only [bitreverseEnumerationInplace, length, if_neg (Nat.two_pow_pos n).ne',
    guard_of power, guard_of size, Nat.log2_two_pow, RadixTwo.reverseInPlace_map_range,
    Option.bind_eq_bind, Option.bind_some, Option.pure_def]

/-! ## Twiddles -/

/-- `precompute_twiddles_for_fft`. -/
def precomputeTwiddlesForFft (inversed : Bool) (numCores fftSize : ℕ) :
    Option (List Mersenne31Complex) := do
  let omega ← domainGeneratorForSize fftSize
  let omega ← if inversed then omega.inverse else some omega
  let powers ← materializePowersParallelStartingWithOne numCores omega (fftSize / 2)
  bitreverseEnumerationInplace powers

/-- The twiddles that the transforms over whole rows use. -/
structure Twiddles where
  forwardTwiddlesNotBitreversed : List Mersenne31Complex
  inverseTwiddles : List Mersenne31Complex
  omega : Mersenne31Complex
  omegaInv : Mersenne31Complex
  domainSize : ℕ

/-- `Twiddles::new`. -/
def Twiddles.new (numCores domainSize : ℕ) : Option Twiddles := do
  let omega ← domainGeneratorForSize domainSize
  guard (omega.pow (BitVec.ofNat 32 domainSize) = 1)
  let omegaInv ← omega.inverse
  let forwardTwiddles ← precomputeTwiddlesForFft false numCores domainSize
  let forwardTwiddlesNotBitreversed ← bitreverseEnumerationInplace forwardTwiddles
  let inverseTwiddles ← precomputeTwiddlesForFft true numCores domainSize
  return { forwardTwiddlesNotBitreversed, inverseTwiddles, omega, omegaInv, domainSize }

theorem precomputeTwiddlesForFft_eq {numCores n : ℕ} (cores : numCores ≠ 0) (bound : n + 1 ≤ 31)
    (inversed : Bool) :
    precomputeTwiddlesForFft inversed numCores (2 ^ (n + 1)) =
      some ((List.range (2 ^ n)).map fun i =>
        (if inversed then (domainRoot (n + 1))⁻¹ else domainRoot (n + 1)) ^
          RadixTwo.reversed n i) := by
  have half : 2 ^ (n + 1) / 2 = 2 ^ n := by rw [Nat.pow_succ, Nat.mul_div_cancel _ Nat.two_pos]
  have generator := domainGeneratorForSize_eq bound
  have inverse := inverse_eq (domainRoot_ne_zero (n + 1))
  have powers := fun base => materializePowersParallelStartingWithOne_eq cores base
    (show n < 32 by omega)
  have reversal := fun f : ℕ → Mersenne31Complex =>
    bitreverseEnumerationInplace_eq (show n ≤ 31 by omega) f
  cases inversed <;>
    simp only [precomputeTwiddlesForFft, generator, inverse, half, powers, reversal, if_true,
      Bool.false_eq_true, if_false, Option.bind_eq_bind, Option.bind_some]

/-- There are generators of domains up to the two-adicity only. -/
theorem le_of_precomputeTwiddlesForFft {numCores n : ℕ} {inversed : Bool}
    {twiddles : List Mersenne31Complex}
    (computed : precomputeTwiddlesForFft inversed numCores (2 ^ n) = some twiddles) : n ≤ 31 := by
  rcases Option.bind_eq_some_iff.mp computed with ⟨omega, generator, _⟩
  rcases Option.bind_eq_some_iff.mp generator with ⟨_, _, afterPower⟩
  rcases Option.bind_eq_some_iff.mp afterPower with ⟨_, bounded, _⟩
  have small := (Option.guard_eq_some' ()).mp bounded
  rwa [Nat.log2_two_pow] at small

theorem Twiddles.new_eq {numCores n : ℕ} (cores : numCores ≠ 0) (bound : n + 1 ≤ 31) :
    Twiddles.new numCores (2 ^ (n + 1)) = some
      { forwardTwiddlesNotBitreversed := (List.range (2 ^ n)).map fun i => domainRoot (n + 1) ^ i
        inverseTwiddles := (List.range (2 ^ n)).map fun i =>
          (domainRoot (n + 1))⁻¹ ^ RadixTwo.reversed n i
        omega := domainRoot (n + 1)
        omegaInv := (domainRoot (n + 1))⁻¹
        domainSize := 2 ^ (n + 1) } := by
  have size : 2 ^ (n + 1) < 2 ^ 32 := Nat.pow_lt_pow_right (by decide) (by omega)
  have generator := domainGeneratorForSize_eq bound
  have inverse := inverse_eq (domainRoot_ne_zero (n + 1))
  have order : (domainRoot (n + 1)).pow (BitVec.ofNat 32 (2 ^ (n + 1))) = 1 := by
    rw [pow_ofNat _ size, domainRoot_pow_size bound]
  have twiddles := precomputeTwiddlesForFft_eq cores bound
  -- reversing twice gives the natural order back
  have again : bitreverseEnumerationInplace ((List.range (2 ^ n)).map fun i =>
      domainRoot (n + 1) ^ RadixTwo.reversed n i) =
      some ((List.range (2 ^ n)).map fun i => domainRoot (n + 1) ^ i) := by
    rw [bitreverseEnumerationInplace_eq (by omega) fun i =>
      domainRoot (n + 1) ^ RadixTwo.reversed n i]
    congr 1
    apply List.map_congr_left
    intro i member
    rw [RadixTwo.reversed_reversed (List.mem_range.mp member)]
  simp only [Twiddles.new, generator, guard_of order, inverse, twiddles, if_true,
    Bool.false_eq_true, if_false, again, Option.bind_eq_bind, Option.bind_some, Option.pure_def]

end Airbender.Fft
