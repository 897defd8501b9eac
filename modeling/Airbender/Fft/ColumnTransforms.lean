import Airbender.Fft.BatchInverse
import Airbender.Fft.ColumnMajor
import Airbender.Fft.LdePrecomputations

/-!
# Transforms of a column in natural order

The stages are a discrete Fourier transform in bit-reversed order.  The transforms in natural order
reverse it, and scale with the powers of a coset.
-/

namespace Airbender.Fft

open PairUpdates RadixTwo

section Definitions

variable {P K V : Type} [Field P] [DecidableEq P] [Field K] [DecidableEq K] [AddCommGroup V]
  [Module K V]

/-- `distribute_powers_serial`. -/
def distributePowersSerial (elementInitial elementStep : K) : List V → List V
  | [] => []
  | el :: input =>
      elementInitial • el :: distributePowersSerial (elementInitial * elementStep) elementStep input

/-- `fft_natural_to_natural`. -/
def fftNaturalToNatural (input : List V) (cosetInitial cosetStep : K) (twiddles : List K) :
    Option (List V) := do
  let input := if cosetInitial ≠ 1 ∨ cosetStep ≠ 1 then
    distributePowersSerial cosetInitial cosetStep input else input
  let input ← cacheFriendlyNttNaturalToBitreversed input input.length.log2 twiddles
  bitreverseEnumerationInplace input

/-- Takes the powers of the coset out. -/
def removeCoset (coset : K) (input : List V) : Option (List V) :=
  if coset ≠ 1 then do
    let coset ← checkedInverse coset
    return distributePowersSerial 1 coset input
  else
    some input

/-- Divides by the length, whose inverse is taken in the prime field. -/
def divideByLength (base : P →+* K) (input : List V) : Option (List V) :=
  if 1 < input.length then do
    let nInv ← checkedInverse (input.length : P)
    return input.map fun el => base nInv • el
  else
    some input

/-- `ifft_natural_to_natural`. -/
def ifftNaturalToNatural (base : P →+* K) (input : List V) (coset : K) (twiddles : List K) :
    Option (List V) := do
  let input ← serialCtNttNaturalToBitreversed input twiddles
  let input ← bitreverseEnumerationInplace input
  let input ← removeCoset coset input
  divideByLength base input

end Definitions

/-! ## What the parts do to the places -/

section Parts

variable {P K V : Type} [Field P] [DecidableEq P] [Field K] [DecidableEq K] [AddCommGroup V]
  [Module K V] {n : ℕ} {a : List V} {memory : ℕ → V}

omit [DecidableEq K] in
theorem distributePowersSerial_holds (holds : Holds n a memory) (elementInitial elementStep : K) :
    Holds n (distributePowersSerial elementInitial elementStep a) fun i =>
      (elementInitial * elementStep ^ i) • memory i := by
  induction a generalizing n memory elementInitial with
  | nil =>
      refine ⟨holds.length, ?_⟩
      intro i bound
      have empty := holds.length
      rw [List.length_nil] at empty
      omega
  | cons el a inductionHypothesis =>
      cases n with
      | zero => exact absurd holds.length (Nat.succ_ne_zero _)
      | succ n =>
          have rest : Holds n a fun i => memory (i + 1) := by
            refine ⟨Nat.succ.inj holds.length, ?_⟩
            intro i bound
            have value := holds.values (i + 1) (by omega)
            rwa [List.getElem?_cons_succ] at value
          have tail := inductionHypothesis rest (elementInitial * elementStep)
          refine ⟨?_, ?_⟩
          · rw [distributePowersSerial, List.length_cons, tail.length]
          · intro i bound
            cases i with
            | zero =>
                have value := holds.values 0 bound
                rw [List.getElem?_cons_zero, Option.some.injEq] at value
                rw [distributePowersSerial, List.getElem?_cons_zero, value, pow_zero, mul_one]
            | succ i =>
                rw [distributePowersSerial, List.getElem?_cons_succ, tail.values i (by omega),
                  mul_assoc, ← pow_succ']

theorem bitreverseEnumerationInplace_holds {V : Type} {n : ℕ} {a : List V} {memory : ℕ → V}
    (narrow : n ≤ 31) (holds : Holds (2 ^ n) a memory) :
    ∃ result, bitreverseEnumerationInplace a = some result ∧
      Holds (2 ^ n) result fun i => memory (reversed n i) := by
  rw [holds.eq (Holds.map_range memory)]
  exact ⟨_, bitreverseEnumerationInplace_eq narrow memory, Holds.map_range _⟩

theorem removeCoset_holds (holds : Holds n a memory) {coset : K} (nonzero : coset ≠ 0) :
    ∃ result, removeCoset coset a = some result ∧
      Holds n result fun i => coset⁻¹ ^ i • memory i := by
  by_cases main : coset = 1
  · refine ⟨a, ?_, holds.congr ?_⟩
    · rw [removeCoset, if_neg (fun other => other main)]
    · intro i _
      rw [main, inv_one, one_pow, one_smul]
  · refine ⟨distributePowersSerial 1 coset⁻¹ a, ?_, ?_⟩
    · rw [removeCoset, if_pos main, checkedInverse_eq nonzero]
      rfl
    · apply (distributePowersSerial_holds holds 1 coset⁻¹).congr
      intro i _
      rw [one_mul]

omit [DecidableEq K] in
theorem divideByLength_holds (base : P →+* K) (holds : Holds n a memory) (size : (n : P) ≠ 0) :
    ∃ result, divideByLength base a = some result ∧
      Holds n result fun i => base (n : P)⁻¹ • memory i := by
  by_cases several : 1 < a.length
  · refine ⟨a.map fun el => base (n : P)⁻¹ • el, ?_, ?_, ?_⟩
    · rw [divideByLength, if_pos several, holds.length, checkedInverse_eq size]
      rfl
    · rw [List.length_map, holds.length]
    · intro i bound
      rw [List.getElem?_map, holds.values i bound, Option.map_some]
  · refine ⟨a, if_neg several, holds.congr ?_⟩
    intro i bound
    have length := holds.length
    have single : n = 1 := by omega
    rw [single, Nat.cast_one, inv_one, map_one, one_smul]

end Parts

/-! ## The discrete Fourier transform -/

section Fourier

variable {P K V : Type} [Field P] [DecidableEq P] [Field K] [DecidableEq K] [AddCommGroup V]
  [Module K V] {n : ℕ} {ω : K} {twiddles : List K}

/-- A list of twiddles for `2^n` places: the powers of a root in bit-reversed order. -/
structure IsTwiddles (n : ℕ) (ω : K) (twiddles : List K) : Prop where
  fit : TwiddlesFit n twiddles
  half : ∀ m, m + 1 = n → ω ^ 2 ^ m = -1
  values : ∀ m, m + 1 = n → ∀ p < 2 ^ m, twiddles.getD p 0 = ω ^ reversed m p

omit [DecidableEq K] in
/-- The stages with such twiddles are falling stages, also the first one. -/
theorem IsTwiddles.fallingRun (isTwiddles : IsTwiddles n ω twiddles) (memory : ℕ → V) :
    FallingRun n (fun p => twiddles.getD p 0) (nttStages twiddles n memory) := by
  intro s m size
  have power : 2 ^ (m + 1) = 2 * 2 ^ m := Nat.pow_succ'
  have update : ∀ p < 2 ^ s, ∀ (offset : ℕ) (u v : V),
      stageUpdate (fun _ => plainButterfly) twiddledButterfly twiddles s p offset u v =
        twiddledButterfly (twiddles.getD p 0) u v := by
    intro p bound offset u v
    by_cases zero : s = 0
    · have first : p = 0 := by
        rw [zero, Nat.pow_zero] at bound
        omega
      have trivial : twiddles.getD p 0 = 1 := by
        rw [first, isTwiddles.values (s + m) (by omega) 0 (Nat.two_pow_pos _), reversed_zero,
          pow_zero]
      rw [stageUpdate, if_pos zero, trivial, twiddledButterfly, one_smul, plainButterfly]
    · rw [stageUpdate, if_neg zero]
  constructor
  · intro p pBound j jBound
    rw [nttStages, fallingStages_succ _ _ size, power, stageStep_low _ p jBound,
      update p pBound]
    rfl
  · intro p pBound j jBound
    rw [nttStages, fallingStages_succ _ _ size, power, stageStep_high _ p jBound,
      update p pBound]
    rfl

omit [DecidableEq K] in
theorem IsTwiddles.nttStages_eq (isTwiddles : IsTwiddles n ω twiddles) (memory : ℕ → V) {p : ℕ}
    (bound : p < 2 ^ n) :
    nttStages twiddles n memory n p =
      ∑ q ∈ Finset.range (2 ^ n), ω ^ (reversed n p * q) • memory q :=
  falling_result isTwiddles.half isTwiddles.values (isTwiddles.fallingRun memory) bound

omit [DecidableEq K] in
theorem IsTwiddles.inverseTwiddles (isTwiddles : IsTwiddles n ω twiddles) {inverses : List K}
    (isInverses : IsTwiddles n ω⁻¹ inverses) (nonzero : ω ≠ 0) :
    InverseTwiddles n twiddles inverses := by
  intro m size p bound
  rw [isTwiddles.values m size p bound, isInverses.values m size p bound, inv_pow,
    inv_mul_cancel₀ (pow_ne_zero _ nonzero)]

omit [DecidableEq K] in
/-- Interpolation on a coset and evaluation on it. -/
theorem sum_coset_round_trip {N : ℕ} (order : orderOf ω = N) (root : ω ≠ 0) {coset : K}
    (nonzero : coset ≠ 0) {factor : K} (unit : factor * (N : K) = 1) (x : ℕ → V) {k : ℕ}
    (bound : k < N) :
    ∑ i ∈ Finset.range N, ω ^ (k * i) • coset ^ i • factor • coset⁻¹ ^ i •
      ∑ q ∈ Finset.range N, ω⁻¹ ^ (i * q) • x q = x k := by
  have terms : ∀ i, ω ^ (k * i) • coset ^ i • factor • coset⁻¹ ^ i •
      ∑ q ∈ Finset.range N, ω⁻¹ ^ (i * q) • x q =
        ∑ q ∈ Finset.range N, (factor * (ω⁻¹ ^ (i * q) * (ω ^ k) ^ i)) • x q := by
    intro i
    have cancels : coset ^ i * coset⁻¹ ^ i = 1 := by
      rw [← mul_pow, mul_inv_cancel₀ nonzero, one_pow]
    have merged : ω ^ (k * i) * coset ^ i * factor * coset⁻¹ ^ i = factor * (ω ^ k) ^ i := by
      calc ω ^ (k * i) * coset ^ i * factor * coset⁻¹ ^ i
          = factor * ω ^ (k * i) * (coset ^ i * coset⁻¹ ^ i) := by ring
        _ = factor * (ω ^ k) ^ i := by rw [cancels, mul_one, pow_mul]
    rw [smul_smul, smul_smul, smul_smul, merged, Finset.smul_sum]
    apply Finset.sum_congr rfl
    intro q _
    rw [smul_smul]
    congr 1
    ring
  simp only [terms]
  rw [Finset.sum_comm]
  have columns : ∀ q ∈ Finset.range N,
      ∑ i ∈ Finset.range N, (factor * (ω⁻¹ ^ (i * q) * (ω ^ k) ^ i)) • x q =
        if q = k then x k else 0 := by
    intro q member
    rw [← Finset.sum_smul, ← Finset.mul_sum,
      FourierInterpolation.sum_pow_mul_pow order root (Finset.mem_range.mp member) bound]
    by_cases same : q = k
    · rw [if_pos same, if_pos same, unit, one_smul, same]
    · rw [if_neg same, if_neg same, mul_zero, zero_smul]
  rw [Finset.sum_congr rfl columns, Finset.sum_ite_eq', if_pos (Finset.mem_range.mpr bound)]

theorem ifftNaturalToNatural_holds {inverses : List K} (isInverses : IsTwiddles n ω⁻¹ inverses)
    (narrow : n ≤ 31) (base : P →+* K) (size : ((2 ^ n : ℕ) : P) ≠ 0) {coset : K}
    (nonzero : coset ≠ 0) {a : List V} {memory : ℕ → V} (holds : Holds (2 ^ n) a memory) :
    ∃ result, ifftNaturalToNatural base a coset inverses = some result ∧
      Holds (2 ^ n) result fun i => base ((2 ^ n : ℕ) : P)⁻¹ • coset⁻¹ ^ i •
        ∑ q ∈ Finset.range (2 ^ n), ω⁻¹ ^ (i * q) • memory q := by
  rcases serialCtNttNaturalToBitreversed_holds isInverses.fit holds with
    ⟨transformed, computed, transformedHolds⟩
  rcases bitreverseEnumerationInplace_holds narrow transformedHolds with
    ⟨reordered, reversal, reorderedHolds⟩
  rcases removeCoset_holds reorderedHolds nonzero with ⟨removed, removal, removedHolds⟩
  rcases divideByLength_holds base removedHolds size with ⟨result, division, resultHolds⟩
  refine ⟨result, ?_, resultHolds.congr ?_⟩
  · simp only [ifftNaturalToNatural, computed, reversal, removal, division, Option.bind_eq_bind,
      Option.bind_some]
  · intro i bound
    rw [isInverses.nttStages_eq memory (reversed_lt n i), reversed_reversed bound]

theorem fftNaturalToNatural_holds (isTwiddles : IsTwiddles n ω twiddles) (narrow : n ≤ 31)
    (coset : K) {a : List V} {memory : ℕ → V} (holds : Holds (2 ^ n) a memory) :
    ∃ result, fftNaturalToNatural a 1 coset twiddles = some result ∧
      Holds (2 ^ n) result fun k =>
        ∑ i ∈ Finset.range (2 ^ n), ω ^ (k * i) • coset ^ i • memory i := by
  have distributed : Holds (2 ^ n) (if (1 : K) ≠ 1 ∨ coset ≠ 1 then
      distributePowersSerial 1 coset a else a) fun i => coset ^ i • memory i := by
    by_cases main : coset = 1
    · rw [if_neg (fun other => other.elim (absurd rfl) (absurd main))]
      apply holds.congr
      intro i _
      rw [main, one_pow, one_smul]
    · rw [if_pos (Or.inr main)]
      apply (distributePowersSerial_holds holds 1 coset).congr
      intro i _
      rw [one_mul]
  rcases cacheFriendlyNttNaturalToBitreversed_holds isTwiddles.fit distributed with
    ⟨transformed, computed, transformedHolds⟩
  rcases bitreverseEnumerationInplace_holds narrow transformedHolds with
    ⟨result, reversal, resultHolds⟩
  refine ⟨result, ?_, resultHolds.congr ?_⟩
  · rw [fftNaturalToNatural, distributed.length, Nat.log2_two_pow, computed]
    exact reversal
  · intro k bound
    rw [isTwiddles.nttStages_eq _ (reversed_lt n k), reversed_reversed bound]

/-- The transforms agree, are a Fourier transform and invert each other. -/
theorem transforms_agree_and_invert {inverses : List K} (isTwiddles : IsTwiddles n ω twiddles)
    (isInverses : IsTwiddles n ω⁻¹ inverses) (narrow : n ≤ 31) (order : orderOf ω = 2 ^ n)
    (root : ω ≠ 0) (base : P →+* K) (size : ((2 ^ n : ℕ) : P) ≠ 0) {input : List V}
    (length : input.length = 2 ^ n) :
    (∃ output, serialCtNttNaturalToBitreversed input twiddles = some output ∧
      cacheFriendlyNttNaturalToBitreversed input n twiddles = some output ∧
      output = (List.range (2 ^ n)).map (fun p =>
        ∑ q ∈ Finset.range (2 ^ n), ω ^ (reversed n p * q) • input.getD q 0) ∧
      serialCtNttBitreversedToNatural output inverses = some (input.map fun el => 2 ^ n • el)) ∧
      ∀ coset : K, coset ≠ 0 → ∃ monomials,
        ifftNaturalToNatural base input coset inverses = some monomials ∧
          fftNaturalToNatural monomials 1 coset twiddles = some input := by
  have holds := Holds.of_getD length (0 : V)
  constructor
  · rcases serialCtNttNaturalToBitreversed_holds isTwiddles.fit holds with
      ⟨output, computed, outputHolds⟩
    rcases cacheFriendlyNttNaturalToBitreversed_holds isTwiddles.fit holds with
      ⟨cached, cachedComputed, cachedHolds⟩
    rcases serialCtNttBitreversedToNatural_holds isInverses.fit
      (isTwiddles.inverseTwiddles isInverses root) outputHolds with ⟨back, backComputed, backHolds⟩
    rw [cachedHolds.eq outputHolds] at cachedComputed
    have multiple : back = input.map fun el => 2 ^ n • el := by
      apply backHolds.eq
      refine ⟨by rw [List.length_map, length], ?_⟩
      intro i bound
      rw [List.getElem?_map, holds.values i bound, Option.map_some]
    rw [multiple] at backComputed
    refine ⟨output, computed, cachedComputed, ?_, backComputed⟩
    have fourier : Holds (2 ^ n) output fun p =>
        ∑ q ∈ Finset.range (2 ^ n), ω ^ (reversed n p * q) • input.getD q 0 :=
      outputHolds.congr fun p bound => isTwiddles.nttStages_eq _ bound
    exact fourier.eq (Holds.map_range _)
  · intro coset nonzero
    rcases ifftNaturalToNatural_holds isInverses narrow base size nonzero holds with
      ⟨monomials, computed, monomialsHold⟩
    rcases fftNaturalToNatural_holds isTwiddles narrow coset monomialsHold with
      ⟨result, again, resultHolds⟩
    have unit : base ((2 ^ n : ℕ) : P)⁻¹ * ((2 ^ n : ℕ) : K) = 1 := by
      rw [← map_natCast base, ← map_mul, inv_mul_cancel₀ size, map_one]
    have values : Holds (2 ^ n) result fun i => input.getD i 0 := by
      apply resultHolds.congr
      intro k bound
      exact sum_coset_round_trip order root nonzero unit (fun i => input.getD i 0) bound
    rw [values.eq holds] at again
    exact ⟨monomials, computed, again⟩

end Fourier

/-! ## The precomputed twiddles -/

open Circuit (F)
open Mersenne31Complex

theorem isTwiddles_map {n : ℕ} {ω : Mersenne31Complex} (half : ω ^ 2 ^ n = -1) :
    IsTwiddles (n + 1) ω ((List.range (2 ^ n)).map fun i => ω ^ reversed n i) where
  fit m size := by
    rw [List.length_map, List.length_range, Nat.succ.inj size]
  half m size := by rw [Nat.succ.inj size, half]
  values m size p bound := by
    rw [Nat.succ.inj size] at bound ⊢
    rw [List.getD_eq_getElem?_getD, List.getElem?_map, List.getElem?_range bound, Option.map_some,
      Option.getD_some]

theorem precomputeTwiddlesForFft_isTwiddles {numCores n : ℕ} (cores : numCores ≠ 0)
    (narrow : n ≤ 31) {inversed : Bool} {twiddles : List Mersenne31Complex}
    (computed : precomputeTwiddlesForFft inversed numCores (2 ^ n) = some twiddles) :
    IsTwiddles n (if inversed then (domainRoot n)⁻¹ else domainRoot n) twiddles := by
  cases n with
  | zero =>
      constructor
      · intro m size
        exact absurd size m.succ_ne_zero
      · intro m size
        exact absurd size m.succ_ne_zero
      · intro m size
        exact absurd size m.succ_ne_zero
  | succ n =>
      rw [precomputeTwiddlesForFft_eq cores narrow, Option.some.injEq] at computed
      rw [← computed]
      apply isTwiddles_map
      cases inversed with
      | false => exact domainRoot_half narrow
      | true =>
          rw [if_pos rfl, inv_pow, domainRoot_half narrow, inv_neg, inv_one]

theorem natCast_two_pow_ne_zero_base (n : ℕ) : ((2 ^ n : ℕ) : F) ≠ 0 := by
  have two : (2 : F) ≠ 0 := by decide
  rw [Nat.cast_pow]
  exact pow_ne_zero n two

/-- With the precomputed twiddles of a length the column-major transforms agree, give the Fourier
transform in bit-reversed order and invert each other, for every coset. -/
theorem columnMajorTransforms_agree_and_invert {V : Type} [AddCommGroup V]
    [Module Mersenne31Complex V] {numCores n : ℕ} (cores : numCores ≠ 0)
    {forwardTwiddles inverseTwiddles : List Mersenne31Complex}
    (forward : precomputeTwiddlesForFft false numCores (2 ^ n) = some forwardTwiddles)
    (inverse : precomputeTwiddlesForFft true numCores (2 ^ n) = some inverseTwiddles)
    {input : List V} (length : input.length = 2 ^ n) :
    (∃ output, serialCtNttNaturalToBitreversed input forwardTwiddles = some output ∧
      cacheFriendlyNttNaturalToBitreversed input n forwardTwiddles = some output ∧
      output = (List.range (2 ^ n)).map (fun p =>
        ∑ q ∈ Finset.range (2 ^ n), domainRoot n ^ (reversed n p * q) • input.getD q 0) ∧
      serialCtNttBitreversedToNatural output inverseTwiddles =
        some (input.map fun el => 2 ^ n • el)) ∧
      ∀ coset : Mersenne31Complex, coset ≠ 0 → ∃ monomials,
        ifftNaturalToNatural fromBase input coset inverseTwiddles = some monomials ∧
          fftNaturalToNatural monomials 1 coset forwardTwiddles = some input := by
  have narrow := le_of_precomputeTwiddlesForFft forward
  exact transforms_agree_and_invert (precomputeTwiddlesForFft_isTwiddles cores narrow forward)
    (precomputeTwiddlesForFft_isTwiddles cores narrow inverse) narrow (orderOf_domainRoot narrow)
    (domainRoot_ne_zero n) fromBase (natCast_two_pow_ne_zero_base n) length

theorem columnMajorTransforms_agree_and_invert_four :
    ∃ forwardTwiddles inverseTwiddles, precomputeTwiddlesForFft false 2 (2 ^ 2) =
      some forwardTwiddles ∧ precomputeTwiddlesForFft true 2 (2 ^ 2) = some inverseTwiddles ∧
        (∃ output, serialCtNttNaturalToBitreversed [1, 0, 0, (1 : Mersenne31Complex)]
            forwardTwiddles = some output ∧
          cacheFriendlyNttNaturalToBitreversed [1, 0, 0, (1 : Mersenne31Complex)] 2
            forwardTwiddles = some output ∧
          output = (List.range (2 ^ 2)).map (fun p => ∑ q ∈ Finset.range (2 ^ 2),
            domainRoot 2 ^ (reversed 2 p * q) • [1, 0, 0, (1 : Mersenne31Complex)].getD q 0) ∧
          serialCtNttBitreversedToNatural output inverseTwiddles =
            some ([1, 0, 0, (1 : Mersenne31Complex)].map fun el => 2 ^ 2 • el)) ∧
        ∀ coset : Mersenne31Complex, coset ≠ 0 → ∃ monomials,
          ifftNaturalToNatural fromBase [1, 0, 0, (1 : Mersenne31Complex)] coset inverseTwiddles =
              some monomials ∧
            fftNaturalToNatural monomials 1 coset forwardTwiddles =
              some [1, 0, 0, (1 : Mersenne31Complex)] := by
  have forward := precomputeTwiddlesForFft_eq (n := 1) two_ne_zero (by decide) false
  have inverse := precomputeTwiddlesForFft_eq (n := 1) two_ne_zero (by decide) true
  refine ⟨_, _, forward, inverse, ?_⟩
  exact columnMajorTransforms_agree_and_invert two_ne_zero forward inverse rfl

end Airbender.Fft
