import Airbender.Fft.Precomputes

/-!
# Factors for low-degree extension

`DomainBoundLdePrecomputations::new`: for every coset the scaling of the unscaled monomials, in
bit-reversed order.  From the main domain the factors contain `tau^(-N/2)`.
-/

namespace Airbender.Fft

open Circuit (F)
open Mersenne31Complex

structure DomainBoundLdePrecomputations where
  bitreversedPowers : List (List Mersenne31Complex)
  taus : List Mersenne31Complex
  domainSize : ℕ
  domainCosetIndex : ℕ
  ldeFactor : ℕ
  cosetOffset : Mersenne31Complex

/-- `reverse_bits` with digits of radix four. -/
def reverseDigits (result value : ℕ) : ℕ → ℕ
  | 0 => result
  | revDigits + 1 => reverseDigits (result * 4 + value % 4) (value / 4) revDigits

/-- The assertions of `bitreversed_transpose`, radix four, on a power of two of elements. -/
def bitreversedTransposeChecks (height len : ℕ) : Option Unit := do
  guard (len % height = 0)
  let width := len / height
  let widthBits := width.log2
  guard (widthBits % 2 = 0)
  guard (∀ x < 4 * (width / 4), reverseDigits 0 x (widthBits / 2) < width)

/-- What the loop over the cosets does for one of them. -/
def cosetPowers (numCores sourceDomainNaturalIndex domainSize : ℕ)
    (normalizationFactorFromSourceDomain ifftMergedScale tau : Mersenne31Complex) (idx : ℕ) :
    Option (List Mersenne31Complex) := do
  if idx = sourceDomainNaturalIndex then
    guard (tau * normalizationFactorFromSourceDomain = 1)
    return List.replicate domainSize ifftMergedScale
  if idx ≠ 0 then
    guard (tau.pow (BitVec.ofNat 32 domainSize) ≠ 1)
  -- only the main domain is scaled
  let scale ←
    if sourceDomainNaturalIndex = 0 then (tau.pow (BitVec.ofNat 32 (domainSize / 2))).inverse
    else some 1
  let step := tau * normalizationFactorFromSourceDomain
  let powers ← materializePowersParallel numCores (scale * ifftMergedScale) step domainSize
  bitreversedTransposeChecks (if domainSize.log2 % 2 = 0 then 16 else 8) powers.length
  bitreverseEnumerationInplace powers

/-- `DomainBoundLdePrecomputations::new`. -/
def DomainBoundLdePrecomputations.new (numCores sourceDomainNaturalIndex domainSize
    ldeFactor : ℕ) : Option DomainBoundLdePrecomputations := do
  guard (sourceDomainNaturalIndex < ldeFactor)
  guard (1 < ldeFactor)
  guard (Usize.isPowerOfTwo ldeFactor)
  let tauOrder := domainSize * ldeFactor
  guard (tauOrder ≤ twoAdicGroupOrder)
  let tau ← domainGeneratorForSize tauOrder
  let omega ← domainGeneratorForSize domainSize
  guard (tau.pow (BitVec.ofNat 32 tauOrder) = 1)
  guard (omega.pow (BitVec.ofNat 32 domainSize) = 1)
  guard (tau ≠ omega)
  guard (omega = tau.pow (BitVec.ofNat 32 ldeFactor))
  let cosetGenerators := materializePowersSerialStartingWithOne tau ldeFactor
  let ifftMergedScale ← (fromBase ((BitVec.ofNat 32 domainSize).toNat : F)).inverse
  let cosetOffset ← cosetGenerators[sourceDomainNaturalIndex]?
  let normalizationFactorFromSourceDomain ← cosetOffset.inverse
  let bitreversedPowers ← (List.range ldeFactor).mapM fun idx => do
    let tau ← cosetGenerators[idx]?
    cosetPowers numCores sourceDomainNaturalIndex domainSize normalizationFactorFromSourceDomain
      ifftMergedScale tau idx
  guard (bitreversedPowers.length = ldeFactor)
  return { bitreversedPowers, taus := cosetGenerators, domainSize,
           domainCosetIndex := sourceDomainNaturalIndex, ldeFactor, cosetOffset }

/-! ## The assertions -/

theorem reverseDigits_lt {result value revDigits : ℕ} :
    reverseDigits result value revDigits < (result + 1) * 4 ^ revDigits := by
  induction revDigits generalizing result value with
  | zero =>
      rw [reverseDigits]
      omega
  | succ revDigits inductionHypothesis =>
      have later : reverseDigits (result * 4 + value % 4) (value / 4) revDigits <
          (result * 4 + value % 4 + 1) * 4 ^ revDigits := inductionHypothesis
      have digits : (result * 4 + value % 4 + 1) * 4 ^ revDigits ≤
          (result + 1) * 4 * 4 ^ revDigits := Nat.mul_le_mul_right _ (by omega)
      rw [reverseDigits, Nat.pow_succ', ← Nat.mul_assoc]
      exact later.trans_le digits

/-- A width that is a power of four passes. -/
theorem bitreversedTransposeChecks_eq {height : ℕ} (m : ℕ) (positive : 0 < height) :
    bitreversedTransposeChecks height (height * 2 ^ (2 * m)) = some () := by
  have divides : height * 2 ^ (2 * m) % height = 0 := Nat.mul_mod_right _ _
  have width : height * 2 ^ (2 * m) / height = 2 ^ (2 * m) := Nat.mul_div_cancel_left _ positive
  have even : 2 * m % 2 = 0 := Nat.mul_mod_right 2 m
  have half : 2 * m / 2 = m := Nat.mul_div_cancel_left m Nat.two_pos
  have reversed : ∀ x < 4 * (2 ^ (2 * m) / 4), reverseDigits 0 x m < 2 ^ (2 * m) := by
    intro x _
    have bound : reverseDigits 0 x m < (0 + 1) * 4 ^ m := reverseDigits_lt
    have power : 2 ^ (2 * m) = 4 ^ m := Nat.pow_mul 2 2 m
    rwa [Nat.zero_add, Nat.one_mul, ← power] at bound
  simp only [bitreversedTransposeChecks, divides, width, Nat.log2_two_pow, even, half,
    guard_of reversed, guard_of, Option.bind_eq_bind, Option.bind_some]

/-- From eight elements on the transposition is possible. -/
theorem bitreversedTransposeChecks_of_le {n : ℕ} (large : 3 ≤ n) :
    bitreversedTransposeChecks (if n % 2 = 0 then 16 else 8) (2 ^ n) = some () := by
  by_cases even : n % 2 = 0
  · have exponent : n = 4 + 2 * ((n - 4) / 2) := by omega
    have size : 2 ^ n = 16 * 2 ^ (2 * ((n - 4) / 2)) := by
      have split := Nat.pow_add 2 4 (2 * ((n - 4) / 2))
      rwa [← exponent] at split
    rw [if_pos even, size]
    exact bitreversedTransposeChecks_eq _ (by decide)
  · have exponent : n = 3 + 2 * ((n - 3) / 2) := by omega
    have size : 2 ^ n = 8 * 2 ^ (2 * ((n - 3) / 2)) := by
      have split := Nat.pow_add 2 3 (2 * ((n - 3) / 2))
      rwa [← exponent] at split
    rw [if_neg even, size]
    exact bitreversedTransposeChecks_eq _ (by decide)

/-! ## The factors from the main domain -/

/-- What the output on coset `tau` is scaled by: `1/N`, and `tau^(-N/2)`. -/
def mainDomainScale (domainSize : ℕ) (tau : Mersenne31Complex) : Mersenne31Complex :=
  (tau ^ (domainSize / 2))⁻¹ * (domainSize : Mersenne31Complex)⁻¹

theorem natCast_two_pow_ne_zero {n : ℕ} : ((2 ^ n : ℕ) : Mersenne31Complex) ≠ 0 := by
  have two : (2 : Mersenne31Complex) ≠ 0 := by
    intro zero
    have real : (2 : F) = 0 := congrArg c0 zero
    exact absurd real (by decide)
  rw [Nat.cast_pow]
  exact pow_ne_zero n two

/-- Only the main domain lies on the unit circle of order `2^n`. -/
theorem domainRoot_pow_pow_ne_one {n l idx : ℕ} (bound : n + l ≤ 31) (nonzero : idx ≠ 0)
    (below : idx < 2 ^ l) : (domainRoot (n + l) ^ idx) ^ 2 ^ n ≠ 1 := by
  intro trivial
  rw [← pow_mul] at trivial
  have divides := orderOf_dvd_of_pow_eq_one trivial
  rw [orderOf_domainRoot bound, Nat.pow_add, Nat.mul_comm] at divides
  exact nonzero (Nat.eq_zero_of_dvd_of_lt
    (Nat.dvd_of_mul_dvd_mul_right (Nat.two_pow_pos n) divides) below)

/-- What the output on coset `tau` is scaled by from any domain: only the main domain has the
factor `tau^(-N/2)`. -/
def crossDomainScale (source domainSize : ℕ) (tau : Mersenne31Complex) : Mersenne31Complex :=
  if source = 0 then mainDomainScale domainSize tau else (domainSize : Mersenne31Complex)⁻¹

theorem crossDomainScale_self (source domainSize : ℕ) (root : Mersenne31Complex) :
    crossDomainScale source domainSize (root ^ source) = (domainSize : Mersenne31Complex)⁻¹ := by
  rw [crossDomainScale]
  by_cases main : source = 0
  · rw [if_pos main, main, pow_zero, mainDomainScale, one_pow, inv_one, one_mul]
  · rw [if_neg main]

/-- The powers for one coset from any domain. -/
theorem cosetPowers_eq {numCores n l source idx : ℕ} (cores : numCores ≠ 0) (large : 3 ≤ n)
    (bound : n + l ≤ 31) (below : idx < 2 ^ l) :
    cosetPowers numCores source (2 ^ n) (domainRoot (n + l) ^ source)⁻¹
        (((2 ^ n : ℕ) : Mersenne31Complex)⁻¹) (domainRoot (n + l) ^ idx) idx =
      some ((List.range (2 ^ n)).map fun i =>
        crossDomainScale source (2 ^ n) (domainRoot (n + l) ^ idx) *
          (domainRoot (n + l) ^ idx * (domainRoot (n + l) ^ source)⁻¹) ^
            RadixTwo.reversed n i) := by
  have nonzero : ∀ k, domainRoot (n + l) ^ k ≠ 0 := fun k => pow_ne_zero k (domainRoot_ne_zero _)
  by_cases same : idx = source
  · have unit : domainRoot (n + l) ^ source * (domainRoot (n + l) ^ source)⁻¹ = 1 :=
      mul_inv_cancel₀ (nonzero source)
    have constant : (List.range (2 ^ n)).map (fun i =>
        crossDomainScale source (2 ^ n) (domainRoot (n + l) ^ source) *
          (domainRoot (n + l) ^ source * (domainRoot (n + l) ^ source)⁻¹) ^
            RadixTwo.reversed n i) =
        List.replicate (2 ^ n) ((2 ^ n : ℕ) : Mersenne31Complex)⁻¹ := by
      simp only [unit, one_pow, mul_one, crossDomainScale_self]
      rw [List.map_const', List.length_range]
    rw [same, constant]
    simp only [cosetPowers, if_true, guard_of unit, Option.bind_eq_bind, Option.bind_some,
      Option.pure_def]
  have size : 2 ^ n < 2 ^ 32 := Nat.pow_lt_pow_right (by decide) (by omega)
  have passes : idx ≠ 0 →
      (domainRoot (n + l) ^ idx).pow (BitVec.ofNat 32 (2 ^ n)) ≠ 1 := by
    intro later
    rw [pow_ofNat _ size]
    exact domainRoot_pow_pow_ne_one bound later below
  have powers := materializePowersParallel_eq cores
    (crossDomainScale source (2 ^ n) (domainRoot (n + l) ^ idx))
    (domainRoot (n + l) ^ idx * (domainRoot (n + l) ^ source)⁻¹) (show n < 32 by omega)
  have reversal := bitreverseEnumerationInplace_eq (show n ≤ 31 by omega) fun i =>
    crossDomainScale source (2 ^ n) (domainRoot (n + l) ^ idx) *
      (domainRoot (n + l) ^ idx * (domainRoot (n + l) ^ source)⁻¹) ^ i
  by_cases domain : source = 0
  · have later : idx ≠ 0 := fun zero => same (zero.trans domain.symm)
    have scale : ((domainRoot (n + l) ^ idx).pow (BitVec.ofNat 32 (2 ^ n / 2))).inverse =
        some ((domainRoot (n + l) ^ idx) ^ (2 ^ n / 2))⁻¹ := by
      rw [pow_ofNat _ (by omega)]
      exact inverse_eq (pow_ne_zero _ (nonzero idx))
    have merged : ((domainRoot (n + l) ^ idx) ^ (2 ^ n / 2))⁻¹ *
        ((2 ^ n : ℕ) : Mersenne31Complex)⁻¹ =
          crossDomainScale source (2 ^ n) (domainRoot (n + l) ^ idx) := by
      rw [crossDomainScale, if_pos domain, mainDomainScale]
    simp only [cosetPowers, if_neg same, if_pos later, guard_of (passes later), if_pos domain,
      scale, merged, powers, List.length_map, List.length_range, Nat.log2_two_pow,
      bitreversedTransposeChecks_of_le large, reversal, Option.bind_eq_bind, Option.bind_some]
  · have merged : 1 * ((2 ^ n : ℕ) : Mersenne31Complex)⁻¹ =
        crossDomainScale source (2 ^ n) (domainRoot (n + l) ^ idx) := by
      rw [crossDomainScale, if_neg domain, one_mul]
    by_cases main : idx = 0
    · have first : ¬ idx ≠ 0 := not_not_intro main
      simp only [cosetPowers, if_neg same, if_neg first, if_neg domain, merged, powers,
        List.length_map, List.length_range, Nat.log2_two_pow,
        bitreversedTransposeChecks_of_le large, reversal, Option.bind_eq_bind, Option.bind_some]
    · simp only [cosetPowers, if_neg same, if_pos (show idx ≠ 0 from main),
        guard_of (passes main), if_neg domain, merged, powers, List.length_map, List.length_range,
        Nat.log2_two_pow, bitreversedTransposeChecks_of_le large, reversal, Option.bind_eq_bind,
        Option.bind_some]

/-- From any domain of at least eight points the factors exist for every coset. -/
theorem DomainBoundLdePrecomputations.new_of_source {numCores n l source : ℕ}
    (cores : numCores ≠ 0) (large : 3 ≤ n) (several : 1 ≤ l) (bound : n + l ≤ 31)
    (first : source < 2 ^ l) :
    DomainBoundLdePrecomputations.new numCores source (2 ^ n) (2 ^ l) = some
      { bitreversedPowers := (List.range (2 ^ l)).map fun j => (List.range (2 ^ n)).map fun i =>
          crossDomainScale source (2 ^ n) (domainRoot (n + l) ^ j) *
            (domainRoot (n + l) ^ j * (domainRoot (n + l) ^ source)⁻¹) ^ RadixTwo.reversed n i
        taus := (List.range (2 ^ l)).map fun j => domainRoot (n + l) ^ j
        domainSize := 2 ^ n
        domainCosetIndex := source
        ldeFactor := 2 ^ l
        cosetOffset := domainRoot (n + l) ^ source } := by
  have factor : 1 < 2 ^ l := Nat.one_lt_two_pow (by omega)
  have power := Usize.isPowerOfTwo_two_pow l
  have order : 2 ^ (n + l) ≤ twoAdicGroupOrder := Nat.pow_le_pow_right Nat.two_pos bound
  have small : ∀ m ≤ 31, 2 ^ m < 2 ^ 32 := fun m mBound =>
    Nat.pow_lt_pow_right (by decide) (by omega)
  have tau := domainGeneratorForSize_eq bound
  have omega := domainGeneratorForSize_eq (show n ≤ 31 by omega)
  have tauOrder : (domainRoot (n + l)).pow (BitVec.ofNat 32 (2 ^ (n + l))) = 1 := by
    rw [pow_ofNat _ (small _ bound), domainRoot_pow_size bound]
  have omegaOrder : (domainRoot n).pow (BitVec.ofNat 32 (2 ^ n)) = 1 := by
    rw [pow_ofNat _ (small _ (by omega)), domainRoot_pow_size (by omega)]
  have different : domainRoot (n + l) ≠ domainRoot n := by
    intro same
    have orders := congrArg orderOf same
    rw [orderOf_domainRoot bound, orderOf_domainRoot (by omega)] at orders
    have exponents := Nat.pow_right_injective (Nat.le_refl 2) orders
    omega
  have subgroup : domainRoot n = (domainRoot (n + l)).pow (BitVec.ofNat 32 (2 ^ l)) := by
    rw [pow_ofNat _ (small _ (by omega)), domainRoot_add bound]
  have generators : materializePowersSerialStartingWithOne (domainRoot (n + l)) (2 ^ l) =
      (List.range (2 ^ l)).map fun j => domainRoot (n + l) ^ j := by
    simp only [materializePowersSerialStartingWithOne, powersFrom_eq, one_mul]
  have word : (BitVec.ofNat 32 (2 ^ n)).toNat = 2 ^ n := by
    rw [BitVec.toNat_ofNat, Nat.mod_eq_of_lt (small n (by omega))]
  have scale : (fromBase ((2 ^ n : ℕ) : F)).inverse =
      some (((2 ^ n : ℕ) : Mersenne31Complex)⁻¹) := by
    rw [map_natCast]
    exact inverse_eq natCast_two_pow_ne_zero
  have element : ∀ j < 2 ^ l, ((List.range (2 ^ l)).map fun j => domainRoot (n + l) ^ j)[j]? =
      some (domainRoot (n + l) ^ j) := by
    intro j below
    rw [List.getElem?_map, List.getElem?_range below]
    rfl
  have offset := element source first
  have normalization : (domainRoot (n + l) ^ source).inverse =
      some (domainRoot (n + l) ^ source)⁻¹ :=
    inverse_eq (pow_ne_zero source (domainRoot_ne_zero _))
  have cosets : (List.range (2 ^ l)).mapM (fun idx =>
      (((List.range (2 ^ l)).map fun j => domainRoot (n + l) ^ j)[idx]?).bind fun tau =>
        cosetPowers numCores source (2 ^ n) (domainRoot (n + l) ^ source)⁻¹
          (((2 ^ n : ℕ) : Mersenne31Complex)⁻¹) tau idx) =
      some ((List.range (2 ^ l)).map fun j => (List.range (2 ^ n)).map fun i =>
        crossDomainScale source (2 ^ n) (domainRoot (n + l) ^ j) *
          (domainRoot (n + l) ^ j * (domainRoot (n + l) ^ source)⁻¹) ^
            RadixTwo.reversed n i) := by
    apply mapM_eq_some
    intro idx member
    have below := List.mem_range.mp member
    rw [element idx below, Option.bind_some, cosetPowers_eq cores large bound below]
  simp only [DomainBoundLdePrecomputations.new, guard_of first, guard_of factor, guard_of power,
    ← Nat.pow_add, guard_of order, tau, omega, guard_of tauOrder, guard_of omegaOrder,
    guard_of different, guard_of subgroup, generators, word, scale, offset, normalization, cosets,
    List.length_map, List.length_range, guard_of, Option.bind_eq_bind, Option.bind_some,
    Option.pure_def]

/-- From the main domain of at least eight points the factors exist for every coset. -/
theorem DomainBoundLdePrecomputations.new_eq {numCores n l : ℕ} (cores : numCores ≠ 0)
    (large : 3 ≤ n) (several : 1 ≤ l) (bound : n + l ≤ 31) :
    DomainBoundLdePrecomputations.new numCores 0 (2 ^ n) (2 ^ l) = some
      { bitreversedPowers := (List.range (2 ^ l)).map fun j => (List.range (2 ^ n)).map fun i =>
          mainDomainScale (2 ^ n) (domainRoot (n + l) ^ j) *
            (domainRoot (n + l) ^ j) ^ RadixTwo.reversed n i
        taus := (List.range (2 ^ l)).map fun j => domainRoot (n + l) ^ j
        domainSize := 2 ^ n
        domainCosetIndex := 0
        ldeFactor := 2 ^ l
        cosetOffset := 1 } := by
  rw [new_of_source cores large several bound (Nat.two_pow_pos l)]
  simp only [crossDomainScale, if_true, pow_zero, inv_one, mul_one]

/-! ## What the assertions leave -/

theorem cosetPowers_checks {numCores source domainSize idx : ℕ}
    {normalization ifftMergedScale tau : Mersenne31Complex} {result : List Mersenne31Complex}
    (other : idx ≠ source)
    (computed : cosetPowers numCores source domainSize normalization ifftMergedScale tau idx =
      some result) :
    ∃ start step powers, materializePowersParallel numCores start step domainSize = some powers ∧
      bitreversedTransposeChecks (if domainSize.log2 % 2 = 0 then 16 else 8) powers.length =
        some () := by
  have tail : ∀ {scale : Mersenne31Complex},
      ((materializePowersParallel numCores (scale * ifftMergedScale) (tau * normalization)
        domainSize).bind fun powers =>
          (bitreversedTransposeChecks (if domainSize.log2 % 2 = 0 then 16 else 8)
            powers.length).bind fun _ => bitreverseEnumerationInplace powers) = some result →
      ∃ start step powers, materializePowersParallel numCores start step domainSize =
        some powers ∧
          bitreversedTransposeChecks (if domainSize.log2 % 2 = 0 then 16 else 8) powers.length =
            some () := by
    intro scale ran
    rcases Option.bind_eq_some_iff.mp ran with ⟨powers, materialized, rest⟩
    rcases Option.bind_eq_some_iff.mp rest with ⟨_, checked, _⟩
    exact ⟨_, _, powers, materialized, checked⟩
  have branches : ∀ {run : Mersenne31Complex → Option (List Mersenne31Complex)},
      (if source = 0 then (tau.pow (BitVec.ofNat 32 (domainSize / 2))).inverse.bind run
        else (some 1).bind run) = some result → ∃ scale, run scale = some result := by
    intro run ran
    by_cases domain : source = 0
    · rw [if_pos domain] at ran
      rcases Option.bind_eq_some_iff.mp ran with ⟨scale, _, rest⟩
      exact ⟨scale, rest⟩
    · rw [if_neg domain] at ran
      exact ⟨1, ran⟩
  rw [cosetPowers, if_neg other] at computed
  dsimp only at computed
  by_cases main : idx ≠ 0
  · rw [if_pos main] at computed
    rcases Option.bind_eq_some_iff.mp computed with ⟨_, _, rest⟩
    rcases branches rest with ⟨_, ran⟩
    exact tail ran
  · rw [if_neg main] at computed
    rcases branches computed with ⟨_, ran⟩
    exact tail ran

/-- A transposition of fewer than eight elements is not possible. -/
theorem le_of_bitreversedTransposeChecks {n : ℕ}
    (checked : bitreversedTransposeChecks (if n % 2 = 0 then 16 else 8) (2 ^ n) = some ()) :
    3 ≤ n := by
  by_contra few
  have cases : n = 0 ∨ n = 1 ∨ n = 2 := by omega
  rcases cases with rfl | rfl | rfl
  · cases checked
  · cases checked
  · cases checked

/-- The factors exist only for at least eight points. -/
theorem DomainBoundLdePrecomputations.new_conditions {numCores n source ldeFactor : ℕ}
    {precomputations : DomainBoundLdePrecomputations}
    (computed : DomainBoundLdePrecomputations.new numCores source (2 ^ n) ldeFactor =
      some precomputations) :
    ∃ l, ldeFactor = 2 ^ l ∧ 1 ≤ l ∧ n + l ≤ 31 ∧ source < 2 ^ l ∧ 3 ≤ n ∧ numCores ≠ 0 := by
  rw [DomainBoundLdePrecomputations.new] at computed
  rcases Option.bind_eq_some_iff.mp computed with ⟨_, inside, afterInside⟩
  rcases Option.bind_eq_some_iff.mp afterInside with ⟨_, several, afterSeveral⟩
  rcases Option.bind_eq_some_iff.mp afterSeveral with ⟨_, power, afterPower⟩
  rcases Option.bind_eq_some_iff.mp afterPower with ⟨_, order, afterOrder⟩
  have sourceBelow : source < ldeFactor := (Option.guard_eq_some' ()).mp inside
  have factor : 1 < ldeFactor := (Option.guard_eq_some' ()).mp several
  have size : ldeFactor = 2 ^ ldeFactor.log2 :=
    beq_iff_eq.mp ((Option.guard_eq_some' ()).mp power)
  have fits : 2 ^ n * ldeFactor ≤ 2 ^ 31 := (Option.guard_eq_some' ()).mp order
  clear computed afterInside afterSeveral afterPower inside several power order
  rcases Option.bind_eq_some_iff.mp afterOrder with ⟨tau, _, afterTau⟩
  rcases Option.bind_eq_some_iff.mp afterTau with ⟨omega, _, afterOmega⟩
  rcases Option.bind_eq_some_iff.mp afterOmega with ⟨_, _, afterTauPower⟩
  rcases Option.bind_eq_some_iff.mp afterTauPower with ⟨_, _, afterOmegaPower⟩
  rcases Option.bind_eq_some_iff.mp afterOmegaPower with ⟨_, _, afterDifferent⟩
  rcases Option.bind_eq_some_iff.mp afterDifferent with ⟨_, _, afterSubgroup⟩
  rcases Option.bind_eq_some_iff.mp afterSubgroup with ⟨scale, _, afterScale⟩
  rcases Option.bind_eq_some_iff.mp afterScale with ⟨offset, _, afterOffset⟩
  rcases Option.bind_eq_some_iff.mp afterOffset with ⟨normalization, _, afterNormalization⟩
  rcases Option.bind_eq_some_iff.mp afterNormalization with ⟨powers, cosets, _⟩
  clear afterOrder afterTau afterOmega afterTauPower afterOmegaPower afterDifferent afterSubgroup
    afterScale afterOffset afterNormalization
  refine ⟨ldeFactor.log2, size, ?_, ?_, size ▸ sourceBelow, ?_⟩
  · by_contra none
    have zero : ldeFactor.log2 = 0 := by omega
    rw [zero] at size
    omega
  · rw [size, ← Nat.pow_add] at fits
    exact (Nat.pow_le_pow_iff_right Nat.one_lt_two).mp fits
  · -- one of the first two cosets is not the source
    have another : ∃ idx < ldeFactor, idx ≠ source := by
      by_cases main : source = 0
      · exact ⟨1, factor, by omega⟩
      · exact ⟨0, by omega, fun same => main same.symm⟩
    rcases another with ⟨idx, below, other⟩
    rcases NestedList.getElem?_of_mapM cosets (List.getElem?_range below) with ⟨result, _, each⟩
    rcases Option.bind_eq_some_iff.mp each with ⟨generator, _, ran⟩
    rcases cosetPowers_checks other ran with ⟨start, step, factors, materialized, checked⟩
    have small : n < 32 := by
      by_contra large
      have past : 2 ^ 32 ≤ 2 ^ n := Nat.pow_le_pow_right Nat.two_pos (by omega)
      have grown := Nat.le_mul_of_pos_right (2 ^ n) (show 0 < ldeFactor by omega)
      omega
    have cores := cores_of_materializePowersParallel materialized
    rw [materializePowersParallel_eq cores start step small] at materialized
    have length : factors.length = 2 ^ n := by
      rw [← Option.some.inj materialized, List.length_map, List.length_range]
    rw [length, Nat.log2_two_pow] at checked
    exact ⟨le_of_bitreversedTransposeChecks checked, cores⟩

end Airbender.Fft
