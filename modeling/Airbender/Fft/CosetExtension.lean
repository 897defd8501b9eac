import Airbender.Fft.PackedExtension
import Airbender.Fft.StageBarriers

/-!
# Low-degree extension from any coset to any other

Whenever no thread fails, the two transforms interpolate the values on one coset and evaluate the
polynomial on another.
-/

namespace Airbender.Fft

open FourierInterpolation Mersenne31Complex

/-- The extension of the trace to the target coset: every complex column holds the values of the
polynomial of degree below `N` with the values of the column on the source coset. -/
structure ExtendsColumns (trace : RowMajorTrace) (omega tauSource tauTarget factor :
    Mersenne31Complex) (extended : ℕ → Fin (trace.paddedWidth / 2) → Mersenne31Complex) :
    Prop where
  unique : ∀ pair, ∃! p, Interpolates trace.length (fun row => tauSource * omega ^ row)
    (fun row => trace.packed row pair) p
  values : ∀ pair p, Interpolates trace.length (fun row => tauSource * omega ^ row)
      (fun row => trace.packed row pair) p →
    ∀ row < trace.length, extended row pair = factor * p.eval (tauTarget * omega ^ row)

/-- The factor of an extension from coset `i` to coset `j`. -/
def extensionFactor (i j traceLen : ℕ) (tauTarget : Mersenne31Complex) : Mersenne31Complex :=
  if i = 0 ∧ j ≠ 0 then (tauTarget ^ (traceLen / 2))⁻¹ else 1

theorem outputFactor_eq {i j traceLen : ℕ} (root : Mersenne31Complex) :
    outputFactor i traceLen (root ^ j) = extensionFactor i j traceLen (root ^ j) := by
  rw [outputFactor, extensionFactor]
  by_cases main : i = 0
  · by_cases same : j = 0
    · rw [if_pos main, if_neg (fun other => other.2 same), same, pow_zero, one_pow, inv_one]
    · rw [if_pos main, if_pos ⟨main, same⟩]
  · rw [if_neg main, if_neg (fun other => main other.1)]

/-- A run of the extension leaves conditions on its inputs. -/
theorem lowDegreeExtension_runs {target : TargetArch} {N numCores i j ldeFactor : ℕ}
    {ifftSchedule fftSchedule : Schedule} {twiddles : Twiddles}
    {precomputations : DomainBoundLdePrecomputations} {trace : RowMajorTrace}
    {extended : ℕ → Fin (trace.paddedWidth / 2) → Mersenne31Complex}
    (factors : DomainBoundLdePrecomputations.new numCores i trace.length ldeFactor =
      some precomputations)
    (ran : lowDegreeExtension target N ifftSchedule fftSchedule numCores twiddles precomputations
      j trace = some extended) :
    target.cacheLineMultiple ≤ N ∧ trace.paddedWidth % target.cacheLineMultiple = 0 ∧
    ∃ n l, trace.length = 2 ^ n ∧ ldeFactor = 2 ^ l ∧ numCores ≠ 0 ∧ CoresFit numCores n ∧ 3 ≤ n ∧
      1 ≤ l ∧ n + l ≤ 31 ∧ i < 2 ^ l ∧ j < 2 ^ l := by
  rw [lowDegreeExtension] at ran
  rcases Option.bind_eq_some_iff.mp ran with ⟨monomials, inverted, afterInverse⟩
  rcases Option.bind_eq_some_iff.mp afterInverse with ⟨scales, scaled, _⟩
  have several : trace.length ≠ 1 := by
    intro single
    rw [single, ← Nat.pow_zero 2] at factors
    rcases DomainBoundLdePrecomputations.new_conditions factors with ⟨_, _, _, _, _, few, _⟩
    omega
  rcases parallelRowMajorFullLinePartialIfft_runs ifftSchedule inverted several with
    ⟨accepted, aligned, n, rows, cores, fit⟩
  rw [rows] at factors
  rcases DomainBoundLdePrecomputations.new_conditions factors with
    ⟨l, size, more, bound, source, large, _⟩
  refine ⟨accepted, aligned, n, l, rows, size, cores, fit, large, more, bound, source, ?_⟩
  rw [size, DomainBoundLdePrecomputations.new_of_source cores large more bound source] at factors
  cases factors
  have inside := (List.getElem?_eq_some_iff.mp scaled).1
  rw [List.length_map, List.length_range] at inside
  exact inside

/-- Every run of the parallel extension is interpolation on the source coset and evaluation on the
target coset, and on the same coset it changes nothing. -/
theorem lowDegreeExtension_interpolates {target : TargetArch} {N numCores i j ldeFactor : ℕ}
    (ifftSchedule fftSchedule : Schedule) {twiddles : Twiddles}
    {precomputations : DomainBoundLdePrecomputations} {trace : RowMajorTrace}
    {extended : ℕ → Fin (trace.paddedWidth / 2) → Mersenne31Complex}
    (computedTwiddles : Twiddles.new numCores trace.length = some twiddles)
    (computedFactors : DomainBoundLdePrecomputations.new numCores i trace.length ldeFactor =
      some precomputations)
    (ran : lowDegreeExtension target N ifftSchedule fftSchedule numCores twiddles precomputations
      j trace = some extended) :
    ∃ tauSource tauTarget, precomputations.taus[i]? = some tauSource ∧
      precomputations.taus[j]? = some tauTarget ∧
        ExtendsColumns trace twiddles.omega tauSource tauTarget
          (extensionFactor i j trace.length tauTarget) extended ∧
          (j = i → ∀ row < trace.length, extended row = trace.packed row) := by
  rcases lowDegreeExtension_runs computedFactors ran with
    ⟨accepted, aligned, n, l, rows, size, cores, fit, large, more, bound, source, below⟩
  rw [rows] at computedTwiddles
  rw [rows, size] at computedFactors
  rcases lowDegreeExtension_of_source ifftSchedule fftSchedule cores fit large bound source below
    accepted aligned rows more computedTwiddles computedFactors with ⟨same, sameRan, values⟩
  rw [ran] at sameRan
  cases sameRan
  have positive : n - 1 + 1 = n := by omega
  rw [← positive, Twiddles.new_eq cores (by omega), positive] at computedTwiddles
  rw [DomainBoundLdePrecomputations.new_of_source cores large more bound source]
    at computedFactors
  cases computedTwiddles
  cases computedFactors
  have order := orderOf_domainRoot (show n ≤ 31 by omega)
  have nonzero : ∀ k, domainRoot (n + l) ^ k ≠ 0 := fun k => pow_ne_zero k (domainRoot_ne_zero _)
  have element : ∀ k < 2 ^ l, ((List.range (2 ^ l)).map fun k => domainRoot (n + l) ^ k)[k]? =
      some (domainRoot (n + l) ^ k) := by
    intro k inside
    rw [List.getElem?_map, List.getElem?_range inside]
    rfl
  refine ⟨_, _, element i source, element j below, ⟨?_, ?_⟩, ?_⟩
  · intro pair
    rw [rows]
    exact existsUnique_interpolates (coset_injOn order (nonzero i)) _
  · intro pair p interpolates row inside
    rw [rows] at interpolates inside
    have point : domainRoot (n + l) ^ j * domainRoot n ^ row = domainRoot (n + l) ^ i *
        (domainRoot (n + l) ^ j * (domainRoot (n + l) ^ i)⁻¹ * domainRoot n ^ row) := by
      field_simp [nonzero i]
    rw [values row inside pair, rows, outputFactor_eq]
    dsimp only
    rw [point, eval_eq_extension order interpolates]
  · intro home row inside
    rw [rows] at inside
    funext pair
    have factor : extensionFactor i i (2 ^ n) (domainRoot (n + l) ^ i) = 1 := by
      rw [extensionFactor, if_neg]
      rintro ⟨main, other⟩
      exact other main
    rw [values row inside pair, home, outputFactor_eq, factor, mul_inv_cancel₀ (nonzero i), one_mul,
      one_mul, extension_node order _ inside]

/-- From the second coset of eight rows to the main domain, on two cores. -/
theorem lowDegreeExtension_interpolates_eight :
    ∃ twiddles precomputations extended, Twiddles.new 2 (onesTrace 8).length = some twiddles ∧
      DomainBoundLdePrecomputations.new 2 1 (onesTrace 8).length 2 = some precomputations ∧
      lowDegreeExtension .other 16 .sequential .sequential 2 twiddles precomputations 0
        (onesTrace 8) = some extended ∧
      ∃ tauSource tauTarget, precomputations.taus[1]? = some tauSource ∧
        precomputations.taus[0]? = some tauTarget ∧
          ExtendsColumns (onesTrace 8) twiddles.omega tauSource tauTarget
            (extensionFactor 1 0 (onesTrace 8).length tauTarget) extended ∧
            (0 = 1 → ∀ row < (onesTrace 8).length, extended row = (onesTrace 8).packed row) := by
  have two : 2 ≠ 0 := by decide
  have fit : CoresFit 2 3 := (coresFit_iff (by decide)).mpr (by decide)
  have twiddles := Twiddles.new_eq (n := 2) two (by decide)
  have source : 1 < 2 ^ 1 := by decide
  have factors := DomainBoundLdePrecomputations.new_of_source (n := 3) two (by decide) (by decide)
    (by decide) source
  have accepted : TargetArch.other.cacheLineMultiple ≤ 16 := by decide
  have aligned : (onesTrace 8).paddedWidth % TargetArch.other.cacheLineMultiple = 0 := rfl
  rcases lowDegreeExtension_of_source (j := 0) .sequential .sequential two fit (by decide)
    (by decide) (by decide) (by decide) accepted aligned
    (show (onesTrace 8).length = 2 ^ 3 from rfl) (by decide) twiddles factors with
    ⟨extended, ran, _⟩
  exact ⟨_, _, extended, twiddles, factors, ran,
    lowDegreeExtension_interpolates .sequential .sequential twiddles factors ran⟩

end Airbender.Fft
