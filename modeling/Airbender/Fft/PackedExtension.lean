import Airbender.Fft.AdjustToZero
import Airbender.Fft.LdePrecomputations
import Airbender.Fft.RowMajor
import Airbender.Lib.FourierInterpolation

/-!
# Two base-field columns in one complex column

The transforms work on pairs of base-field columns as on one complex column.  For columns that sum
to zero the extension to a coset does not mix the two: all points have norm one, the constant
coefficients vanish, and the factors contain `tau^(-N/2)`.
-/

namespace Airbender.Fft

open Circuit (F)
open FourierInterpolation Mersenne31Complex

/-- The rows of a trace, each pair of adjacent columns read as one complex column. -/
def RowMajorTrace.packed (trace : RowMajorTrace) (row : ℕ) :
    Fin (trace.paddedWidth / 2) → Mersenne31Complex :=
  fun pair => ⟨(trace.el row (2 * pair)).value, (trace.el row (2 * pair + 1)).value⟩

/-- The extension of all columns from the main domain to a coset: to unscaled monomials in
bit-reversed order, and from there to the values on the coset. -/
def lowDegreeExtension (target : TargetArch) (N : ℕ) (ifftSchedule fftSchedule : Schedule)
    (numCores : ℕ) (twiddles : Twiddles) (precomputations : DomainBoundLdePrecomputations)
    (cosetIdx : ℕ) (trace : RowMajorTrace) :
    Option (ℕ → Fin (trace.paddedWidth / 2) → Mersenne31Complex) := do
  let monomials ← parallelRowMajorFullLinePartialIfft target ifftSchedule N trace.paddedWidth
    numCores trace.length twiddles.inverseTwiddles trace.packed
  let scales ← precomputations.bitreversedPowers[cosetIdx]?
  parallelRowMajorFullLineFftDit target fftSchedule N trace.paddedWidth numCores trace.length
    twiddles.forwardTwiddlesNotBitreversed scales monomials

/-! ## What the transforms compute -/

/-- The two transforms one after the other extend a function from the subgroup. -/
theorem transforms_eq_extension {n : ℕ} (bound : n ≤ 31) (factor step : Mersenne31Complex)
    (x : ℕ → Mersenne31Complex) (r : ℕ) :
    ∑ q ∈ Finset.range (2 ^ n), domainRoot n ^ (r * RadixTwo.reversed n q) *
        (factor * ((2 ^ n : ℕ) : Mersenne31Complex)⁻¹ * step ^ RadixTwo.reversed n q *
          ∑ i ∈ Finset.range (2 ^ n), (domainRoot n)⁻¹ ^ (RadixTwo.reversed n q * i) * x i) =
      factor * extension (domainRoot n) (2 ^ n) x (step * domainRoot n ^ r) := by
  have natural := RadixTwo.sum_reversed n fun c => domainRoot n ^ (r * c) *
    (factor * ((2 ^ n : ℕ) : Mersenne31Complex)⁻¹ * step ^ c *
      ∑ i ∈ Finset.range (2 ^ n), (domainRoot n)⁻¹ ^ (c * i) * x i)
  rw [natural, extension_eq (orderOf_domainRoot bound) (domainRoot_ne_zero n)
    natCast_two_pow_ne_zero, Finset.mul_sum]
  apply Finset.sum_congr rfl
  intro c _
  rw [coefficient, mul_pow, ← pow_mul]
  ring

/-- What the values on a coset are multiplied by. -/
def outputFactor (source domainSize : ℕ) (tau : Mersenne31Complex) : Mersenne31Complex :=
  if source = 0 then (tau ^ (domainSize / 2))⁻¹ else 1

theorem crossDomainScale_eq (source domainSize : ℕ) (tau : Mersenne31Complex) :
    crossDomainScale source domainSize tau =
      outputFactor source domainSize tau * (domainSize : Mersenne31Complex)⁻¹ := by
  rw [crossDomainScale, outputFactor, mainDomainScale]
  split
  · rfl
  · rw [one_mul]

/-- On a trace of `2^n` rows, `n ≥ 3`, the extension from one coset to another succeeds, and it is
the interpolant of every complex column on the quotient of the cosets. -/
theorem lowDegreeExtension_of_source {target : TargetArch} {N numCores n l i j : ℕ}
    (ifftSchedule fftSchedule : Schedule) (cores : numCores ≠ 0) (fit : CoresFit numCores n)
    (large : 3 ≤ n) (bound : n + l ≤ 31) (source : i < 2 ^ l) (below : j < 2 ^ l)
    {twiddles : Twiddles} {precomputations : DomainBoundLdePrecomputations} {trace : RowMajorTrace}
    (accepted : target.cacheLineMultiple ≤ N)
    (aligned : trace.paddedWidth % target.cacheLineMultiple = 0)
    (rows : trace.length = 2 ^ n) (several : 1 ≤ l)
    (computedTwiddles : Twiddles.new numCores (2 ^ n) = some twiddles)
    (computedFactors :
      DomainBoundLdePrecomputations.new numCores i (2 ^ n) (2 ^ l) = some precomputations) :
    ∃ extended, lowDegreeExtension target N ifftSchedule fftSchedule numCores twiddles
        precomputations j trace = some extended ∧
      ∀ m < 2 ^ n, ∀ pair, extended m pair =
        outputFactor i (2 ^ n) (domainRoot (n + l) ^ j) * extension (domainRoot n) (2 ^ n)
          (fun row => trace.packed row pair)
          (domainRoot (n + l) ^ j * (domainRoot (n + l) ^ i)⁻¹ * domainRoot n ^ m) := by
  obtain ⟨k, succ⟩ : ∃ k, n = k + 1 := ⟨n - 1, by omega⟩
  have half : domainRoot n ^ 2 ^ k = -1 := by
    rw [succ]
    exact domainRoot_half (by omega)
  have inverseHalf : (domainRoot n)⁻¹ ^ 2 ^ k = -1 := by
    rw [inv_pow, half, inv_neg, inv_one]
  rw [succ, Twiddles.new_eq cores (by omega), ← succ] at computedTwiddles
  rw [DomainBoundLdePrecomputations.new_of_source cores large several bound source]
    at computedFactors
  obtain rfl := Option.some.inj computedTwiddles
  obtain rfl := Option.some.inj computedFactors
  have scales : ((List.range (2 ^ l)).map fun j => (List.range (2 ^ n)).map fun row =>
      crossDomainScale i (2 ^ n) (domainRoot (n + l) ^ j) *
        (domainRoot (n + l) ^ j * (domainRoot (n + l) ^ i)⁻¹) ^ RadixTwo.reversed n row)[j]? =
      some ((List.range (2 ^ n)).map fun row =>
        crossDomainScale i (2 ^ n) (domainRoot (n + l) ^ j) *
          (domainRoot (n + l) ^ j * (domainRoot (n + l) ^ i)⁻¹) ^ RadixTwo.reversed n row) := by
    rw [List.getElem?_map, List.getElem?_range below]
    rfl
  obtain ⟨monomials, inverted, coefficients⟩ := parallelRowMajorFullLinePartialIfft_eq
    ifftSchedule accepted aligned cores (succ ▸ fit) inverseHalf trace.packed
  obtain ⟨extended, transformed, values⟩ := parallelRowMajorFullLineFftDit_eq
    fftSchedule accepted aligned cores (succ ▸ fit) half
    (fun row => crossDomainScale i (2 ^ n) (domainRoot (n + l) ^ j) *
      (domainRoot (n + l) ^ j * (domainRoot (n + l) ^ i)⁻¹) ^ RadixTwo.reversed n row) monomials
  rw [← succ] at inverted coefficients transformed values
  refine ⟨extended, ?_, ?_⟩
  · simp only [lowDegreeExtension, rows, inverted, scales, transformed, Option.bind_eq_bind,
      Option.bind_some]
  · intro m mBound pair
    rw [values m mBound, ← transforms_eq_extension (by omega), ← crossDomainScale_eq,
      Finset.sum_apply]
    apply Finset.sum_congr rfl
    intro q member
    rw [coefficients q (Finset.mem_range.mp member)]
    simp only [Pi.smul_apply, Finset.sum_apply, smul_eq_mul]

/-- From the main domain the interpolant is scaled by `tau^(-N/2)`. -/
theorem lowDegreeExtension_eq {target : TargetArch} {N numCores n l j : ℕ}
    (ifftSchedule fftSchedule : Schedule) (cores : numCores ≠ 0) (fit : CoresFit numCores n)
    (large : 3 ≤ n) (bound : n + l ≤ 31) (below : j < 2 ^ l) {twiddles : Twiddles}
    {precomputations : DomainBoundLdePrecomputations} {trace : RowMajorTrace}
    (accepted : target.cacheLineMultiple ≤ N)
    (aligned : trace.paddedWidth % target.cacheLineMultiple = 0)
    (rows : trace.length = 2 ^ n) (several : 1 ≤ l)
    (computedTwiddles : Twiddles.new numCores (2 ^ n) = some twiddles)
    (computedFactors :
      DomainBoundLdePrecomputations.new numCores 0 (2 ^ n) (2 ^ l) = some precomputations) :
    ∃ extended, lowDegreeExtension target N ifftSchedule fftSchedule numCores twiddles
        precomputations j trace = some extended ∧
      ∀ m < 2 ^ n, ∀ pair, extended m pair =
        ((domainRoot (n + l) ^ j) ^ (2 ^ n / 2))⁻¹ * extension (domainRoot n) (2 ^ n)
          (fun row => trace.packed row pair) (domainRoot (n + l) ^ j * domainRoot n ^ m) := by
  have general := lowDegreeExtension_of_source ifftSchedule fftSchedule cores fit large bound
    (Nat.two_pow_pos l) below accepted aligned rows several computedTwiddles computedFactors
  simp only [outputFactor, if_true, pow_zero, inv_one, mul_one] at general
  exact general

/-! ## Real columns -/

/-- A column sums to zero. -/
def RowMajorTrace.ZeroSum (trace : RowMajorTrace) (column : ℕ) : Prop :=
  residueSum trace column (List.range trace.length) = 0

/-- The extension of one base-field column alone, scaled by `tau^(-N/2)`, at a point of the coset:
the polynomial of degree below `N` through the values of the column. -/
noncomputable def RowMajorTrace.columnExtension (trace : RowMajorTrace) (tau : Mersenne31Complex)
    (column m : ℕ) : Mersenne31Complex :=
  (tau ^ (trace.length / 2))⁻¹ *
    extension (domainRoot trace.length.log2) trace.length
      (fun row => fromBase (trace.el row column).value)
      (tau * domainRoot trace.length.log2 ^ m)

/-- The extension of a column that sums to zero is real. -/
theorem columnExtension_real {n l j : ℕ} {trace : RowMajorTrace} (rows : trace.length = 2 ^ n)
    (large : 1 ≤ n) (bound : n + l ≤ 31) {column : ℕ} (zeroSum : trace.ZeroSum column) (m : ℕ) :
    ∃ base : F, trace.columnExtension (domainRoot (n + l) ^ j) column m = fromBase base := by
  have even : 2 ^ n = 2 * (2 ^ n / 2) := by
    obtain ⟨k, rfl⟩ : ∃ k, n = k + 1 := ⟨n - 1, by omega⟩
    rw [Nat.pow_succ', Nat.mul_div_cancel_left _ Nat.two_pos]
  have positive : 0 < 2 ^ n / 2 := by
    have power := Nat.two_pow_pos n
    omega
  have offset : conj (domainRoot (n + l) ^ j) = (domainRoot (n + l) ^ j)⁻¹ := by
    rw [map_pow, conj_domainRoot, inv_pow]
  have mean : ∑ row ∈ Finset.range (2 ^ n), fromBase (trace.el row column).value = 0 := by
    have sum : ∑ row ∈ Finset.range (2 ^ n), (trace.el row column).value = 0 := by
      rw [← rows]
      exact zeroSum
    rw [← map_sum, sum, map_zero]
  refine ⟨_, eq_fromBase_of_conj_eq ?_⟩
  rw [RowMajorTrace.columnExtension, rows, Nat.log2_two_pow]
  exact conj_extension even positive (orderOf_domainRoot (by omega)) (domainRoot_ne_zero n)
    natCast_two_pow_ne_zero (conj_domainRoot n) offset (pow_ne_zero j (domainRoot_ne_zero _))
    (fun row => conj_fromBase _) mean m

/-- The imaginary unit. -/
def imaginaryUnit : Mersenne31Complex := ⟨0, 1⟩

theorem mk_eq (real imaginary : F) :
    (⟨real, imaginary⟩ : Mersenne31Complex) =
      fromBase real + imaginaryUnit * fromBase imaginary := by
  ext
  · rw [add_c0, mul_c0]
    change real = real + (0 * imaginary - 1 * 0)
    ring
  · rw [add_c1, mul_c1]
    change imaginary = 0 + (0 * 0 + 1 * imaginary)
    ring

/-- Each column of a pair has its own extension on the coset, and a zero column stays zero. -/
structure SeparateExtensions (trace : RowMajorTrace) (tau : Mersenne31Complex)
    (extended : ℕ → Fin (trace.paddedWidth / 2) → Mersenne31Complex)
    (pair : Fin (trace.paddedWidth / 2)) : Prop where
  real : ∀ m < trace.length,
    fromBase (extended m pair).c0 = trace.columnExtension tau (2 * pair) m
  imaginary : ∀ m < trace.length,
    fromBase (extended m pair).c1 = trace.columnExtension tau (2 * pair + 1) m
  zeroReal : (∀ row < trace.length, (trace.el row (2 * pair)).value = 0) →
    ∀ m < trace.length, (extended m pair).c0 = 0
  zeroImaginary : (∀ row < trace.length, (trace.el row (2 * pair + 1)).value = 0) →
    ∀ m < trace.length, (extended m pair).c1 = 0

theorem columnExtension_of_zero {trace : RowMajorTrace} {column n : ℕ}
    (rows : trace.length = 2 ^ n) (bound : n ≤ 31)
    (zero : ∀ row < trace.length, (trace.el row column).value = 0) (tau : Mersenne31Complex)
    (m : ℕ) : trace.columnExtension tau column m = 0 := by
  have vanishing : extension (domainRoot n) (2 ^ n)
      (fun row => fromBase (trace.el row column).value) (tau * domainRoot n ^ m) = 0 := by
    rw [extension_eq (orderOf_domainRoot bound) (domainRoot_ne_zero n) natCast_two_pow_ne_zero]
    apply Finset.sum_eq_zero
    intro c _
    have coefficients : ∑ i ∈ Finset.range (2 ^ n), (domainRoot n)⁻¹ ^ (c * i) *
        fromBase (trace.el i column).value = 0 := by
      apply Finset.sum_eq_zero
      intro row member
      rw [zero row (by rw [rows]; exact Finset.mem_range.mp member), map_zero, mul_zero]
    rw [coefficient, coefficients, mul_zero, mul_zero]
  rw [RowMajorTrace.columnExtension, rows, Nat.log2_two_pow, vanishing, mul_zero]

/-- A pair of columns that both sum to zero is not mixed. -/
theorem separateExtensions {n l j : ℕ} {trace : RowMajorTrace} (rows : trace.length = 2 ^ n)
    (large : 1 ≤ n) (bound : n + l ≤ 31)
    {extended : ℕ → Fin (trace.paddedWidth / 2) → Mersenne31Complex}
    {pair : Fin (trace.paddedWidth / 2)}
    (values : ∀ m < 2 ^ n, extended m pair = ((domainRoot (n + l) ^ j) ^ (2 ^ n / 2))⁻¹ *
      extension (domainRoot n) (2 ^ n) (fun row => trace.packed row pair)
        (domainRoot (n + l) ^ j * domainRoot n ^ m))
    (realSum : trace.ZeroSum (2 * pair)) (imaginarySum : trace.ZeroSum (2 * pair + 1)) :
    SeparateExtensions trace (domainRoot (n + l) ^ j) extended pair := by
  have split : ∀ m < 2 ^ n, extended m pair =
      trace.columnExtension (domainRoot (n + l) ^ j) (2 * pair) m +
        imaginaryUnit * trace.columnExtension (domainRoot (n + l) ^ j) (2 * pair + 1) m := by
    intro m mBound
    have packed : (fun row => trace.packed row pair) = fun row =>
        fromBase (trace.el row (2 * pair)).value +
          imaginaryUnit * fromBase (trace.el row (2 * pair + 1)).value := by
      funext row
      exact mk_eq _ _
    rw [values m mBound, packed, extension_add, extension_mul, RowMajorTrace.columnExtension,
      RowMajorTrace.columnExtension, rows, Nat.log2_two_pow]
    ring
  have components : ∀ m < 2 ^ n,
      fromBase (extended m pair).c0 =
          trace.columnExtension (domainRoot (n + l) ^ j) (2 * pair) m ∧
        fromBase (extended m pair).c1 =
          trace.columnExtension (domainRoot (n + l) ^ j) (2 * pair + 1) m := by
    intro m mBound
    obtain ⟨real, realEq⟩ := columnExtension_real (j := j) rows large bound realSum m
    obtain ⟨imaginary, imaginaryEq⟩ :=
      columnExtension_real (j := j) rows large bound imaginarySum m
    rw [realEq, imaginaryEq, split m mBound, realEq, imaginaryEq, ← mk_eq]
    exact ⟨rfl, rfl⟩
  have base : ∀ a : F, fromBase a = 0 → a = 0 := fun a zero => congrArg c0 zero
  constructor
  · intro m mBound
    exact (components m (rows ▸ mBound)).1
  · intro m mBound
    exact (components m (rows ▸ mBound)).2
  · intro zero m mBound
    apply base
    rw [(components m (rows ▸ mBound)).1, columnExtension_of_zero rows (by omega) zero]
  · intro zero m mBound
    apply base
    rw [(components m (rows ▸ mBound)).2, columnExtension_of_zero rows (by omega) zero]

/-- On at least eight rows that are padded to whole cache lines: the adjustment makes the columns
of its range sum to zero and changes only the last row, and on every coset the extension of each
pair of columns that sum to zero is the pair of their extensions. -/
theorem packedColumns_extend_separately {target : TargetArch} {N numCores n l start stop : ℕ}
    {trace : RowMajorTrace} (accepted : target.cacheLineMultiple ≤ N)
    (aligned : trace.paddedWidth % target.cacheLineMultiple = 0)
    (ifftSchedule fftSchedule : Schedule) (cores : numCores ≠ 0) (fit : CoresFit numCores n)
    (small : numCores * 2 ^ n < 2 ^ 32) (large : 3 ≤ n) (several : 1 ≤ l) (bound : n + l ≤ 31)
    (rows : trace.length = 2 ^ n) (ordered : start ≤ stop) (inside : stop ≤ trace.width) :
    ∃ twiddles precomputations adjusted,
      Twiddles.new numCores (2 ^ n) = some twiddles ∧
      DomainBoundLdePrecomputations.new numCores 0 (2 ^ n) (2 ^ l) = some precomputations ∧
      adjustToZeroC0VarLength numCores trace start stop = some adjusted ∧
      AdjustedToZero trace adjusted start stop ∧
      ∀ j < 2 ^ l, ∃ tau extended, precomputations.taus[j]? = some tau ∧
        lowDegreeExtension target N ifftSchedule fftSchedule numCores twiddles precomputations j
          adjusted = some extended ∧
        ∀ pair : Fin (adjusted.paddedWidth / 2), adjusted.ZeroSum (2 * pair) →
          adjusted.ZeroSum (2 * pair + 1) → SeparateExtensions adjusted tau extended pair := by
  obtain ⟨k, succ⟩ : ∃ k, n = k + 1 := ⟨n - 1, by omega⟩
  have several' : 1 < trace.length := by
    rw [rows]
    exact Nat.one_lt_two_pow (by omega)
  obtain ⟨adjusted, computed, adjustment⟩ :=
    adjustToZeroC0VarLength_spec cores several' (rows ▸ small) ordered inside
  have twiddles := Twiddles.new_eq (n := k) cores (by omega)
  rw [← succ] at twiddles
  have factors := DomainBoundLdePrecomputations.new_eq cores large several bound
  refine ⟨_, _, adjusted, twiddles, factors, computed, adjustment, ?_⟩
  intro j below
  have adjustedRows : adjusted.length = 2 ^ n := adjustment.length.trans rows
  obtain ⟨extended, computedExtension, values⟩ := lowDegreeExtension_eq ifftSchedule fftSchedule
    cores fit large bound below accepted (adjustment.paddedWidth ▸ aligned) adjustedRows several
    twiddles factors
  refine ⟨domainRoot (n + l) ^ j, extended, ?_, computedExtension, ?_⟩
  · rw [List.getElem?_map, List.getElem?_range below]
    rfl
  · intro pair realSum imaginarySum
    exact separateExtensions adjustedRows (by omega) bound
      (fun m mBound => values m mBound pair) realSum imaginarySum

/-- Two columns of ones in rows of sixteen columns. -/
def onesTrace (length : ℕ) : RowMajorTrace where
  width := 2
  length := length
  paddedWidth := 16
  widthPadded := by decide
  paired := by decide
  el _ column := if column < 2 then .one else .zero

/-- The threads one after the other. -/
def Schedule.sequential : Schedule := ⟨fun _ places => places, fun _ _ => List.Perm.refl _⟩

theorem packedColumns_extend_separately_eight :
    ∃ twiddles precomputations adjusted,
      Twiddles.new 2 (2 ^ 3) = some twiddles ∧
      DomainBoundLdePrecomputations.new 2 0 (2 ^ 3) (2 ^ 1) = some precomputations ∧
      adjustToZeroC0VarLength 2 (onesTrace 8) 0 2 = some adjusted ∧
      AdjustedToZero (onesTrace 8) adjusted 0 2 ∧
      ∀ j < 2 ^ 1, ∃ tau extended, precomputations.taus[j]? = some tau ∧
        lowDegreeExtension .other 16 .sequential .sequential 2 twiddles precomputations j
          adjusted = some extended ∧
        ∀ pair : Fin (adjusted.paddedWidth / 2), adjusted.ZeroSum (2 * pair) →
          adjusted.ZeroSum (2 * pair + 1) → SeparateExtensions adjusted tau extended pair := by
  have fit : CoresFit 2 3 := by
    intro s m size
    by_cases last : m = 0
    · have two : s = 2 := by omega
      rw [two]
      exact Or.inr ⟨by decide, by decide⟩
    · have first : 2 ^ 1 ≤ 2 ^ m :=
        Nat.pow_le_pow_right Nat.two_pos (Nat.one_le_iff_ne_zero.mpr last)
      exact Or.inl first
  exact packedColumns_extend_separately (by decide) rfl .sequential .sequential (by decide) fit
    (by decide) (by decide) (by decide) (by decide) rfl (by decide) (by decide)

/-- A single row leaves nothing to sum over, and four rows are too few for the transposed
factors. -/
theorem shortTraces_rejected :
    adjustToZeroC0VarLength 1 (onesTrace 1) 0 2 = none ∧
      DomainBoundLdePrecomputations.new 1 0 4 2 = none := by
  constructor
  · rfl
  · decide +kernel

end Airbender.Fft
