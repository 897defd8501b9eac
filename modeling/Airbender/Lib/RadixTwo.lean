import Airbender.Lib.PairUpdates
import Mathlib.Algebra.BigOperators.Intervals
import Mathlib.Algebra.Module.BigOperators
import Mathlib.Data.List.ProdSigma
import Mathlib.Logic.Function.Basic
import Mathlib.Tactic.Abel
import Mathlib.Tactic.Ring

/-!
# Radix-two transforms in place

A stage of a transform over `2^n` places is a set of butterflies on disjoint pairs of places.
Stages at falling distances take natural order to bit-reversed order, stages at rising
distances take it back.  The places hold elements of a module over the ring of the twiddles.
-/

namespace RadixTwo

open Finset PairUpdates

universe u v

variable {R : Type u} {V : Type v}

/-! ## Bit reversal -/

/-- The lowest `n` bits of an index in reverse order. -/
def reversed : ℕ → ℕ → ℕ
  | 0, _ => 0
  | n + 1, i => i % 2 * 2 ^ n + reversed n (i / 2)

theorem reversed_lt (n i : ℕ) : reversed n i < 2 ^ n := by
  induction n generalizing i with
  | zero => exact Nat.zero_lt_one
  | succ n inductionHypothesis =>
      have rest := inductionHypothesis (i / 2)
      have bit : i % 2 * 2 ^ n ≤ 1 * 2 ^ n := Nat.mul_le_mul_right _ (by omega)
      rw [reversed, Nat.pow_succ]
      omega

/-- The children of a place in the tree of halvings. -/
theorem reversed_double (n i : ℕ) : reversed (n + 1) (2 * i) = reversed n i := by
  have even : 2 * i % 2 = 0 := Nat.mul_mod_right 2 i
  have half : 2 * i / 2 = i := Nat.mul_div_cancel_left i Nat.two_pos
  rw [reversed, even, half, Nat.zero_mul, Nat.zero_add]

theorem reversed_double_add_one (n i : ℕ) :
    reversed (n + 1) (2 * i + 1) = 2 ^ n + reversed n i := by
  have odd : (2 * i + 1) % 2 = 1 := by omega
  have half : (2 * i + 1) / 2 = i := by omega
  rw [reversed, odd, half, Nat.one_mul]

/-- The highest bit of an index becomes the lowest. -/
theorem reversed_succ_of_lt {n i : ℕ} (bound : i < 2 ^ n) :
    reversed (n + 1) i = 2 * reversed n i := by
  induction n generalizing i with
  | zero =>
      have zero : i = 0 := Nat.lt_one_iff.mp bound
      rw [zero]
      rfl
  | succ n inductionHypothesis =>
      have half : i / 2 < 2 ^ n := by
        rw [Nat.pow_succ] at bound
        omega
      rw [reversed, inductionHypothesis half, reversed, Nat.pow_succ]
      ring

theorem reversed_succ_add {n i : ℕ} (bound : i < 2 ^ n) :
    reversed (n + 1) (2 ^ n + i) = 2 * reversed n i + 1 := by
  induction n generalizing i with
  | zero =>
      have zero : i = 0 := Nat.lt_one_iff.mp bound
      rw [zero]
      rfl
  | succ n inductionHypothesis =>
      have power : 2 ^ (n + 1) = 2 * 2 ^ n := Nat.pow_succ'
      have half : i / 2 < 2 ^ n := by omega
      have parity : (2 ^ (n + 1) + i) % 2 = i % 2 := by omega
      have rest : (2 ^ (n + 1) + i) / 2 = 2 ^ n + i / 2 := by omega
      rw [reversed, parity, rest, inductionHypothesis half, reversed, power]
      ring

/-- Reversing more bits than the index has shifts the result. -/
theorem reversed_add {s i : ℕ} (m : ℕ) (bound : i < 2 ^ s) :
    reversed (s + m) i = 2 ^ m * reversed s i := by
  induction m with
  | zero => rw [Nat.add_zero, Nat.pow_zero, Nat.one_mul]
  | succ m inductionHypothesis =>
      have wide : i < 2 ^ (s + m) :=
        bound.trans_le (Nat.pow_le_pow_right Nat.two_pos (Nat.le_add_right s m))
      rw [← Nat.add_assoc, reversed_succ_of_lt wide, inductionHypothesis, Nat.pow_succ]
      ring

/-- The reversal of two parts of an index. -/
theorem reversed_parts (low high i : ℕ) :
    reversed (low + high) i = 2 ^ high * reversed low i + reversed high (i / 2 ^ low) := by
  induction low generalizing i with
  | zero => rw [Nat.zero_add, Nat.pow_zero, Nat.div_one, reversed, Nat.mul_zero, Nat.zero_add]
  | succ low inductionHypothesis =>
      have rest : i / 2 / 2 ^ low = i / 2 ^ (low + 1) := by
        rw [Nat.div_div_eq_div_mul, Nat.pow_succ']
      have shift : low + 1 + high = low + high + 1 := by omega
      rw [shift, reversed, inductionHypothesis, rest, reversed, pow_add]
      ring

theorem reversed_zero (n : ℕ) : reversed n 0 = 0 := by
  induction n with
  | zero => rfl
  | succ n inductionHypothesis =>
      rw [reversed, Nat.zero_mod, Nat.zero_mul, Nat.zero_add, Nat.zero_div, inductionHypothesis]

/-- Only the lowest bits are reversed. -/
theorem reversed_mod (n i : ℕ) : reversed n (i % 2 ^ n) = reversed n i := by
  induction n generalizing i with
  | zero => rfl
  | succ n inductionHypothesis =>
      have power : 2 ^ (n + 1) = 2 * 2 ^ n := Nat.pow_succ'
      have bit : i % 2 ^ (n + 1) % 2 = i % 2 := by
        rw [power]
        exact Nat.mod_mul_right_mod i 2 (2 ^ n)
      have rest : i % 2 ^ (n + 1) / 2 = i / 2 % 2 ^ n := by
        rw [power]
        exact Nat.mod_mul_right_div_self i 2 (2 ^ n)
      rw [reversed, bit, rest, inductionHypothesis, reversed]

theorem reversed_reversed {n i : ℕ} (bound : i < 2 ^ n) : reversed n (reversed n i) = i := by
  induction n generalizing i with
  | zero => exact (Nat.lt_one_iff.mp bound).symm
  | succ n inductionHypothesis =>
      have power : 2 ^ (n + 1) = 2 * 2 ^ n := Nat.pow_succ'
      have half : i / 2 < 2 ^ n := by omega
      have inner : reversed n (i / 2) < 2 ^ n := reversed_lt n (i / 2)
      have head : reversed (n + 1) i = i % 2 * 2 ^ n + reversed n (i / 2) := rfl
      rcases Nat.mod_two_eq_zero_or_one i with even | odd
      · rw [head, even, Nat.zero_mul, Nat.zero_add, reversed_succ_of_lt inner,
          inductionHypothesis half]
        omega
      · rw [head, odd, Nat.one_mul, reversed_succ_add inner, inductionHypothesis half]
        omega

/-- A sum over all places in reversed order. -/
theorem sum_reversed {M : Type v} [AddCommMonoid M] (n : ℕ) (f : ℕ → M) :
    ∑ i ∈ range (2 ^ n), f (reversed n i) = ∑ i ∈ range (2 ^ n), f i := by
  refine Finset.sum_nbij' (reversed n) (reversed n) ?_ ?_ ?_ ?_ ?_
  · exact fun i _ => mem_range.mpr (reversed_lt n i)
  · exact fun i _ => mem_range.mpr (reversed_lt n i)
  · exact fun i member => reversed_reversed (mem_range.mp member)
  · exact fun i member => reversed_reversed (mem_range.mp member)
  · exact fun _ _ => rfl

/-! ## Reversal by swaps -/

section Swaps

variable {α : Type u}

def swapped (xs : List α) (i j : ℕ) : List α :=
  match xs[i]?, xs[j]? with
  | some a, some b => (xs.set i b).set j a
  | _, _ => xs

theorem length_swapped (xs : List α) (i j : ℕ) : (swapped xs i j).length = xs.length := by
  rw [swapped]
  split
  · rw [List.length_set, List.length_set]
  · rfl

theorem getElem?_swapped {xs : List α} {i j : ℕ} (iBound : i < xs.length) (jBound : j < xs.length)
    (p : ℕ) : (swapped xs i j)[p]? = if p = j then xs[i]? else if p = i then xs[j]? else xs[p]? := by
  rw [swapped, List.getElem?_eq_getElem iBound, List.getElem?_eq_getElem jBound]
  change ((xs.set i xs[j]).set j xs[i])[p]? = _
  by_cases second : p = j
  · rw [second, if_pos rfl, List.getElem?_set_self (by rw [List.length_set]; exact jBound)]
  · rw [if_neg second, List.getElem?_set_ne (Ne.symm second)]
    by_cases first : p = i
    · rw [first, if_pos rfl, List.getElem?_set_self iBound]
    · rw [if_neg first, List.getElem?_set_ne (Ne.symm first)]

/-- One round of the reversal in place. -/
def reverseStep (n : ℕ) (xs : List α) (i : ℕ) : List α :=
  if i < reversed n i then swapped xs i (reversed n i) else xs

/-- Swaps every place with its reversal, once. -/
def reverseInPlace (n : ℕ) (xs : List α) : List α :=
  (List.range (2 ^ n)).foldl (reverseStep n) xs

/-- After `m` rounds the places below `m` and their reversals hold the final elements. -/
theorem reverse_invariant {n : ℕ} {xs : List α} (size : xs.length = 2 ^ n) {m : ℕ}
    (rounds : m ≤ 2 ^ n) :
    ((List.range m).foldl (reverseStep n) xs).length = 2 ^ n ∧
      ∀ p < 2 ^ n, ((List.range m).foldl (reverseStep n) xs)[p]? =
        if p < m ∨ reversed n p < m then xs[reversed n p]? else xs[p]? := by
  induction m with
  | zero =>
      refine ⟨size, ?_⟩
      intro p _
      rw [if_neg (by omega)]
      rfl
  | succ m inductionHypothesis =>
      obtain ⟨length, places⟩ := inductionHypothesis (by omega)
      have below : m < 2 ^ n := by omega
      have partner : reversed n m < 2 ^ n := reversed_lt n m
      have back : reversed n (reversed n m) = m := reversed_reversed below
      rw [List.range_succ, List.foldl_append, List.foldl_cons, List.foldl_nil, reverseStep]
      by_cases ahead : m < reversed n m
      · rw [if_pos ahead]
        refine ⟨(length_swapped _ _ _).trans length, ?_⟩
        intro p bound
        have untouched : ¬(m < m ∨ reversed n m < m) := by omega
        have untouchedPartner : ¬(reversed n m < m ∨ reversed n (reversed n m) < m) := by omega
        rw [getElem?_swapped (by omega) (by omega), places m below, places _ partner,
          if_neg untouched, if_neg untouchedPartner]
        by_cases isPartner : p = reversed n m
        · rw [if_pos isPartner, isPartner, if_pos (by omega), back]
        by_cases isPlace : p = m
        · rw [if_neg isPartner, if_pos isPlace, isPlace, if_pos (by omega)]
        have reversedElsewhere : reversed n p ≠ m := by
          intro same
          have again := congrArg (reversed n) same
          rw [reversed_reversed bound] at again
          exact isPartner again
        rw [if_neg isPartner, if_neg isPlace, places p bound]
        by_cases done : p < m ∨ reversed n p < m
        · rw [if_pos done, if_pos (by omega)]
        · rw [if_neg done, if_neg (by omega)]
      · rw [if_neg ahead]
        refine ⟨length, ?_⟩
        intro p bound
        rw [places p bound]
        by_cases done : p < m ∨ reversed n p < m
        · rw [if_pos done, if_pos (by omega)]
        by_cases isPlace : p = m
        · -- such a place is its own reversal
          rw [isPlace] at done ⊢
          have own : reversed n m = m := by omega
          rw [own, ite_self, ite_self]
        by_cases isPartner : reversed n p = m
        · have same : p = reversed n m := by rw [← isPartner, reversed_reversed bound]
          omega
        · rw [if_neg done, if_neg (by omega)]

theorem reverseInPlace_map_range (n : ℕ) (f : ℕ → α) :
    reverseInPlace n ((List.range (2 ^ n)).map f) =
      (List.range (2 ^ n)).map fun i => f (reversed n i) := by
  have size : ((List.range (2 ^ n)).map f).length = 2 ^ n := by
    rw [List.length_map, List.length_range]
  obtain ⟨length, places⟩ := reverse_invariant size (Nat.le_refl (2 ^ n))
  apply List.ext_getElem?
  intro p
  by_cases bound : p < 2 ^ n
  · rw [reverseInPlace, places p bound, if_pos (Or.inl bound), List.getElem?_map,
      List.getElem?_map, List.getElem?_range (reversed_lt n p), List.getElem?_range bound]
    rfl
  · rw [reverseInPlace, List.getElem?_eq_none (by omega),
      List.getElem?_eq_none (by rw [List.length_map, List.length_range]; omega)]

end Swaps

/-! ## Butterflies -/

/-- A butterfly: the places, and the factors of what they hold. -/
structure Butterfly (R : Type u) where
  low : ℕ
  high : ℕ
  lowFactor : R
  highFactor : R

variable [CommRing R] [AddCommGroup V] [Module R V]

/-- The sum goes to the lower place and the difference to the higher one. -/
def Butterfly.apply (wing : Butterfly R) (memory : ℕ → V) : ℕ → V :=
  let u := wing.lowFactor • memory wing.low
  let v := wing.highFactor • memory wing.high
  Function.update (Function.update memory wing.low (u + v)) wing.high (u - v)

def sweep (wings : List (Butterfly R)) (memory : ℕ → V) : ℕ → V :=
  wings.foldl (fun memory wing => wing.apply memory) memory

/-! ## Stages -/

/-- The butterfly at an offset into a block of two halves of size `distance`. -/
def wingAt (distance : ℕ) (low high : ℕ → ℕ → R) (place : ℕ × ℕ) : Butterfly R where
  low := place.1 * (2 * distance) + place.2
  high := place.1 * (2 * distance) + place.2 + distance
  lowFactor := low place.1 place.2
  highFactor := high place.1 place.2

/-- Butterflies are updates of pairs of places. -/
theorem sweep_map_wingAt (distance : ℕ) (low high : ℕ → ℕ → R) (places : List (ℕ × ℕ))
    (memory : ℕ → V) :
    sweep (places.map (wingAt distance low high)) memory =
      updateAll (places.map (updateAt distance fun block offset u v =>
        (low block offset • u + high block offset • v,
          low block offset • u - high block offset • v))) memory := by
  rw [sweep, updateAll, List.foldl_map, List.foldl_map]
  rfl

/-- The result of a stage that visits every place once, in any order. -/
theorem stage_result {distance : ℕ} (low high : ℕ → ℕ → R) {places : List (ℕ × ℕ)}
    (memory : ℕ → V) (nodup : places.Nodup) (bounds : ∀ place ∈ places, place.2 < distance)
    {block offset : ℕ} (member : (block, offset) ∈ places) :
    let lower := low block offset • memory (block * (2 * distance) + offset)
    let higher := high block offset • memory (block * (2 * distance) + offset + distance)
    sweep (places.map (wingAt distance low high)) memory (block * (2 * distance) + offset) =
        lower + higher ∧
      sweep (places.map (wingAt distance low high)) memory
        (block * (2 * distance) + offset + distance) = lower - higher := by
  rw [sweep_map_wingAt]
  exact updateAll_places _ memory nodup bounds member

/-! ## From natural to bit-reversed order -/

section Sums

variable {M : Type v} [AddCommMonoid M]

theorem sum_range_double (n : ℕ) (f : ℕ → M) :
    ∑ q ∈ range (2 * n), f q = ∑ q ∈ range n, f (2 * q) + ∑ q ∈ range n, f (2 * q + 1) := by
  induction n with
  | zero => rw [Nat.mul_zero, sum_range_zero, sum_range_zero, sum_range_zero, add_zero]
  | succ n inductionHypothesis =>
      rw [Nat.mul_succ, sum_range_succ, sum_range_succ, inductionHypothesis, sum_range_succ,
        sum_range_succ]
      abel

theorem sum_range_halves (n : ℕ) (f : ℕ → M) :
    ∑ q ∈ range (2 * n), f q = ∑ q ∈ range n, f q + ∑ q ∈ range n, f (n + q) := by
  rw [Nat.two_mul, sum_range_add]

end Sums

/-- What the stage with `2^s` problems of `2^m` butterflies does: each problem has one twiddle. -/
structure FallingStage (twiddle : ℕ → R) (s m : ℕ) (memory result : ℕ → V) : Prop where
  low : ∀ p < 2 ^ s, ∀ j < 2 ^ m, result (p * 2 ^ (m + 1) + j) =
    memory (p * 2 ^ (m + 1) + j) + twiddle p • memory (p * 2 ^ (m + 1) + j + 2 ^ m)
  high : ∀ p < 2 ^ s, ∀ j < 2 ^ m, result (p * 2 ^ (m + 1) + j + 2 ^ m) =
    memory (p * 2 ^ (m + 1) + j) - twiddle p • memory (p * 2 ^ (m + 1) + j + 2 ^ m)

/-- Stages at falling distances. -/
def FallingRun (n : ℕ) (twiddle : ℕ → R) (run : ℕ → ℕ → V) : Prop :=
  ∀ s m, s + (m + 1) = n → FallingStage twiddle s m (run s) (run (s + 1))

/-- The weighted places at equal offsets, split into the even and the odd multiples of `step`. -/
theorem sum_powers_double (s : ℕ) (root : R) (r step : ℕ) (memory : ℕ → V) :
    ∑ q ∈ range (2 ^ (s + 1)), root ^ q • memory (r + q * step) =
      ∑ q ∈ range (2 ^ s), (root ^ 2) ^ q • memory (r + q * (2 * step)) +
        root • ∑ q ∈ range (2 ^ s), (root ^ 2) ^ q • memory (r + step + q * (2 * step)) := by
  rw [Nat.pow_succ', sum_range_double, smul_sum]
  congr 1
  · apply sum_congr rfl
    intro q _
    have place : r + 2 * q * step = r + q * (2 * step) := by ring
    rw [pow_mul, place]
  · apply sum_congr rfl
    intro q _
    have place : r + (2 * q + 1) * step = r + step + q * (2 * step) := by ring
    rw [smul_smul, pow_succ', pow_mul, place]

/-- After `s` stages a block holds the residue of the input modulo a binomial: the places at
equal offsets, weighted with the powers of the root that belongs to the block. -/
theorem falling_invariant {n : ℕ} {ω : R} {twiddle : ℕ → R} {run : ℕ → ℕ → V}
    (half : ∀ m, m + 1 = n → ω ^ 2 ^ m = -1)
    (twiddles : ∀ m, m + 1 = n → ∀ p < 2 ^ m, twiddle p = ω ^ reversed m p)
    (stages : FallingRun n twiddle run) {s m : ℕ} (size : s + m = n) :
    ∀ p < 2 ^ s, ∀ r < 2 ^ m, run s (p * 2 ^ m + r) =
      ∑ q ∈ range (2 ^ s), (ω ^ (2 ^ m * reversed s p)) ^ q • run 0 (r + q * 2 ^ m) := by
  induction s generalizing m with
  | zero =>
      intro p pBound r _
      have zero : p = 0 := Nat.lt_one_iff.mp pBound
      rw [zero, Nat.pow_zero, range_one, sum_singleton, pow_zero, one_smul, Nat.zero_mul,
        Nat.zero_add, Nat.add_zero]
  | succ s inductionHypothesis =>
      intro p pBound r rBound
      have before := inductionHypothesis (m := m + 1) (by omega)
      have stage := stages s m (by omega)
      have power : 2 ^ (m + 1) = 2 * 2 ^ m := Nat.pow_succ'
      obtain ⟨u, child⟩ : ∃ u, p = 2 * u ∨ p = 2 * u + 1 := ⟨p / 2, by omega⟩
      have parent : u < 2 ^ s := by
        rw [Nat.pow_succ] at pBound
        omega
      -- both halves of the parent block
      have lower := before u parent r (by omega)
      have upper := before u parent (r + 2 ^ m) (by omega)
      rw [← Nat.add_assoc] at upper
      have twiddleValue : twiddle u = ω ^ (2 ^ m * reversed s u) := by
        have wide : u < 2 ^ (s + m) :=
          parent.trans_le (Nat.pow_le_pow_right Nat.two_pos (Nat.le_add_right s m))
        rw [twiddles (s + m) (by omega) u wide, reversed_add m parent]
      have squared : (ω ^ (2 ^ m * reversed s u)) ^ 2 = ω ^ (2 ^ (m + 1) * reversed s u) := by
        rw [← pow_mul, power]
        congr 1
        ring
      have children := sum_powers_double s (ω ^ (2 ^ m * reversed (s + 1) p)) r (2 ^ m) (run 0)
      rw [← power] at children
      rw [children]
      rcases child with rfl | rfl
      · have root : ω ^ (2 ^ m * reversed (s + 1) (2 * u)) = ω ^ (2 ^ m * reversed s u) := by
          rw [reversed_double]
        have place : 2 * u * 2 ^ m + r = u * 2 ^ (m + 1) + r := by
          rw [power]
          ring
        rw [root, squared, place, stage.low u parent r rBound, lower, upper, twiddleValue]
      · have root : ω ^ (2 ^ m * reversed (s + 1) (2 * u + 1)) =
            -ω ^ (2 ^ m * reversed s u) := by
          have opposite : ω ^ 2 ^ (s + m) = -1 := half (s + m) (by omega)
          rw [reversed_double_add_one, Nat.mul_add, pow_add, ← pow_add 2, Nat.add_comm m s,
            opposite, neg_one_mul]
        have place : (2 * u + 1) * 2 ^ m + r = u * 2 ^ (m + 1) + r + 2 ^ m := by
          rw [power]
          ring
        rw [root, neg_sq, squared, place, stage.high u parent r rBound, lower, upper,
          twiddleValue, neg_smul, sub_eq_add_neg]

/-- The falling stages evaluate the input at the powers of `ω`, in bit-reversed order. -/
theorem falling_result {n : ℕ} {ω : R} {twiddle : ℕ → R} {run : ℕ → ℕ → V}
    (half : ∀ m, m + 1 = n → ω ^ 2 ^ m = -1)
    (twiddles : ∀ m, m + 1 = n → ∀ p < 2 ^ m, twiddle p = ω ^ reversed m p)
    (stages : FallingRun n twiddle run) {p : ℕ} (bound : p < 2 ^ n) :
    run n p = ∑ q ∈ range (2 ^ n), ω ^ (reversed n p * q) • run 0 q := by
  have last := falling_invariant half twiddles stages (Nat.add_zero n) p bound 0 Nat.zero_lt_one
  rw [Nat.pow_zero, Nat.mul_one, Nat.add_zero, Nat.one_mul] at last
  rw [last]
  apply sum_congr rfl
  intro q _
  rw [← pow_mul, Nat.zero_add, Nat.mul_one]

/-! ## From bit-reversed to natural order -/

/-- What the stage with `2^m` blocks of `2^s` butterflies does: the twiddle goes with the offset. -/
structure RisingStage (twiddle : ℕ → R) (s m : ℕ) (memory result : ℕ → V) : Prop where
  low : ∀ k < 2 ^ m, ∀ p < 2 ^ s, result (k * 2 ^ (s + 1) + p) =
    memory (k * 2 ^ (s + 1) + p) + twiddle (p * 2 ^ m) • memory (k * 2 ^ (s + 1) + p + 2 ^ s)
  high : ∀ k < 2 ^ m, ∀ p < 2 ^ s, result (k * 2 ^ (s + 1) + p + 2 ^ s) =
    memory (k * 2 ^ (s + 1) + p) - twiddle (p * 2 ^ m) • memory (k * 2 ^ (s + 1) + p + 2 ^ s)

/-- Stages at rising distances. -/
def RisingRun (n : ℕ) (twiddle : ℕ → R) (run : ℕ → ℕ → V) : Prop :=
  ∀ s m, s + (m + 1) = n → RisingStage twiddle s m (run s) (run (s + 1))

/-- After `s` stages a block holds the transform of the block it was. -/
theorem rising_invariant {n : ℕ} {ω : R} {twiddle : ℕ → R} {run : ℕ → ℕ → V}
    (half : ∀ m, m + 1 = n → ω ^ 2 ^ m = -1)
    (twiddles : ∀ m, m + 1 = n → ∀ i < 2 ^ m, twiddle i = ω ^ i)
    (stages : RisingRun n twiddle run) {s m : ℕ} (size : s + m = n) :
    ∀ k < 2 ^ m, ∀ r < 2 ^ s, run s (k * 2 ^ s + r) =
      ∑ q ∈ range (2 ^ s), ω ^ (2 ^ m * r * reversed s q) • run 0 (k * 2 ^ s + q) := by
  induction s generalizing m with
  | zero =>
      intro k _ r rBound
      have zero : r = 0 := Nat.lt_one_iff.mp rBound
      rw [zero, Nat.pow_zero, range_one, sum_singleton, Nat.mul_zero, Nat.zero_mul, pow_zero,
        one_smul]
  | succ s inductionHypothesis =>
      intro k kBound r rBound
      have before := inductionHypothesis (m := m + 1) (by omega)
      have stage := stages s m (by omega)
      have power : 2 ^ (s + 1) = 2 * 2 ^ s := Nat.pow_succ'
      have powerRest : 2 ^ (m + 1) = 2 * 2 ^ m := Nat.pow_succ'
      have opposite : ω ^ (2 ^ m * 2 ^ s) = -1 := by
        rw [← pow_add 2, Nat.add_comm m s]
        exact half (s + m) (by omega)
      obtain ⟨p, pBound, position⟩ : ∃ p, p < 2 ^ s ∧ (r = p ∨ r = p + 2 ^ s) := by
        by_cases first : r < 2 ^ s
        · exact ⟨r, first, Or.inl rfl⟩
        · exact ⟨r - 2 ^ s, by omega, Or.inr (by omega)⟩
      have lower := before (2 * k) (by omega) p pBound
      have upper := before (2 * k + 1) (by omega) p pBound
      have lowPlace : ∀ i, 2 * k * 2 ^ s + i = k * 2 ^ (s + 1) + i := by
        intro i
        rw [power]
        ring
      have highPlace : ∀ i, (2 * k + 1) * 2 ^ s + i = k * 2 ^ (s + 1) + i + 2 ^ s := by
        intro i
        rw [power]
        ring
      simp only [lowPlace, highPlace] at lower upper
      have twiddleValue : twiddle (p * 2 ^ m) = ω ^ (2 ^ m * p) := by
        have wide : p * 2 ^ m < 2 ^ (s + m) := by
          rw [pow_add]
          exact Nat.mul_lt_mul_of_pos_right pBound (Nat.two_pow_pos m)
        rw [twiddles (s + m) (by omega) _ wide, Nat.mul_comm]
      -- the exponents of the two halves of the block
      have firstHalf : ∀ q < 2 ^ s, ω ^ (2 ^ m * p * reversed (s + 1) q) =
          ω ^ (2 ^ (m + 1) * p * reversed s q) := by
        intro q qBound
        rw [reversed_succ_of_lt qBound, powerRest]
        congr 1
        ring
      have secondHalf : ∀ q < 2 ^ s, ω ^ (2 ^ m * p * reversed (s + 1) (2 ^ s + q)) =
          ω ^ (2 ^ m * p) * ω ^ (2 ^ (m + 1) * p * reversed s q) := by
        intro q qBound
        rw [reversed_succ_add qBound, powerRest, ← pow_add]
        congr 1
        ring
      have shifted : ∀ i, ω ^ (2 ^ m * (p + 2 ^ s) * i) = ω ^ (2 ^ m * p * i) * (-1) ^ i := by
        intro i
        rw [← opposite, ← pow_mul, ← pow_add]
        congr 1
        ring
      have evenSign : ∀ q < 2 ^ s, (-1 : R) ^ reversed (s + 1) q = 1 := by
        intro q qBound
        rw [reversed_succ_of_lt qBound, pow_mul, neg_one_sq, one_pow]
      have oddSign : ∀ q < 2 ^ s, (-1 : R) ^ reversed (s + 1) (2 ^ s + q) = -1 := by
        intro q qBound
        rw [reversed_succ_add qBound, pow_succ, pow_mul, neg_one_sq, one_pow, one_mul]
      have place : ∀ q, k * 2 ^ (s + 1) + (2 ^ s + q) = k * 2 ^ (s + 1) + q + 2 ^ s := by
        intro q
        omega
      rcases position with rfl | rfl
      · rw [stage.low k kBound r pBound, lower, upper, twiddleValue, smul_sum, power,
          sum_range_halves, ← power]
        congr 1
        · apply sum_congr rfl
          intro q member
          rw [firstHalf q (mem_range.mp member)]
        · apply sum_congr rfl
          intro q member
          rw [secondHalf q (mem_range.mp member), smul_smul, place]
      · rw [← Nat.add_assoc, stage.high k kBound p pBound, lower, upper, twiddleValue, smul_sum,
          power, sum_range_halves, ← power, sub_eq_add_neg, ← sum_neg_distrib]
        congr 1
        · apply sum_congr rfl
          intro q member
          have bound := mem_range.mp member
          rw [shifted, evenSign q bound, mul_one, firstHalf q bound]
        · apply sum_congr rfl
          intro q member
          have bound := mem_range.mp member
          rw [shifted, oddSign q bound, secondHalf q bound, smul_smul, place, mul_neg_one,
            neg_smul]

/-- What a stage does that multiplies the differences: the twiddle goes with the block. -/
structure DifferenceStage (twiddle : ℕ → R) (s m : ℕ) (memory result : ℕ → V) : Prop where
  low : ∀ k < 2 ^ m, ∀ p < 2 ^ s, result (k * 2 ^ (s + 1) + p) =
    memory (k * 2 ^ (s + 1) + p) + memory (k * 2 ^ (s + 1) + p + 2 ^ s)
  high : ∀ k < 2 ^ m, ∀ p < 2 ^ s, result (k * 2 ^ (s + 1) + p + 2 ^ s) =
    twiddle k • (memory (k * 2 ^ (s + 1) + p) - memory (k * 2 ^ (s + 1) + p + 2 ^ s))

/-- Stages at rising distances that multiply the differences. -/
def DifferenceRun (n : ℕ) (twiddle : ℕ → R) (run : ℕ → ℕ → V) : Prop :=
  ∀ s m, s + (m + 1) = n → DifferenceStage twiddle s m (run s) (run (s + 1))

/-- The stages that multiply differences are those that multiply inputs, up to a power of `ω` that
depends on the block and vanishes in the end. -/
theorem difference_twist {n : ℕ} {ω : R} {twiddle twiddle' : ℕ → R} {run run' : ℕ → ℕ → V}
    (twiddles : ∀ m, m + 1 = n → ∀ i < 2 ^ m, twiddle i = ω ^ i)
    (twiddles' : ∀ m, m + 1 = n → ∀ k < 2 ^ m, twiddle' k = ω ^ reversed m k)
    (stages : RisingRun n twiddle run) (stages' : DifferenceRun n twiddle' run')
    (start : ∀ i < 2 ^ n, run' 0 i = run 0 i) {s m : ℕ} (size : s + m = n) :
    ∀ k < 2 ^ m, ∀ p < 2 ^ s,
      run' s (k * 2 ^ s + p) = ω ^ (p * reversed m k) • run s (k * 2 ^ s + p) := by
  induction s generalizing m with
  | zero =>
      intro k kBound p pBound
      have zero : p = 0 := Nat.lt_one_iff.mp pBound
      have same : m = n := by omega
      rw [same] at kBound
      rw [zero, Nat.zero_mul, pow_zero ω, one_smul, Nat.pow_zero, Nat.mul_one, Nat.add_zero]
      exact start k kBound
  | succ s inductionHypothesis =>
      intro k kBound r rBound
      have before := inductionHypothesis (m := m + 1) (by omega)
      have stage := stages s m (by omega)
      have stage' := stages' s m (by omega)
      have power : 2 ^ (s + 1) = 2 * 2 ^ s := Nat.pow_succ'
      have powerRest : 2 ^ (m + 1) = 2 * 2 ^ m := Nat.pow_succ'
      obtain ⟨p, pBound, position⟩ : ∃ p, p < 2 ^ s ∧ (r = p ∨ r = p + 2 ^ s) := by
        by_cases first : r < 2 ^ s
        · exact ⟨r, first, Or.inl rfl⟩
        · exact ⟨r - 2 ^ s, by omega, Or.inr (by omega)⟩
      -- both blocks that the stage joins
      have lower := before (2 * k) (by omega) p pBound
      have upper := before (2 * k + 1) (by omega) p pBound
      have lowPlace : 2 * k * 2 ^ s + p = k * 2 ^ (s + 1) + p := by
        rw [power]
        ring
      have highPlace : (2 * k + 1) * 2 ^ s + p = k * 2 ^ (s + 1) + p + 2 ^ s := by
        rw [power]
        ring
      rw [reversed_double, lowPlace] at lower
      have exponent : p * (2 ^ m + reversed m k) = p * reversed m k + p * 2 ^ m := by ring
      rw [reversed_double_add_one, highPlace, exponent, pow_add ω, mul_smul] at upper
      have twiddleValue : twiddle (p * 2 ^ m) = ω ^ (p * 2 ^ m) := by
        have wide : p * 2 ^ m < 2 ^ (s + m) := by
          rw [pow_add]
          exact Nat.mul_lt_mul_of_pos_right pBound (Nat.two_pow_pos m)
        exact twiddles (s + m) (by omega) _ wide
      have twiddleValue' : twiddle' k = ω ^ (2 ^ s * reversed m k) := by
        have wide : k < 2 ^ (m + s) :=
          kBound.trans_le (Nat.pow_le_pow_right Nat.two_pos (Nat.le_add_right m s))
        rw [twiddles' (m + s) (by omega) k wide, reversed_add s kBound]
      rcases position with rfl | rfl
      · rw [stage'.low k kBound r pBound, stage.low k kBound r pBound, lower, upper, twiddleValue,
          smul_add]
      · rw [← Nat.add_assoc, stage'.high k kBound p pBound, stage.high k kBound p pBound, lower,
          upper, twiddleValue, twiddleValue', ← smul_sub, smul_smul, ← pow_add, ← Nat.add_mul,
          Nat.add_comm p]

/-- The rising stages transform places in bit-reversed order. -/
theorem rising_result {n : ℕ} {ω : R} {twiddle : ℕ → R} {run : ℕ → ℕ → V}
    (half : ∀ m, m + 1 = n → ω ^ 2 ^ m = -1)
    (twiddles : ∀ m, m + 1 = n → ∀ i < 2 ^ m, twiddle i = ω ^ i)
    (stages : RisingRun n twiddle run) {r : ℕ} (bound : r < 2 ^ n) :
    run n r = ∑ q ∈ range (2 ^ n), ω ^ (r * reversed n q) • run 0 q := by
  have last := rising_invariant half twiddles stages (Nat.add_zero n) 0 Nat.zero_lt_one r bound
  rw [Nat.zero_mul, Nat.zero_add] at last
  rw [last]
  apply sum_congr rfl
  intro q _
  rw [Nat.pow_zero, Nat.one_mul, Nat.zero_add]

end RadixTwo
