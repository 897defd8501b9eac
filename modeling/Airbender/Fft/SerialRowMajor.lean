import Airbender.Fft.ColumnMajor
import Airbender.Field.Complex

/-!
# Serial transforms of rows

`row_major_ifft` and `row_major_fft` write the butterflies of all columns out.  Their first half
leaves the twiddle of a butterfly out, and the first stage of `row_major_ifft` subtracts twice.
-/

namespace Airbender.Fft

open PairUpdates
open Circuit (F)

/-- A row of a view with `M` base-field columns. -/
abbrev Row (M : ℕ) := Fin M → F

section Rows

variable {M : ℕ}

/-- Two adjacent columns as one complex number. -/
def complexColumn (row : Row M) (column : Fin (M / 2)) : Mersenne31Complex :=
  ⟨row ⟨2 * column, by omega⟩, row ⟨2 * column + 1, by omega⟩⟩

/-- The coefficient that belongs to a base-field column. -/
def coefficient (value : Mersenne31Complex) (i : Fin M) : F :=
  if i.val % 2 = 0 then value.c0 else value.c1

/-- The first stage of `row_major_ifft`, over `0..64`. -/
def ifftFirstButterfly (u v : Row M) : Row M × Row M :=
  let addRes i := if i.val < 64 then u i - v i else u i
  let subRes i := if i.val < 64 then u i - v i else u i
  (addRes, subRes)

/-- The later stages of both transforms, over the pairs in `0..32`. -/
def rowButterfly (twiddle : Mersenne31Complex) (u v : Row M) : Row M × Row M :=
  let addRes i := if i.val / 2 < 32 ∧ i.val / 2 < M / 2 then u i + v i else u i
  let subRes i := if inside : i.val / 2 < 32 ∧ i.val / 2 < M / 2 then
    u i - coefficient (complexColumn v ⟨i.val / 2, inside.2⟩ * twiddle) i else u i
  (addRes, subRes)

/-- The first stage of `row_major_fft`, which scales both rows.  The results start uninitialised;
up to 64 columns every pair is written. -/
def fftFirstButterfly (powForU powForV : Mersenne31Complex) (u v : Row M) : Row M × Row M :=
  let scaled (row : Row M) (pow : Mersenne31Complex) (i : Fin M) : F :=
    if inside : i.val / 2 < 32 ∧ i.val / 2 < M / 2 then
      coefficient (complexColumn row ⟨i.val / 2, inside.2⟩ * pow) i else 0
  (fun i => scaled u powForU i + scaled v powForV i,
    fun i => scaled u powForU i - scaled v powForV i)

/-- `row_major_ifft`. -/
def rowMajorIfft (traceColumns : List (Row M)) (precomputations : List Mersenne31Complex) :
    Option (List (Row M)) := do
  guard (2 ≤ M)
  guard (Usize.isPowerOfTwo traceColumns.length)
  if traceColumns.length = 1 then
    return traceColumns
  if 16 ≤ traceColumns.length then
    guard (precomputations.length * 2 = traceColumns.length)
  naturalToBitreversed (fun _ => ifftFirstButterfly) rowButterfly precomputations traceColumns

/-- `row_major_fft`. -/
def rowMajorFft (traceColumns : List (Row M)) (precomputations powersToDistribute :
    List Mersenne31Complex) : Option (List (Row M)) := do
  guard (2 ≤ M)
  guard (Usize.isPowerOfTwo traceColumns.length)
  guard (traceColumns.length = powersToDistribute.length)
  if traceColumns.length = 1 then
    return traceColumns
  if 16 ≤ traceColumns.length then
    guard (precomputations.length * 2 = traceColumns.length)
  let distance := traceColumns.length / 2
  let first j := fftFirstButterfly (powersToDistribute.getD j 0)
    (powersToDistribute.getD (j + distance) 0)
  naturalToBitreversed first rowButterfly precomputations traceColumns

/-- A complex column of all rows. -/
def columnOf (traceColumns : List (Row M)) (column : Fin (M / 2)) : List Mersenne31Complex :=
  traceColumns.map fun row => complexColumn row column

/-- On `2^n` rows `row_major_ifft` leaves in every complex column what the column-major transform
gives on it. -/
def IfftMatchesColumns (M n : ℕ) (precomputations : List Mersenne31Complex) : Prop :=
  ∀ traceColumns : List (Row M), traceColumns.length = 2 ^ n →
    ∃ result, rowMajorIfft traceColumns precomputations = some result ∧
      ∀ column, serialCtNttNaturalToBitreversed (columnOf traceColumns column) precomputations =
        some (columnOf result column)

/-- On `2^n` rows `row_major_fft` leaves in every complex column what the column-major transform
gives on the scaled column. -/
def FftMatchesColumns (M n : ℕ) (precomputations : List Mersenne31Complex) : Prop :=
  ∀ (traceColumns : List (Row M)) (powersToDistribute : List Mersenne31Complex),
    traceColumns.length = 2 ^ n → powersToDistribute.length = 2 ^ n →
      ∃ result, rowMajorFft traceColumns precomputations powersToDistribute = some result ∧
        ∀ column, serialCtNttNaturalToBitreversed
          ((columnOf traceColumns column).zipWith (· * ·) powersToDistribute) precomputations =
            some (columnOf result column)

end Rows

/-! ## The butterflies on one complex column -/

section Columns

variable {M : ℕ} (narrow : M ≤ 64) (column : Fin (M / 2))

include narrow

theorem complexColumn_rowButterfly (twiddle : Mersenne31Complex) (u v : Row M) :
    complexColumn (rowButterfly twiddle u v).1 column =
        complexColumn u column + complexColumn v column ∧
      complexColumn (rowButterfly twiddle u v).2 column =
        complexColumn u column - twiddle • complexColumn v column := by
  have inside : column.val < 32 ∧ column.val < M / 2 := by omega
  have even : 2 * column.val / 2 = column.val := by omega
  have odd : (2 * column.val + 1) / 2 = column.val := by omega
  have evenBit : 2 * column.val % 2 = 0 := by omega
  have oddBit : (2 * column.val + 1) % 2 ≠ 0 := by omega
  rw [smul_eq_mul, mul_comm twiddle]
  constructor
  · apply Mersenne31Complex.ext
    · simp only [complexColumn, rowButterfly, even, if_pos inside]
      rfl
    · simp only [complexColumn, rowButterfly, odd, if_pos inside]
      rfl
  · apply Mersenne31Complex.ext
    · simp only [complexColumn, rowButterfly, even, dif_pos inside, coefficient, if_pos evenBit]
      rfl
    · simp only [complexColumn, rowButterfly, odd, dif_pos inside, coefficient, if_neg oddBit]
      rfl

theorem complexColumn_ifftFirstButterfly (u v : Row M) :
    complexColumn (ifftFirstButterfly u v).1 column =
        complexColumn u column - complexColumn v column ∧
      complexColumn (ifftFirstButterfly u v).2 column =
        complexColumn u column - complexColumn v column := by
  have even : 2 * column.val < 64 := by omega
  have odd : 2 * column.val + 1 < 64 := by omega
  have difference : complexColumn (ifftFirstButterfly u v).1 column =
      complexColumn u column - complexColumn v column := by
    apply Mersenne31Complex.ext
    · simp only [complexColumn, ifftFirstButterfly, if_pos even]
      rfl
    · simp only [complexColumn, ifftFirstButterfly, if_pos odd]
      rfl
  exact ⟨difference, difference⟩

theorem complexColumn_fftFirstButterfly (powForU powForV : Mersenne31Complex) (u v : Row M) :
    complexColumn (fftFirstButterfly powForU powForV u v).1 column =
        complexColumn u column * powForU + complexColumn v column * powForV ∧
      complexColumn (fftFirstButterfly powForU powForV u v).2 column =
        complexColumn u column * powForU - complexColumn v column * powForV := by
  have inside : column.val < 32 ∧ column.val < M / 2 := by omega
  have even : 2 * column.val / 2 = column.val := by omega
  have odd : (2 * column.val + 1) / 2 = column.val := by omega
  have evenBit : 2 * column.val % 2 = 0 := by omega
  have oddBit : (2 * column.val + 1) % 2 ≠ 0 := by omega
  constructor
  · apply Mersenne31Complex.ext
    · simp only [complexColumn, fftFirstButterfly, even, dif_pos inside, coefficient,
        if_pos evenBit]
      rfl
    · simp only [complexColumn, fftFirstButterfly, odd, dif_pos inside, coefficient,
        if_neg oddBit]
      rfl
  · apply Mersenne31Complex.ext
    · simp only [complexColumn, fftFirstButterfly, even, dif_pos inside, coefficient,
        if_pos evenBit]
      rfl
    · simp only [complexColumn, fftFirstButterfly, odd, dif_pos inside, coefficient,
        if_neg oddBit]
      rfl

end Columns

/-! ## The stages on one complex column -/

section Stages

/-- The butterfly of the first stage of `row_major_ifft`. -/
def differencesButterfly (u v : Mersenne31Complex) : Mersenne31Complex × Mersenne31Complex :=
  (u - v, u - v)

/-- The butterfly of the later stages: the sum is taken without the twiddle. -/
def halfTwiddledButterfly (s u v : Mersenne31Complex) : Mersenne31Complex × Mersenne31Complex :=
  (u + v, u - s • v)

/-- The places of a column after each stage behind a first butterfly. -/
def rowStages (first : Mersenne31Complex → Mersenne31Complex →
      Mersenne31Complex × Mersenne31Complex) (precomputations : List Mersenne31Complex) (n : ℕ)
    (memory : ℕ → Mersenne31Complex) : ℕ → ℕ → Mersenne31Complex :=
  fallingStages (stageUpdate (fun _ => first) halfTwiddledButterfly precomputations) n memory

variable {M n : ℕ} {precomputations : List Mersenne31Complex}

/-- The rounds of all columns at once are the rounds of every column. -/
theorem rows_holds (narrow : M ≤ 64) (fit : TwiddlesFit n precomputations) (several : n ≠ 0)
    (firstRow : ℕ → Row M → Row M → Row M × Row M)
    (first : Mersenne31Complex → Mersenne31Complex → Mersenne31Complex × Mersenne31Complex)
    {traceColumns : List (Row M)} (size : traceColumns.length = 2 ^ n) :
    ∃ result, naturalToBitreversed firstRow rowButterfly precomputations traceColumns =
        some result ∧
      ∀ (column : Fin (M / 2)) (memory : ℕ → Mersenne31Complex),
        (∀ j < 2 ^ (n - 1),
          let rows := firstRow j (traceColumns.getD j 0) (traceColumns.getD (j + 2 ^ (n - 1)) 0)
          first (memory j) (memory (j + 2 ^ (n - 1))) =
            (complexColumn rows.1 column, complexColumn rows.2 column)) →
        Holds (2 ^ n) (columnOf result column) (rowStages first precomputations n memory n) := by
  rcases naturalToBitreversed_holds firstRow rowButterfly fit several
    (Holds.of_getD size 0) with ⟨result, computed, holds⟩
  refine ⟨result, computed, ?_⟩
  intro column memory along
  apply (holds.map fun row => complexColumn row column).congr
  intro i bound
  symm
  refine fallingStages_map (fun row : Row M => complexColumn row column) 1 ?_ ?_
    (Nat.one_le_iff_ne_zero.mpr several) (Nat.le_refl n) bound
  · intro i bound
    rcases Nat.exists_eq_succ_of_ne_zero several with ⟨m, rfl⟩
    rw [Nat.pow_succ'] at bound
    rw [fallingStages_succ _ _ (Nat.zero_add (m + 1)), fallingStages_succ _ _ (Nat.zero_add (m + 1))]
    apply stageStep_map (fun row : Row M => complexColumn row column) (Nat.two_pow_pos m)
    intro low position
    have small : i % 2 ^ m < 2 ^ m := Nat.mod_lt i (Nat.two_pow_pos m)
    rw [Nat.div_eq_of_lt bound, Nat.zero_mul, Nat.zero_add] at position
    rw [← position] at small ⊢
    exact along low small
  · intro s m _ later block _ offset u v
    have other : s ≠ 0 := Nat.one_le_iff_ne_zero.mp later
    have column := complexColumn_rowButterfly narrow column (precomputations.getD block 0) u v
    rw [stageUpdate, stageUpdate, if_neg other, if_neg other, halfTwiddledButterfly, column.1,
      column.2]

/-- The twiddles that the serial transforms take: none is missing, and from 16 rows on there is one
for every group of the last stage. -/
def TakesTwiddles (n : ℕ) (precomputations : List Mersenne31Complex) : Prop :=
  TwiddlesFit n precomputations ∧ (4 ≤ n → precomputations.length * 2 = 2 ^ n)

/-- What the serial column transform gives on a column of the result. -/
theorem column_matches (takes : TakesTwiddles n precomputations) {column result :
    List Mersenne31Complex} {memory : ℕ → Mersenne31Complex} (holds : Holds (2 ^ n) column memory)
    {first : Mersenne31Complex → Mersenne31Complex → Mersenne31Complex × Mersenne31Complex}
    (resultHolds : Holds (2 ^ n) result (rowStages first precomputations n memory n)) :
    serialCtNttNaturalToBitreversed column precomputations = some result ↔
      ∀ i < 2 ^ n, nttStages precomputations n memory n i =
        rowStages first precomputations n memory n i := by
  rcases serialCtNttNaturalToBitreversed_holds takes.1 holds with ⟨serial, computed, serialHolds⟩
  rw [computed, Option.some.injEq]
  exact serialHolds.eq_iff resultHolds

/-- The assertion on the number of twiddles holds. -/
theorem TakesTwiddles.asserted (takes : TakesTwiddles n precomputations) (large : 16 ≤ 2 ^ n) :
    precomputations.length * 2 = 2 ^ n := by
  apply takes.2
  rw [show 16 = 2 ^ 4 by decide] at large
  exact (Nat.pow_le_pow_iff_right Nat.one_lt_two).mp large

section Transforms

variable (wide : 2 ≤ M) (narrow : M ≤ 64) (takes : TakesTwiddles n precomputations)
  (several : n ≠ 0) {traceColumns : List (Row M)} (size : traceColumns.length = 2 ^ n)

include wide narrow takes several size

theorem rowMajorIfft_columns :
    ∃ result, rowMajorIfft traceColumns precomputations = some result ∧
      ∀ column memory, Holds (2 ^ n) (columnOf traceColumns column) memory →
        (serialCtNttNaturalToBitreversed (columnOf traceColumns column) precomputations =
            some (columnOf result column) ↔
          ∀ i < 2 ^ n, nttStages precomputations n memory n i =
            rowStages differencesButterfly precomputations n memory n i) := by
  rcases rows_holds narrow takes.1 several (fun _ => ifftFirstButterfly) differencesButterfly size
    with ⟨result, computed, columns⟩
  refine ⟨result, ?_, ?_⟩
  · have more : 2 ^ n ≠ 1 := (Nat.one_lt_two_pow several).ne'
    rw [rowMajorIfft, size, guard_of wide, guard_of (Usize.isPowerOfTwo_two_pow n), if_neg more]
    by_cases large : 16 ≤ 2 ^ n
    · rw [if_pos large, guard_of (takes.asserted large)]
      exact computed
    · rw [if_neg large]
      exact computed
  · intro column memory holds
    apply column_matches takes holds
    apply columns column memory
    intro j bound
    dsimp only
    have halves : 2 ^ n = 2 * 2 ^ (n - 1) := (mul_pow_sub_one several 2).symm
    have entry := (holds.eq_iff ((Holds.of_getD size 0).map fun row =>
      complexColumn row column)).mp rfl
    have butterfly := complexColumn_ifftFirstButterfly narrow column
      (traceColumns.getD j 0) (traceColumns.getD (j + 2 ^ (n - 1)) 0)
    rw [entry j (by omega), entry (j + 2 ^ (n - 1)) (by omega), differencesButterfly, butterfly.1,
      butterfly.2]

theorem rowMajorFft_columns {powersToDistribute : List Mersenne31Complex}
    (powers : powersToDistribute.length = 2 ^ n) :
    ∃ result, rowMajorFft traceColumns precomputations powersToDistribute = some result ∧
      ∀ column memory,
        Holds (2 ^ n) ((columnOf traceColumns column).zipWith (· * ·) powersToDistribute)
          memory →
        (serialCtNttNaturalToBitreversed
            ((columnOf traceColumns column).zipWith (· * ·) powersToDistribute) precomputations =
            some (columnOf result column) ↔
          ∀ i < 2 ^ n, nttStages precomputations n memory n i =
            rowStages plainButterfly precomputations n memory n i) := by
  have halves : 2 ^ n = 2 * 2 ^ (n - 1) := (mul_pow_sub_one several 2).symm
  rcases rows_holds narrow takes.1 several
    (fun j => fftFirstButterfly (powersToDistribute.getD j 0)
      (powersToDistribute.getD (j + 2 ^ (n - 1)) 0)) plainButterfly size
    with ⟨result, computed, columns⟩
  refine ⟨result, ?_, ?_⟩
  · have more : 2 ^ n ≠ 1 := (Nat.one_lt_two_pow several).ne'
    have half : 2 ^ n / 2 = 2 ^ (n - 1) := by omega
    rw [rowMajorFft, size, guard_of wide, guard_of (Usize.isPowerOfTwo_two_pow n),
      guard_of powers.symm, if_neg more, half]
    by_cases large : 16 ≤ 2 ^ n
    · rw [if_pos large, guard_of (takes.asserted large)]
      exact computed
    · rw [if_neg large]
      exact computed
  · intro column memory holds
    apply column_matches takes holds
    apply columns column memory
    intro j bound
    dsimp only
    have entry := (holds.eq_iff (((Holds.of_getD size 0).map fun row =>
      complexColumn row column).zipWith (Holds.of_getD powers 0) (· * ·))).mp rfl
    have butterfly := complexColumn_fftFirstButterfly narrow column (powersToDistribute.getD j 0)
      (powersToDistribute.getD (j + 2 ^ (n - 1)) 0) (traceColumns.getD j 0)
      (traceColumns.getD (j + 2 ^ (n - 1)) 0)
    rw [entry j (by omega), entry (j + 2 ^ (n - 1)) (by omega), plainButterfly, butterfly.1,
      butterfly.2]

end Transforms

/-! ## When the transforms match -/

/-- Rows whose complex columns all hold the same values. -/
def sameColumns (M n : ℕ) (memory : ℕ → Mersenne31Complex) : List (Row M) :=
  (List.range (2 ^ n)).map fun i => coefficient (memory i)

theorem complexColumn_coefficient (value : Mersenne31Complex) (column : Fin (M / 2)) :
    complexColumn (coefficient value) column = value := by
  have even : 2 * column.val % 2 = 0 := by omega
  have odd : (2 * column.val + 1) % 2 ≠ 0 := by omega
  apply Mersenne31Complex.ext
  · exact if_pos even
  · exact if_neg odd

theorem length_sameColumns (memory : ℕ → Mersenne31Complex) :
    (sameColumns M n memory).length = 2 ^ n :=
  (Holds.map_range _).length

theorem sameColumns_holds (memory : ℕ → Mersenne31Complex) (column : Fin (M / 2)) :
    Holds (2 ^ n) (columnOf (sameColumns M n memory) column) memory := by
  apply ((Holds.map_range _).map fun row => complexColumn row column).congr
  intro i _
  exact complexColumn_coefficient (memory i) column

section Impulses

variable {first : Mersenne31Complex → Mersenne31Complex → Mersenne31Complex × Mersenne31Complex}
  {later : Mersenne31Complex → Mersenne31Complex → Mersenne31Complex →
    Mersenne31Complex × Mersenne31Complex}

/-- The first result where the middle place is one and the others are zero. -/
theorem impulse_head (zero : (first 0 0).1 = 0) (keeps : ∀ s u, (later s u 0).1 = u)
    (several : n ≠ 0) :
    fallingStages (stageUpdate (fun _ => first) later precomputations) n
      (fun i => if i = 2 ^ (n - 1) then 1 else 0) n 0 = (first 0 1).1 := by
  have positive := Nat.two_pow_pos (n - 1)
  rw [fallingStages_head ?_ ?_ (Nat.add_zero n) several Nat.one_pos, if_pos rfl,
    fallingStages_one_low _ several positive, stageUpdate, if_pos rfl, if_neg (by omega),
    if_pos (Nat.zero_add _)]
  · intro s other block offset u
    rw [stageUpdate, if_neg other]
    exact keeps _ u
  · intro j after before
    rw [fallingStages_one_low _ several before, stageUpdate, if_pos rfl, if_neg (by omega),
      if_neg (by omega), zero]

/-- The results at the even places where the place 1 is one and the others are zero. -/
theorem impulse_last (copies : ∀ u, first u 0 = (u, u)) (laterCopies : ∀ s u, later s u 0 = (u, u))
    (several : 2 ≤ n) (k : ℕ) :
    fallingStages (stageUpdate (fun _ => first) later precomputations) n
      (fun i => if i % 2 ^ n = 1 then 1 else 0) n (k * 2) =
        (later (precomputations.getD k 0) 0 1).1 := by
  rcases Nat.exists_eq_add_of_le' several with ⟨s, rfl⟩
  have copying : ∀ t block offset u,
      stageUpdate (fun _ => first) later precomputations t block offset u 0 = (u, u) := by
    intro t block offset u
    by_cases initial : t = 0
    · rw [stageUpdate, if_pos initial, copies]
    · rw [stageUpdate, if_neg initial, laterCopies]
  have size : s + 1 + (0 + 1) = s + 2 := rfl
  have place : k * 2 = k * (2 * 2 ^ 0) + 0 := rfl
  have even : k * 2 % 2 ^ (0 + 1) ≠ 1 := by omega
  have odd : (k * 2 + 2 ^ 0) % 2 ^ (0 + 1) = 1 := by omega
  have single : 0 < 2 ^ 0 := Nat.one_pos
  rw [fallingStages_succ _ _ size, place, stageStep_low _ k single, ← place,
    fallingStages_copies copying size, fallingStages_copies copying size, if_neg even, if_pos odd,
    stageUpdate, if_neg s.succ_ne_zero]

end Impulses

theorem not_ifftMatchesColumns (wide : 2 ≤ M) (narrow : M ≤ 64)
    (takes : TakesTwiddles n precomputations) (several : n ≠ 0) :
    ¬ IfftMatchesColumns M n precomputations := by
  intro matching
  let impulse : ℕ → Mersenne31Complex := fun i => if i = 2 ^ (n - 1) then 1 else 0
  let column : Fin (M / 2) := ⟨0, by omega⟩
  have size : (sameColumns M n impulse).length = 2 ^ n := length_sameColumns impulse
  rcases matching _ size with ⟨result, computed, agree⟩
  rcases rowMajorIfft_columns wide narrow takes several size with ⟨result', computed', agree'⟩
  rw [Option.some.inj (computed.symm.trans computed')] at agree
  have heads := (agree' column impulse (sameColumns_holds impulse column)).mp (agree column) 0
    (Nat.two_pow_pos n)
  rw [nttStages, rowStages, impulse_head (add_zero 0) (fun s u => by
      rw [twiddledButterfly, smul_zero, add_zero]) several,
    impulse_head (sub_zero 0) (fun s u => add_zero u) several, plainButterfly,
    differencesButterfly, zero_add, zero_sub] at heads
  have real : (1 : F) = -1 := congrArg Mersenne31Complex.c0 heads
  exact absurd real (by decide)

theorem not_fftMatchesColumns_one_row (wide : 2 ≤ M) : ¬ FftMatchesColumns M 0 precomputations := by
  intro matching
  let column : Fin (M / 2) := ⟨0, by omega⟩
  rcases matching [coefficient 1] [0] rfl rfl with ⟨result, computed, agree⟩
  have unchanged : rowMajorFft [(coefficient 1 : Row M)] precomputations [0] =
      some [coefficient 1] := by
    rw [rowMajorFft, guard_of wide]
    rfl
  rw [Option.some.inj (computed.symm.trans unchanged)] at agree
  have single := agree column
  rw [columnOf, List.map_singleton, complexColumn_coefficient, List.zipWith_cons_cons, mul_zero] at single
  have real : (0 : F) = 1 := congrArg (fun a => (a.getD [] |>.getD 0 0).c0) single
  exact absurd real zero_ne_one

theorem fftMatchesColumns_iff (wide : 2 ≤ M) (narrow : M ≤ 64)
    (takes : TakesTwiddles n precomputations) (several : n ≠ 0) :
    FftMatchesColumns M n precomputations ↔
      n = 1 ∨ ∀ k < 2 ^ (n - 1), precomputations.getD k 0 = 1 := by
  constructor
  · intro matching
    by_cases pair : n = 1
    · exact Or.inl pair
    right
    intro k bound
    let impulse : ℕ → Mersenne31Complex := fun i => if i % 2 ^ n = 1 then 1 else 0
    let column : Fin (M / 2) := ⟨0, by omega⟩
    have ones : Holds (2 ^ n) ((List.range (2 ^ n)).map fun _ => (1 : Mersenne31Complex))
      fun _ => 1 := Holds.map_range _
    have holds : Holds (2 ^ n) ((columnOf (sameColumns M n impulse) column).zipWith (· * ·)
        ((List.range (2 ^ n)).map fun _ => 1)) impulse := by
      apply ((sameColumns_holds impulse column).zipWith ones (· * ·)).congr
      intro i _
      exact mul_one (impulse i)
    have size : (sameColumns M n impulse).length = 2 ^ n := length_sameColumns impulse
    rcases matching _ _ size ones.length with ⟨result, computed, agree⟩
    rcases rowMajorFft_columns wide narrow takes several size ones.length with
      ⟨result', computed', agree'⟩
    rw [Option.some.inj (computed.symm.trans computed')] at agree
    have halves : 2 ^ n = 2 * 2 ^ (n - 1) := (mul_pow_sub_one several 2).symm
    have results := (agree' column impulse holds).mp (agree column) (k * 2) (by omega)
    have copies : ∀ u : Mersenne31Complex, plainButterfly u 0 = (u, u) := by
      intro u
      rw [plainButterfly, add_zero, sub_zero]
    have large : 2 ≤ n := by omega
    rw [nttStages, rowStages, impulse_last copies ?_ large, impulse_last copies ?_ large,
      twiddledButterfly, halfTwiddledButterfly, zero_add, zero_add, smul_eq_mul, mul_one] at results
    · exact results
    · intro s u
      rw [halfTwiddledButterfly, smul_zero, add_zero, sub_zero]
    · intro s u
      rw [twiddledButterfly, smul_zero, add_zero, sub_zero]
  · intro condition traceColumns powersToDistribute size powers
    rcases rowMajorFft_columns wide narrow takes several size powers with
      ⟨result, computed, agree⟩
    refine ⟨result, computed, ?_⟩
    intro column
    have holds := ((Holds.of_getD size 0).map fun row => complexColumn row column).zipWith
      (Holds.of_getD powers 0) (· * ·)
    rw [agree column _ holds]
    intro i bound
    refine fallingStages_map id 1 ?_ ?_ (Nat.one_le_iff_ne_zero.mpr several) (Nat.le_refl n) bound
    · intro i _
      rfl
    · intro s m whole later block inside offset u v
      have other : s ≠ 0 := Nat.one_le_iff_ne_zero.mp later
      rcases condition with pair | ones
      · omega
      · have last : 2 ^ s ≤ 2 ^ (n - 1) := Nat.pow_le_pow_right Nat.two_pos (by omega)
        rw [stageUpdate, stageUpdate, if_neg other, if_neg other,
          ones block (inside.trans_le last), twiddledButterfly, halfTwiddledButterfly, one_smul,
          one_smul]
        rfl

theorem ifftMatchesColumns_one_row (wide : 2 ≤ M) : IfftMatchesColumns M 0 precomputations := by
  intro traceColumns size
  refine ⟨traceColumns, ?_, ?_⟩
  · rw [rowMajorIfft, guard_of wide, size]
    rfl
  · intro column
    rw [serialCtNttNaturalToBitreversed, columnOf, List.length_map, size, if_pos (Nat.pow_zero 2)]

/-- The transforms of rows match those of columns exactly where no later stage has a twiddle and,
for `row_major_ifft`, where there is no stage at all. -/
theorem rowMajorTransforms_match_iff (wide : 2 ≤ M) (narrow : M ≤ 64)
    (takes : TakesTwiddles n precomputations) :
    (IfftMatchesColumns M n precomputations ↔ n = 0) ∧
      (FftMatchesColumns M n precomputations ↔
        n = 1 ∨ 2 ≤ n ∧ ∀ k < 2 ^ (n - 1), precomputations.getD k 0 = 1) := by
  by_cases single : n = 0
  · subst single
    constructor
    · exact iff_of_true (ifftMatchesColumns_one_row wide) rfl
    · apply iff_of_false (not_fftMatchesColumns_one_row wide)
      rintro (pair | several)
      · omega
      · omega
  · constructor
    · exact iff_of_false (not_ifftMatchesColumns wide narrow takes single) single
    · rw [fftMatchesColumns_iff wide narrow takes single]
      have several : n ≠ 1 → 2 ≤ n := by omega
      by_cases pair : n = 1
      · exact iff_of_true (Or.inl pair) (Or.inl pair)
      · rw [or_iff_right pair, or_iff_right pair, and_iff_right (several pair)]

theorem rowMajorTransforms_match_iff_two_rows :
    (IfftMatchesColumns 2 1 [1] ↔ 1 = 0) ∧
      (FftMatchesColumns 2 1 [1] ↔ 1 = 1 ∨ 2 ≤ 1 ∧
        ∀ k < 2 ^ (1 - 1), [(1 : Mersenne31Complex)].getD k 0 = 1) := by
  have fit : TwiddlesFit 1 [(1 : Mersenne31Complex)] := by
    intro m size
    rw [Nat.succ.inj size]
    exact Nat.le_refl 1
  exact rowMajorTransforms_match_iff (Nat.le_refl 2) (by decide)
    ⟨fit, fun large => absurd large (by decide)⟩

/-- On the rows zero and one `row_major_ifft` gives minus one twice. -/
theorem rowMajorIfft_differs :
    let traceColumns : List (Row 2) := [![0, 0], ![1, 0]]
    (rowMajorIfft traceColumns [1]).map (fun result => columnOf result 0) = some [-1, -1] ∧
      serialCtNttNaturalToBitreversed (columnOf traceColumns 0) [(1 : Mersenne31Complex)] =
        some [1, -1] ∧ (-1 : Mersenne31Complex) ≠ 1 := by
  refine ⟨?_, ?_, ?_⟩
  · decide
  · decide
  · decide

end Stages

end Airbender.Fft
