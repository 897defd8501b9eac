import Airbender.Fft.Worker
import Airbender.Field.Element

/-!
# Traces whose columns sum to zero

`adjust_to_zero_c0_var_length` sums the rows above the last one, in `u64` and on several threads,
and puts the negated sums into the last row.
-/

namespace Airbender.Fft

open Circuit (F)
open Mersenne31 (Element)

/-- A table of stored field elements.  A row is padded to an even number of columns. -/
structure RowMajorTrace where
  width : ℕ
  length : ℕ
  paddedWidth : ℕ
  widthPadded : width ≤ paddedWidth
  paired : 2 ∣ paddedWidth
  el : ℕ → ℕ → Element

/-- The part of a row in a range of columns. -/
def RowMajorTrace.rowPart (trace : RowMajorTrace) (columns : List ℕ) (row : ℕ) : List Element :=
  columns.map (trace.el row)

/-- A trace whose last row was replaced in the columns from `start` below `stop`. -/
def RowMajorTrace.withLastRow (trace : RowMajorTrace) (start stop : ℕ) (factors : List Element) :
    RowMajorTrace :=
  { trace with
    el := fun row column =>
      if row = trace.length - 1 ∧ start ≤ column ∧ column < stop then
        factors.getD (column - start) .zero
      else
        trace.el row column }

/-- Adds a row to the accumulators; an overflow of `u64` is a panic. -/
def addRow (dst : List U64) (row : List Element) : Option (List U64) :=
  (dst.zip row).mapM fun (sum, columnValue) => checkedAdd sum columnValue.asU64

/-- What one thread does with its chunk of the rows. -/
def accumulateChunk (trace : RowMajorTrace) (columns rows : List ℕ) : Option (List U64) :=
  rows.foldlM (fun dst row => addRow dst (trace.rowPart columns row))
    (List.replicate columns.length 0)

/-- The factors of the last row after the accumulators of one thread. -/
def subAccumulators (factors : List Element) (accumulators : List U64) : List Element :=
  (factors.zip accumulators).map fun (dst, src) => dst.subAssign (.fromU64WithReduction src)

/-- `adjust_to_zero_c0_var_length` on the columns from `start` below `stop`. -/
def adjustToZeroC0VarLength (numCores : ℕ) (trace : RowMajorTrace) (start stop : ℕ) :
    Option RowMajorTrace := do
  guard (stop ≤ trace.width)
  guard (start ≤ stop)
  guard (numCores * trace.length < 2 ^ 32)
  let columns := List.range' start (stop - start)
  let chunks ← workChunks numCores (trace.length - 1)
  let perThreadAccumulators ← chunks.mapM fun chunk =>
    accumulateChunk trace columns (positions chunk)
  let adjustmentFactors := perThreadAccumulators.foldl subAccumulators
    (List.replicate columns.length .zero)
  return trace.withLastRow start stop adjustmentFactors

/-! ## The accumulators -/

/-- The sum of the words stored in some rows of a column. -/
def wordSum (trace : RowMajorTrace) (column : ℕ) (rows : List ℕ) : ℕ :=
  (rows.map fun row => (trace.el row column).raw.toNat).sum

@[simp] theorem wordSum_nil (trace : RowMajorTrace) (column : ℕ) : wordSum trace column [] = 0 :=
  List.sum_nil

@[simp] theorem wordSum_cons (trace : RowMajorTrace) (column row : ℕ) (rows : List ℕ) :
    wordSum trace column (row :: rows) =
      (trace.el row column).raw.toNat + wordSum trace column rows := by
  rw [wordSum, List.map_cons, List.sum_cons, wordSum]

theorem addRow_eq {trace : RowMajorTrace} {columns : List ℕ} {row : ℕ} {sums : ℕ → ℕ}
    (bounds : ∀ column ∈ columns, sums column + 2 ^ 31 ≤ 2 ^ 64) :
    addRow (columns.map fun column => BitVec.ofNat 64 (sums column)) (trace.rowPart columns row) =
      some (columns.map fun column =>
        BitVec.ofNat 64 (sums column + (trace.el row column).raw.toNat)) := by
  have pairs : (columns.map fun column => BitVec.ofNat 64 (sums column)).zip
      (trace.rowPart columns row) =
      columns.map fun column => (BitVec.ofNat 64 (sums column), trace.el row column) :=
    List.zip_map'
  rw [addRow, pairs, List.mapM_map]
  apply mapM_eq_some
  intro column member
  have bound := bounds column member
  have stored := (trace.el row column).bound
  have sum : (BitVec.ofNat 64 (sums column)).toNat = sums column := by
    rw [BitVec.toNat_ofNat]
    omega
  apply (checkedAdd_eq_some_iff _ _ _).mpr
  rw [sum, Element.toNat_asU64]
  refine ⟨by omega, ?_⟩
  apply BitVec.eq_of_toNat_eq
  rw [BitVec.toNat_add, sum, Element.toNat_asU64, BitVec.toNat_ofNat]

theorem foldlM_addRow_eq {trace : RowMajorTrace} {columns rows : List ℕ} {sums : ℕ → ℕ}
    (bounds : ∀ column ∈ columns, sums column + rows.length * 2 ^ 31 ≤ 2 ^ 64) :
    rows.foldlM (fun dst row => addRow dst (trace.rowPart columns row))
        (columns.map fun column => BitVec.ofNat 64 (sums column)) =
      some (columns.map fun column =>
        BitVec.ofNat 64 (sums column + wordSum trace column rows)) := by
  induction rows generalizing sums with
  | nil =>
      rw [List.foldlM_nil]
      simp only [wordSum_nil, Nat.add_zero, Option.pure_def]
  | cons row rows inductionHypothesis =>
      have first : ∀ column ∈ columns, sums column + 2 ^ 31 ≤ 2 ^ 64 := by
        intro column member
        have bound := bounds column member
        rw [List.length_cons, Nat.add_mul, Nat.one_mul] at bound
        exact (Nat.add_le_add_left (Nat.le_add_left _ _) _).trans bound
      have rest : ∀ column ∈ columns, sums column + (trace.el row column).raw.toNat +
          rows.length * 2 ^ 31 ≤ 2 ^ 64 := by
        intro column member
        have bound := bounds column member
        have stored := (trace.el row column).bound
        rw [List.length_cons, Nat.add_mul, Nat.one_mul] at bound
        linarith
      rw [List.foldlM_cons, addRow_eq first]
      change rows.foldlM (fun dst row => addRow dst (trace.rowPart columns row)) _ = _
      rw [inductionHypothesis rest]
      congr 1
      apply List.map_congr_left
      intro column _
      rw [wordSum_cons, Nat.add_assoc]

theorem accumulateChunk_eq {trace : RowMajorTrace} {columns rows : List ℕ}
    (few : rows.length ≤ 2 ^ 32) :
    accumulateChunk trace columns rows =
      some (columns.map fun column => BitVec.ofNat 64 (wordSum trace column rows)) := by
  have empty : List.replicate columns.length (0 : U64) =
      columns.map fun _ => BitVec.ofNat 64 0 := List.map_const'.symm
  rw [accumulateChunk, empty, foldlM_addRow_eq (fun column _ => by omega)]
  simp only [Nat.zero_add]

theorem wordSum_lt {trace : RowMajorTrace} {column : ℕ} {rows : List ℕ}
    (few : rows.length ≤ 2 ^ 32) : wordSum trace column rows < 2 ^ 64 := by
  have bound : wordSum trace column rows ≤ rows.length * 2 ^ 31 := by
    rw [wordSum, ← List.length_map (fun row => (trace.el row column).raw.toNat)]
    apply List.sum_le_card_nsmul
    intro word member
    obtain ⟨row, _, rfl⟩ := List.mem_map.mp member
    exact (trace.el row column).bound.le
  omega

/-! ## The adjusted row -/

/-- The sum of a column over some rows, as a field element. -/
def residueSum (trace : RowMajorTrace) (column : ℕ) (rows : List ℕ) : F :=
  (rows.map fun row => (trace.el row column).value).sum

theorem residueSum_eq (trace : RowMajorTrace) (column : ℕ) (rows : List ℕ) :
    residueSum trace column rows = (wordSum trace column rows : F) := by
  rw [residueSum, wordSum, Nat.cast_list_sum, List.map_map]
  rfl

/-- The factors lose the sums of one chunk after the other. -/
theorem foldl_subAccumulators_eq (trace : RowMajorTrace) (columns : List ℕ)
    {chunks : List (ℕ × ℕ)} (few : ∀ chunk ∈ chunks, (positions chunk).length ≤ 2 ^ 32)
    (factors : ℕ → Element) :
    ∃ result : ℕ → Element, (chunks.map fun chunk => columns.map fun column =>
        BitVec.ofNat 64 (wordSum trace column (positions chunk))).foldl subAccumulators
          (columns.map factors) = columns.map result ∧
      ∀ column, (result column).value =
        (factors column).value - residueSum trace column (chunks.flatMap positions) := by
  induction chunks generalizing factors with
  | nil =>
      refine ⟨factors, rfl, ?_⟩
      intro column
      exact (sub_zero _).symm
  | cons chunk chunks inductionHypothesis =>
      obtain ⟨headFew, restFew⟩ := List.forall_mem_cons.mp few
      obtain ⟨result, computed, values⟩ := inductionHypothesis restFew fun column =>
        (factors column).subAssign (.fromU64WithReduction (BitVec.ofNat 64
          (wordSum trace column (positions chunk))))
      refine ⟨result, ?_, ?_⟩
      · rw [List.map_cons, List.foldl_cons, ← computed, subAccumulators, List.zip_map',
          List.map_map]
        rfl
      · intro column
        rw [values, Element.value_subAssign, Element.value_fromU64WithReduction,
          BitVec.toNat_ofNat, Nat.mod_eq_of_lt (wordSum_lt headFew), ← residueSum_eq,
          List.flatMap_cons]
        have joined : residueSum trace column (positions chunk ++ chunks.flatMap positions) =
            residueSum trace column (positions chunk) +
              residueSum trace column (chunks.flatMap positions) := by
          rw [residueSum, List.map_append, List.sum_append, residueSum, residueSum]
        rw [joined]
        ring

theorem residueSum_congr {trace other : RowMajorTrace} {column : ℕ} {rows : List ℕ}
    (same : ∀ row ∈ rows, trace.el row column = other.el row column) :
    residueSum trace column rows = residueSum other column rows := by
  rw [residueSum, residueSum]
  congr 1
  apply List.map_congr_left
  intro row member
  rw [same row member]

/-- What the adjustment leaves behind. -/
structure AdjustedToZero (trace adjusted : RowMajorTrace) (start stop : ℕ) : Prop where
  length : adjusted.length = trace.length
  paddedWidth : adjusted.paddedWidth = trace.paddedWidth
  /-- Every column of the range sums to zero. -/
  sums : ∀ column, start ≤ column → column < stop →
    residueSum adjusted column (List.range adjusted.length) = 0
  /-- Nothing changes outside the range and above the last row. -/
  unchanged : ∀ row column, ¬(row = trace.length - 1 ∧ start ≤ column ∧ column < stop) →
    adjusted.el row column = trace.el row column

/-- The adjustment passes its assertions and keeps its promise. -/
theorem adjustToZeroC0VarLength_spec {numCores : ℕ} {trace : RowMajorTrace} {start stop : ℕ}
    (cores : numCores ≠ 0) (rows : 1 < trace.length) (small : numCores * trace.length < 2 ^ 32)
    (ordered : start ≤ stop) (fits : stop ≤ trace.width) :
    ∃ adjusted, adjustToZeroC0VarLength numCores trace start stop = some adjusted ∧
      AdjustedToZero trace adjusted start stop := by
  obtain ⟨chunks, chunked, flattened⟩ :=
    workChunks_eq cores (show trace.length - 1 ≠ 0 by omega)
  have few : ∀ chunk ∈ chunks, (positions chunk).length ≤ 2 ^ 32 := by
    intro chunk member
    have part := chunk_le_of_flatMap flattened member
    have positive : trace.length ≤ numCores * trace.length :=
      Nat.le_mul_of_pos_left _ (Nat.pos_of_ne_zero cores)
    rw [positions, List.length_range']
    omega
  have accumulated : chunks.mapM (fun chunk => accumulateChunk trace
        (List.range' start (stop - start)) (positions chunk)) =
      some (chunks.map fun chunk => (List.range' start (stop - start)).map fun column =>
        BitVec.ofNat 64 (wordSum trace column (positions chunk))) := by
    apply mapM_eq_some
    intro chunk member
    exact accumulateChunk_eq (few chunk member)
  have initial : List.replicate (List.range' start (stop - start)).length Element.zero =
      (List.range' start (stop - start)).map fun _ => Element.zero := List.map_const'.symm
  obtain ⟨factors, computed, values⟩ := foldl_subAccumulators_eq trace
    (List.range' start (stop - start)) few fun _ => Element.zero
  refine ⟨trace.withLastRow start stop ((List.range' start (stop - start)).map factors), ?_, ?_⟩
  · simp only [adjustToZeroC0VarLength, guard_of fits, guard_of ordered, guard_of small, chunked,
      accumulated, initial, computed, Option.bind_eq_bind, Option.bind_some, Option.pure_def]
  have factor : ∀ column, start ≤ column → column < stop →
      ((List.range' start (stop - start)).map factors).getD (column - start) .zero =
        factors column := by
    intro column above below
    have inside : column - start < stop - start := by omega
    rw [List.getD_eq_getElem?_getD, List.getElem?_map, List.getElem?_range' inside,
      Option.map_some, Option.getD_some, Nat.one_mul, Nat.add_sub_cancel' above]
  refine ⟨rfl, rfl, ?_, ?_⟩
  · intro column above below
    have last : (trace.withLastRow start stop ((List.range' start (stop - start)).map factors)).el
        (trace.length - 1) column = factors column := by
      rw [← factor column above below]
      exact if_pos ⟨rfl, above, below⟩
    have others : residueSum (trace.withLastRow start stop
        ((List.range' start (stop - start)).map factors)) column (List.range (trace.length - 1)) =
        residueSum trace column (List.range (trace.length - 1)) := by
      apply residueSum_congr
      intro row member
      have before := List.mem_range.mp member
      exact if_neg fun replaced => absurd replaced.1 (by omega)
    have rowCount : trace.length = trace.length - 1 + 1 := by omega
    change residueSum _ column (List.range trace.length) = 0
    rw [rowCount, List.range_succ, residueSum, List.map_append, List.sum_append, ← residueSum,
      others, List.map_singleton, List.sum_singleton, last, values, flattened,
      Element.value_zero]
    ring
  · intro row column outside
    exact if_neg outside

end Airbender.Fft
