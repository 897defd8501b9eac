import Mathlib.Algebra.Algebra.Basic
import Mathlib.Data.List.GetD
import Mathlib.Data.List.Pairwise
import Airbender.Circuit.Field

/-!
# Lazy initialisation and teardown of RAM

The columns of `compile_init_and_teardown_circuit` and the constraints the prover puts on
them.  A set of columns lists addresses; the final borrow of `this - next` is 1 where the
next address is larger, and doubles as the padding flag.
-/

namespace Airbender.Circuit

/-! ## Columns and constraints -/

/-- One row of one set: the memory columns, then the comparison variables. -/
structure InitAndTeardownRow where
  lazyInitAddressLow : F
  lazyInitAddressHigh : F
  teardownValueLow : F
  teardownValueHigh : F
  teardownTimestampLow : F
  teardownTimestampHigh : F
  auxLow : F
  auxHigh : F
  intermediateBorrow : F
  finalBorrow : F

namespace InitAndTeardownRow

/-- The 32-bit address that the two limbs hold. -/
def address (row : InitAndTeardownRow) : Nat :=
  row.lazyInitAddressLow.val + 2 ^ 16 * row.lazyInitAddressHigh.val

/-- The values that the padding constraint multiplies with the flag, in its order. -/
def padded (row : InitAndTeardownRow) : List F :=
  [row.lazyInitAddressLow, row.lazyInitAddressHigh, row.teardownValueLow,
    row.teardownValueHigh, row.teardownTimestampLow, row.teardownTimestampHigh]

/-- The range checks and boolean constraints of a row. -/
structure InRange (row : InitAndTeardownRow) : Prop where
  addressLow : IsU16 row.lazyInitAddressLow
  addressHigh : IsU16 row.lazyInitAddressHigh
  auxLow : IsU16 row.auxLow
  auxHigh : IsU16 row.auxHigh
  intermediateBorrow : IsBoolean row.intermediateBorrow
  finalBorrow : IsBoolean row.finalBorrow

/-- `evaluate_memory_init_teardown_padding`. -/
def PaddingConstraint (row : InitAndTeardownRow) : Prop :=
  ∀ value ∈ row.padded, (row.finalBorrow - 1) * value = 0

/-- `evaluate_memory_init_teardown_ordering`, between a row and the next row of the set. -/
structure OrderingConstraint (row next : InitAndTeardownRow) : Prop where
  low : 65536 * row.intermediateBorrow + row.lazyInitAddressLow - next.lazyInitAddressLow -
    row.auxLow = 0
  high : 65536 * row.finalBorrow + row.lazyInitAddressHigh - row.intermediateBorrow -
    next.lazyInitAddressHigh - row.auxHigh = 0

/-- A padding row keeps the flag clear. -/
def IsPadding (row : InitAndTeardownRow) : Prop := row.finalBorrow = 0

instance (row : InitAndTeardownRow) : Decidable row.IsPadding :=
  inferInstanceAs (Decidable (_ = _))

end InitAndTeardownRow

/-- The constraints on the rows of one set in a trace of `traceLen` rows.  The last row is
exempt from all of them, and the row before it has no successor to be compared with. -/
structure InitAndTeardownColumn (traceLen : Nat) (column : Nat → InitAndTeardownRow) :
    Prop where
  inRange : ∀ i, i + 1 < traceLen → (column i).InRange
  padding : ∀ i, i + 1 < traceLen → (column i).PaddingConstraint
  ordering : ∀ i, i + 2 < traceLen → (column i).OrderingConstraint (column (i + 1))

/-- The challenges of the memory argument that the init and teardown tuples use. -/
structure MemoryArgumentChallenges (K : Type) where
  addressLow : K
  addressHigh : K
  valueLow : K
  valueHigh : K
  timestampLow : K
  timestampHigh : K
  gamma : K

section GrandProduct

variable {K : Type} [Field K] [Algebra F K]

/-- The initial tuple of a row: value and timestamp are zero and have no columns. -/
def InitAndTeardownRow.numerator (row : InitAndTeardownRow)
    (challenges : MemoryArgumentChallenges K) : K :=
  challenges.addressLow * algebraMap F K row.lazyInitAddressLow +
    challenges.addressHigh * algebraMap F K row.lazyInitAddressHigh + challenges.gamma

/-- The teardown tuple of a row. -/
def InitAndTeardownRow.denom (row : InitAndTeardownRow)
    (challenges : MemoryArgumentChallenges K) : K :=
  challenges.addressLow * algebraMap F K row.lazyInitAddressLow +
    challenges.addressHigh * algebraMap F K row.lazyInitAddressHigh +
    challenges.valueLow * algebraMap F K row.teardownValueLow +
    challenges.valueHigh * algebraMap F K row.teardownValueHigh +
    challenges.timestampLow * algebraMap F K row.teardownTimestampLow +
    challenges.timestampHigh * algebraMap F K row.teardownTimestampHigh + challenges.gamma

/-- `evaluate_memory_init_teardown_accumulation` for one set. -/
def InitAndTeardownRow.Accumulates (row : InitAndTeardownRow)
    (challenges : MemoryArgumentChallenges K) (previous accumulator : K) : Prop :=
  accumulator * row.denom challenges - previous * row.numerator challenges = 0

end GrandProduct

/-! ## The comparison of two rows -/

namespace InitAndTeardownRow

variable {row next : InitAndTeardownRow}

theorem InRange.address_lt (range : row.InRange) : row.address < 2 ^ 32 := by
  have low := range.addressLow
  have high := range.addressHigh
  rw [IsU16] at low high
  rw [address]
  omega

theorem InRange.finalBorrow_eq_one (range : row.InRange) (real : ¬ row.IsPadding) :
    row.finalBorrow = 1 := by
  rcases isBoolean_iff.mp range.finalBorrow with zero | one
  · exact absurd zero real
  · exact one

/-- The two limb equations say `this + 2^32 * borrow = next + aux`. -/
theorem OrderingConstraint.address_eq (ordering : row.OrderingConstraint next)
    (range : row.InRange) (nextRange : next.InRange) :
    ∃ aux < 2 ^ 32, row.address + 2 ^ 32 * row.finalBorrow.val = next.address + aux := by
  have auxLow := range.auxLow
  have auxHigh := range.auxHigh
  have thisLow := range.addressLow
  have thisHigh := range.addressHigh
  have nextLow := nextRange.addressLow
  have nextHigh := nextRange.addressHigh
  have intermediate := range.intermediateBorrow.val_le_one
  have final := range.finalBorrow.val_le_one
  rw [IsU16] at auxLow auxHigh thisLow thisHigh nextLow nextHigh
  have low : (65536 * row.intermediateBorrow.val + row.lazyInitAddressLow.val -
      next.lazyInitAddressLow.val - row.auxLow.val : ℤ) = 0 := by
    apply eq_zero_of_small
    · simpa using ordering.low
    · omega
    · omega
  have high : (65536 * row.finalBorrow.val + row.lazyInitAddressHigh.val -
      row.intermediateBorrow.val - next.lazyInitAddressHigh.val - row.auxHigh.val : ℤ) = 0 := by
    apply eq_zero_of_small
    · simpa using ordering.high
    · omega
    · omega
  refine ⟨row.auxLow.val + 2 ^ 16 * row.auxHigh.val, by omega, ?_⟩
  rw [address, address]
  omega

/-- A row with the borrow set is followed by a larger address. -/
theorem OrderingConstraint.address_lt (ordering : row.OrderingConstraint next)
    (range : row.InRange) (nextRange : next.InRange) (real : ¬ row.IsPadding) :
    row.address < next.address := by
  rcases ordering.address_eq range nextRange with ⟨aux, auxBound, equation⟩
  rw [range.finalBorrow_eq_one real, ZMod.val_one] at equation
  omega

theorem PaddingConstraint.eq_zero (constraint : row.PaddingConstraint)
    (padding : row.IsPadding) {value : F} (member : value ∈ row.padded) : value = 0 := by
  have product := constraint value member
  rw [IsPadding] at padding
  rw [padding, zero_sub, neg_one_mul, neg_eq_zero] at product
  exact product

theorem PaddingConstraint.address_eq_zero (constraint : row.PaddingConstraint)
    (padding : row.IsPadding) : row.address = 0 := by
  have low : row.lazyInitAddressLow = 0 := constraint.eq_zero padding (by simp [padded])
  have high : row.lazyInitAddressHigh = 0 := constraint.eq_zero padding (by simp [padded])
  rw [address, low, high, ZMod.val_zero, Nat.mul_zero]

section GrandProduct

variable {K : Type} [Field K] [Algebra F K]

theorem PaddingConstraint.numerator_eq_denom (constraint : row.PaddingConstraint)
    (padding : row.IsPadding) (challenges : MemoryArgumentChallenges K) :
    row.numerator challenges = row.denom challenges := by
  have valueLow : row.teardownValueLow = 0 := constraint.eq_zero padding (by simp [padded])
  have valueHigh : row.teardownValueHigh = 0 := constraint.eq_zero padding (by simp [padded])
  have timestampLow : row.teardownTimestampLow = 0 :=
    constraint.eq_zero padding (by simp [padded])
  have timestampHigh : row.teardownTimestampHigh = 0 :=
    constraint.eq_zero padding (by simp [padded])
  rw [numerator, denom, valueLow, valueHigh, timestampLow, timestampHigh]
  simp

/-- The contribution of a padding row to the grand product is one. -/
theorem PaddingConstraint.accumulates_iff (constraint : row.PaddingConstraint)
    (padding : row.IsPadding) (challenges : MemoryArgumentChallenges K) (previous accumulator : K)
    (nonzero : row.denom challenges ≠ 0) :
    row.Accumulates challenges previous accumulator ↔ accumulator = previous := by
  rw [Accumulates, constraint.numerator_eq_denom padding, ← sub_mul, mul_eq_zero, sub_eq_zero]
  exact or_iff_left nonzero

end GrandProduct

end InitAndTeardownRow

/-! ## Whole columns -/

namespace InitAndTeardownColumn

variable {traceLen : Nat} {column : Nat → InitAndTeardownRow}

/-- A real row is followed by a real row: its successor has a larger address, and a padding
row has address zero. -/
theorem real_succ (satisfied : InitAndTeardownColumn traceLen column) {i : Nat}
    (inside : i + 2 < traceLen) (real : ¬ (column i).IsPadding) :
    ¬ (column (i + 1)).IsPadding := by
  intro padding
  have larger := (satisfied.ordering i inside).address_lt (satisfied.inRange i (by omega))
    (satisfied.inRange (i + 1) inside) real
  rw [(satisfied.padding (i + 1) inside).address_eq_zero padding] at larger
  exact Nat.not_lt_zero _ larger

/-- From a real row to the end of the column all rows are real and their addresses grow. -/
theorem real_of_le (satisfied : InitAndTeardownColumn traceLen column) {i j : Nat}
    (order : i ≤ j) (inside : j + 1 < traceLen) (real : ¬ (column i).IsPadding) :
    ¬ (column j).IsPadding := by
  induction j, order using Nat.le_induction with
  | base => exact real
  | succ j _ hypothesis => exact satisfied.real_succ inside (hypothesis (by omega))

theorem address_strictMono (satisfied : InitAndTeardownColumn traceLen column) {i j : Nat}
    (order : i < j) (inside : j + 1 < traceLen) (real : ¬ (column i).IsPadding) :
    (column i).address < (column j).address := by
  have step (k : Nat) (after : i ≤ k) (bound : k + 2 < traceLen) :
      (column k).address < (column (k + 1)).address :=
    (satisfied.ordering k bound).address_lt (satisfied.inRange k (by omega))
      (satisfied.inRange (k + 1) bound) (satisfied.real_of_le after (by omega) real)
  induction j, order using Nat.le_induction with
  | base => exact step i (Nat.le_refl i) inside
  | succ j after hypothesis =>
      have tail := step j (by omega) inside
      have initial := hypothesis (by omega)
      exact initial.trans tail

/-- The padding rows are the rows before some index. -/
theorem exists_start (satisfied : InitAndTeardownColumn traceLen column) :
    ∃ start, ∀ i, i + 1 < traceLen → ((column i).IsPadding ↔ i < start) := by
  by_cases someReal : ∃ i, i + 1 < traceLen ∧ ¬ (column i).IsPadding
  · refine ⟨Nat.find someReal, ?_⟩
    intro i inside
    rcases Nat.find_spec someReal with ⟨_, firstReal⟩
    constructor
    · intro padding
      by_contra after
      exact satisfied.real_of_le (Nat.le_of_not_lt after) inside firstReal padding
    · intro before
      by_contra real
      exact Nat.find_min someReal before ⟨inside, real⟩
  · refine ⟨traceLen, ?_⟩
    intro i inside
    constructor
    · intro _
      omega
    · intro _
      by_contra real
      exact someReal ⟨i, inside, real⟩

end InitAndTeardownColumn

/-! ## Junctions between columns -/

/-- A row whose tuples carry something: an address, a value or a timestamp. -/
def InitAndTeardownRow.IsUsed (row : InitAndTeardownRow) : Prop :=
  ∃ value ∈ row.padded, value ≠ 0

/-- The verifier compares the boundary rows of consecutive columns: addresses grow over the
junction, or the column before it ends in padding. -/
def JunctionChecks (traceLen numSets : Nat) (columns : Nat → Nat → InitAndTeardownRow) :
    Prop :=
  ∀ set, set + 1 < numSets →
    (columns set (traceLen - 2)).address < (columns (set + 1) 0).address ∨
      ¬ (columns set (traceLen - 2)).IsUsed

namespace InitAndTeardownRow

variable {row : InitAndTeardownRow}

theorem PaddingConstraint.real_of_isUsed (constraint : row.PaddingConstraint)
    (used : row.IsUsed) : ¬ row.IsPadding := by
  intro padding
  rcases used with ⟨value, member, nonzero⟩
  exact nonzero (constraint.eq_zero padding member)

theorem isUsed_of_address_pos (positive : 0 < row.address) : row.IsUsed := by
  by_contra unused
  have zero (value : F) (member : value ∈ row.padded) : value = 0 := by
    by_contra nonzero
    exact unused ⟨value, member, nonzero⟩
  have low := zero row.lazyInitAddressLow (by simp [padded])
  have high := zero row.lazyInitAddressHigh (by simp [padded])
  rw [address, low, high, ZMod.val_zero] at positive
  omega

end InitAndTeardownRow

namespace InitAndTeardownColumn

variable {traceLen : Nat} {column : Nat → InitAndTeardownRow}

/-- The last compared row of a column with a used row is used and has the largest address. -/
theorem last_of_isUsed (satisfied : InitAndTeardownColumn traceLen column) {i : Nat}
    (inside : i + 1 < traceLen) (used : (column i).IsUsed) :
    (column (traceLen - 2)).IsUsed ∧
      (column i).address ≤ (column (traceLen - 2)).address := by
  have real := (satisfied.padding i inside).real_of_isUsed used
  rcases Nat.lt_or_ge i (traceLen - 2) with before | after
  · have larger := satisfied.address_strictMono before (by omega) real
    exact ⟨InitAndTeardownRow.isUsed_of_address_pos (by omega), larger.le⟩
  · have last : traceLen - 2 = i := by omega
    rw [last]
    exact ⟨used, Nat.le_refl _⟩

theorem first_le (satisfied : InitAndTeardownColumn traceLen column) {j : Nat}
    (inside : j + 1 < traceLen) (positive : 0 < (column 0).address) :
    (column 0).address ≤ (column j).address := by
  rcases Nat.eq_zero_or_pos j with rfl | later
  · exact Nat.le_refl _
  · have real := (satisfied.padding 0 (by omega)).real_of_isUsed
      (InitAndTeardownRow.isUsed_of_address_pos positive)
    exact (satisfied.address_strictMono later inside real).le

end InitAndTeardownColumn

section Junctions

variable {traceLen numSets : Nat} {columns : Nat → Nat → InitAndTeardownRow}

/-- Over a junction the addresses keep growing. -/
theorem JunctionChecks.address_lt_succ (checks : JunctionChecks traceLen numSets columns)
    (satisfied : ∀ set < numSets, InitAndTeardownColumn traceLen (columns set))
    {set i j : Nat} (inSets : set + 1 < numSets) (insideLeft : i + 1 < traceLen)
    (insideRight : j + 1 < traceLen) (used : (columns set i).IsUsed) :
    (columns set i).address < (columns (set + 1) j).address := by
  have last := (satisfied set (by omega)).last_of_isUsed insideLeft used
  rcases checks set inSets with grows | unused
  · have first := (satisfied (set + 1) inSets).first_le insideRight (by omega)
    omega
  · exact absurd last.1 unused

theorem JunctionChecks.address_lt (checks : JunctionChecks traceLen numSets columns)
    (satisfied : ∀ set < numSets, InitAndTeardownColumn traceLen (columns set))
    {left right i j : Nat} (order : left < right) (inSets : right < numSets)
    (insideLeft : i + 1 < traceLen) (insideRight : j + 1 < traceLen)
    (used : (columns left i).IsUsed) :
    (columns left i).address < (columns right j).address := by
  induction right, order using Nat.le_induction generalizing j with
  | base => exact checks.address_lt_succ satisfied inSets insideLeft insideRight used
  | succ right _ hypothesis =>
      have initial := hypothesis (by omega) insideLeft
      have junction := checks.address_lt_succ satisfied inSets insideLeft insideRight
        (InitAndTeardownRow.isUsed_of_address_pos (by omega))
      exact initial.trans junction

end Junctions

/-! ## The witness -/

structure LazyInitAndTeardown where
  address : U32
  teardownValue : U32
  teardownTimestamp : TimestampScalar

/-- The record that pads a column. -/
def LazyInitAndTeardown.zero : LazyInitAndTeardown where
  address := 0
  teardownValue := 0
  teardownTimestamp := 0

def overflowingSub (a b : U16) : U16 × Bool := (a - b, a.ult b)

def u32SplitSub (a b : U32) : ((U16 × U16) × Bool) × Bool :=
  let low := overflowingSub (splitU32IntoPairU16 a).1 (splitU32IntoPairU16 b).1
  let t := overflowingSub (splitU32IntoPairU16 a).2 (splitU32IntoPairU16 b).2
  let high := overflowingSub t.1 (if low.2 then 1 else 0)
  (((low.1, high.1), low.2), t.2 || high.2)

def timestampScalarIntoColumnValues (timestamp : TimestampScalar) : U32 × U32 :=
  ((timestamp &&& ((1 <<< 19) - 1)).setWidth 32, (timestamp >>> 19).setWidth 32)

/-- The memory columns of a record.  The comparison columns start as zeros. -/
def LazyInitAndTeardown.memoryRow (record : LazyInitAndTeardown) : InitAndTeardownRow :=
  let address := splitU32IntoPairU16 record.address
  let value := splitU32IntoPairU16 record.teardownValue
  let timestamp := timestampScalarIntoColumnValues record.teardownTimestamp
  { lazyInitAddressLow := fromLimb address.1
    lazyInitAddressHigh := fromLimb address.2
    teardownValueLow := fromLimb value.1
    teardownValueHigh := fromLimb value.2
    teardownTimestampLow := (timestamp.1.toNat : F)
    teardownTimestampHigh := (timestamp.2.toNat : F)
    auxLow := 0
    auxHigh := 0
    intermediateBorrow := 0
    finalBorrow := 0 }

/-- `process_lazy_init_work` for one row of one set, whose records are `lazyInitData`. -/
def processLazyInitWork (traceLen : Nat) (lazyInitData : Nat → LazyInitAndTeardown)
    (absoluteRowIdx : Nat) : Option InitAndTeardownRow :=
  let this := lazyInitData absoluteRowIdx
  let row := this.memoryRow
  if absoluteRowIdx + 2 = traceLen then
    -- an artificial value: the row has no successor, but keeps the padding convention
    some { row with finalBorrow := fromBoolean true }
  else do
    let next := lazyInitData (absoluteRowIdx + 1)
    let difference := u32SplitSub this.address next.address
    guard (difference.2 = false → this.address = 0 ∧ this.teardownValue = 0 ∧
      this.teardownTimestamp = 0)
    some { row with
      auxLow := fromLimb difference.1.1.1
      auxHigh := fromLimb difference.1.1.2
      intermediateBorrow := fromBoolean difference.1.2
      finalBorrow := fromBoolean difference.2 }

/-- The records of a column: zeros, then the given ones up to the row before the last. -/
def frontPadded (traceLen : Nat) (records : List LazyInitAndTeardown) (i : Nat) :
    LazyInitAndTeardown :=
  (List.replicate (traceLen - 1 - records.length) LazyInitAndTeardown.zero ++ records).getD i
    LazyInitAndTeardown.zero

section Witness

variable {record next : LazyInitAndTeardown}

theorem overflowingSub_toNat (a b : U16) :
    (overflowingSub a b).1.toNat + b.toNat = a.toNat + 2 ^ 16 * (overflowingSub a b).2.toNat := by
  have aBound := a.isLt
  have bBound := b.isLt
  simp only [overflowingSub, BitVec.toNat_sub, BitVec.ult]
  by_cases borrow : a.toNat < b.toNat
  · rw [decide_eq_true borrow, Bool.toNat_true]
    omega
  · rw [decide_eq_false borrow, Bool.toNat_false]
    omega

theorem u32SplitSub_low (a b : U32) :
    a.toNat % 2 ^ 16 + 2 ^ 16 * (u32SplitSub a b).1.2.toNat =
      b.toNat % 2 ^ 16 + (u32SplitSub a b).1.1.1.toNat := by
  have low := overflowingSub_toNat (splitU32IntoPairU16 a).1 (splitU32IntoPairU16 b).1
  rw [splitU32IntoPairU16_low, splitU32IntoPairU16_low] at low
  simp only [u32SplitSub]
  omega

/-- At most one of the two high subtractions borrows. -/
theorem u32SplitSub_high (a b : U32) :
    a.toNat / 2 ^ 16 + 2 ^ 16 * (u32SplitSub a b).2.toNat =
      b.toNat / 2 ^ 16 + (u32SplitSub a b).1.1.2.toNat + (u32SplitSub a b).1.2.toNat := by
  have first := overflowingSub_toNat (splitU32IntoPairU16 a).2 (splitU32IntoPairU16 b).2
  rw [splitU32IntoPairU16_high, splitU32IntoPairU16_high] at first
  simp only [u32SplitSub]
  generalize overflowingSub (splitU32IntoPairU16 a).1 (splitU32IntoPairU16 b).1 = lowPair
  generalize overflowingSub (splitU32IntoPairU16 a).2 (splitU32IntoPairU16 b).2 = highPair at first
  have borrowed : (if lowPair.2 then 1 else 0 : U16).toNat = lowPair.2.toNat := by
    cases lowPair.2 <;> rfl
  have second := overflowingSub_toNat highPair.1 (if lowPair.2 then 1 else 0)
  rw [borrowed] at second
  have aBound := a.isLt
  have bBound := b.isLt
  have borrowBound := Bool.toNat_le lowPair.2
  generalize overflowingSub highPair.1 (if lowPair.2 then 1 else 0) = result at second ⊢
  have resultBound := result.1.isLt
  cases of0 : highPair.2 <;> cases of1 : result.2 <;>
    simp only [of0, of1, Bool.toNat_true, Bool.toNat_false, Bool.true_or, Bool.false_or]
      at first second ⊢ <;> omega

/-- The final borrow of the split subtraction is the comparison of the words. -/
theorem u32SplitSub_borrow (a b : U32) :
    (u32SplitSub a b).2 = true ↔ a.toNat < b.toNat := by
  have low := u32SplitSub_low a b
  have high := u32SplitSub_high a b
  have lowBound := (u32SplitSub a b).1.1.1.isLt
  have highBound := (u32SplitSub a b).1.1.2.isLt
  cases borrow : (u32SplitSub a b).2 with
  | false =>
      rw [borrow, Bool.toNat_false] at high
      constructor
      · intro absurdity
        exact absurd absurdity Bool.false_ne_true
      · intro less
        omega
  | true =>
      rw [borrow, Bool.toNat_true] at high
      constructor
      · intro _
        omega
      · intro _
        rfl

variable {traceLen i : Nat} {lazyInitData : Nat → LazyInitAndTeardown}
  {row nextRow : InitAndTeardownRow}

/-- Addresses that are range-checked limbs of a record. -/
def LazyInitAndTeardown.Fills (record : LazyInitAndTeardown) (row : InitAndTeardownRow) : Prop :=
  row.lazyInitAddressLow = record.memoryRow.lazyInitAddressLow ∧
    row.lazyInitAddressHigh = record.memoryRow.lazyInitAddressHigh

theorem LazyInitAndTeardown.Fills.address_eq (fills : record.Fills row) :
    row.address = record.address.toNat := by
  have bound := record.address.isLt
  rw [InitAndTeardownRow.address, fills.1, fills.2]
  simp only [memoryRow, val_fromLimb, splitU32IntoPairU16_low, splitU32IntoPairU16_high]
  omega

theorem LazyInitAndTeardown.zero_padded {value : F}
    (member : value ∈ LazyInitAndTeardown.zero.memoryRow.padded) : value = 0 := by
  simp [InitAndTeardownRow.padded, memoryRow, zero, fromLimb, splitU32IntoPairU16,
    timestampScalarIntoColumnValues] at member
  exact member

/-- A generated row satisfies its own constraints. -/
theorem processLazyInitWork_row
    (work : processLazyInitWork traceLen lazyInitData i = some row) :
    row.InRange ∧ row.PaddingConstraint ∧ (lazyInitData i).Fills row := by
  unfold processLazyInitWork at work
  by_cases last : i + 2 = traceLen
  · simp only [if_pos last, Option.some.injEq] at work
    subst work
    refine ⟨⟨isU16_fromLimb _, isU16_fromLimb _, isU16_natCast (by norm_num),
      isU16_natCast (by norm_num), isBoolean_fromBoolean false, isBoolean_fromBoolean true⟩,
      ?_, rfl, rfl⟩
    intro value _
    simp [fromBoolean]
  · simp only [if_neg last, Option.bind_eq_bind, Option.bind_eq_some_iff, Option.guard_eq_some',
      exists_const, Option.some.injEq] at work
    rcases work with ⟨allowed, rfl⟩
    refine ⟨⟨isU16_fromLimb _, isU16_fromLimb _, isU16_fromLimb _, isU16_fromLimb _,
      isBoolean_fromBoolean _, isBoolean_fromBoolean _⟩, ?_, rfl, rfl⟩
    intro value member
    cases borrow : (u32SplitSub (lazyInitData i).address (lazyInitData (i + 1)).address).2 with
    | true => simp [fromBoolean]
    | false =>
        have isZero : lazyInitData i = LazyInitAndTeardown.zero := by
          rcases allowed borrow with ⟨address, value, timestamp⟩
          cases record : lazyInitData i
          rw [record] at address value timestamp
          exact LazyInitAndTeardown.mk.injEq .. ▸ ⟨address, value, timestamp⟩
        rw [isZero] at member
        rw [LazyInitAndTeardown.zero_padded member, mul_zero]

/-- A generated row and the next one satisfy the ordering constraint. -/
theorem processLazyInitWork_ordering
    (work : processLazyInitWork traceLen lazyInitData i = some row)
    (inside : i + 2 ≠ traceLen) (nextFills : (lazyInitData (i + 1)).Fills nextRow) :
    row.OrderingConstraint nextRow := by
  simp only [processLazyInitWork, if_neg inside, Option.bind_eq_bind, Option.bind_eq_some_iff,
    Option.guard_eq_some', exists_const, Option.some.injEq] at work
  rcases work with ⟨_, rfl⟩
  have low := u32SplitSub_low (lazyInitData i).address (lazyInitData (i + 1)).address
  have high := u32SplitSub_high (lazyInitData i).address (lazyInitData (i + 1)).address
  rw [← splitU32IntoPairU16_low, ← splitU32IntoPairU16_low] at low
  rw [← splitU32IntoPairU16_high, ← splitU32IntoPairU16_high] at high
  have lowField := congrArg (Nat.cast : Nat → F) low
  have highField := congrArg (Nat.cast : Nat → F) high
  push_cast at lowField highField
  constructor
  · rw [nextFills.1]
    simp only [LazyInitAndTeardown.memoryRow, fromLimb, fromBoolean_eq]
    linear_combination lowField
  · rw [nextFills.2]
    simp only [LazyInitAndTeardown.memoryRow, fromLimb, fromBoolean_eq]
    linear_combination highField

theorem processLazyInitWork_isSome
    (allowed : i + 2 = traceLen ∨ (lazyInitData i).address < (lazyInitData (i + 1)).address ∨
      lazyInitData i = LazyInitAndTeardown.zero) :
    ∃ row, processLazyInitWork traceLen lazyInitData i = some row := by
  unfold processLazyInitWork
  by_cases last : i + 2 = traceLen
  · rw [if_pos last]
    exact ⟨_, rfl⟩
  · rw [if_neg last]
    have allows : (u32SplitSub (lazyInitData i).address (lazyInitData (i + 1)).address).2 = false →
        (lazyInitData i).address = 0 ∧ (lazyInitData i).teardownValue = 0 ∧
          (lazyInitData i).teardownTimestamp = 0 := by
      intro noBorrow
      rcases allowed with isLast | smaller | isZero
      · exact absurd isLast last
      · have borrow := (u32SplitSub_borrow _ _).mpr smaller
        rw [noBorrow] at borrow
        exact absurd borrow Bool.false_ne_true
      · rw [isZero]
        exact ⟨rfl, rfl, rfl⟩
    have passes := (Option.guard_eq_some' ()).mpr allows
    exact ⟨_, Option.bind_eq_some_iff.mpr ⟨(), passes, rfl⟩⟩

/-- In a front-padded increasing list every record but the last is zero or is followed by a
larger address. -/
theorem frontPadded_step {records : List LazyInitAndTeardown}
    (sorted : (records.map LazyInitAndTeardown.address).Pairwise (· < ·))
    (inside : i + 2 < traceLen) :
    (frontPadded traceLen records i).address < (frontPadded traceLen records (i + 1)).address ∨
      frontPadded traceLen records i = LazyInitAndTeardown.zero := by
  by_cases padding : i < traceLen - 1 - records.length
  · right
    rw [frontPadded, List.getD_append _ _ _ _ (by simpa using padding), List.getD_replicate _ padding]
  · left
    have position : traceLen - 1 - records.length ≤ i := Nat.le_of_not_lt padding
    rw [frontPadded, frontPadded, List.getD_append_right _ _ _ _ (by simpa using position),
      List.getD_append_right _ _ _ _ (by simp; omega)]
    simp only [List.length_replicate]
    rw [List.getD_eq_getElem _ _ (by omega), List.getD_eq_getElem _ _ (by omega)]
    have order := List.pairwise_iff_getElem.mp sorted (i - (traceLen - 1 - records.length))
      (i + 1 - (traceLen - 1 - records.length)) (by simp; omega) (by simp; omega) (by omega)
    simpa using order

/-- The generated rows of a front-padded increasing list satisfy the constraints. -/
theorem frontPadded_column {records : List LazyInitAndTeardown}
    (sorted : (records.map LazyInitAndTeardown.address).Pairwise (· < ·)) :
    ∃ column, InitAndTeardownColumn traceLen column ∧ ∀ i, i + 1 < traceLen →
      processLazyInitWork traceLen (frontPadded traceLen records) i = some (column i) := by
  have generated (i : Nat) : ∃ row, i + 1 < traceLen →
      processLazyInitWork traceLen (frontPadded traceLen records) i = some row := by
    by_cases inside : i + 2 < traceLen
    · rcases processLazyInitWork_isSome (Or.inr (frontPadded_step sorted inside)) with ⟨row, work⟩
      exact ⟨row, fun _ => work⟩
    · by_cases last : i + 2 = traceLen
      · rcases processLazyInitWork_isSome (Or.inl last) with ⟨row, work⟩
        exact ⟨row, fun _ => work⟩
      · exact ⟨LazyInitAndTeardown.zero.memoryRow, fun bound => by omega⟩
  choose column work using generated
  refine ⟨column, ⟨?_, ?_, ?_⟩, work⟩
  · intro i inside
    exact (processLazyInitWork_row (work i inside)).1
  · intro i inside
    exact (processLazyInitWork_row (work i inside)).2.1
  · intro i inside
    exact processLazyInitWork_ordering (work i (by omega)) (by omega)
      (processLazyInitWork_row (work (i + 1) inside)).2.2

end Witness

/-- Every assignment of the columns lists each address once: in every set the padding rows form
a prefix of zero rows whose contribution is one, the rows after it have growing addresses, and
where the verifier's junction checks pass no two used rows of the trace share an address.
Conversely the witness of front-padded growing lists is an assignment. -/
theorem lazyInit_addresses_unique (traceLen numSets : Nat) :
    (∀ columns : Nat → Nat → InitAndTeardownRow,
      (∀ set < numSets, InitAndTeardownColumn traceLen (columns set)) →
        (∀ set < numSets, ∃ start,
          (∀ i, i + 1 < traceLen →
            (columns set i).address < 2 ^ 32 ∧ ((columns set i).IsPadding ↔ i < start)) ∧
          (∀ i < start, i + 1 < traceLen →
            (∀ value ∈ (columns set i).padded, value = 0) ∧
            ∀ (K : Type) [Field K] [Algebra F K] (challenges : MemoryArgumentChallenges K),
              (columns set i).numerator challenges = (columns set i).denom challenges ∧
              ∀ previous accumulator, (columns set i).denom challenges ≠ 0 →
                ((columns set i).Accumulates challenges previous accumulator ↔
                  accumulator = previous)) ∧
          ∀ i j, start ≤ i → i < j → j + 1 < traceLen →
            (columns set i).address < (columns set j).address) ∧
        (JunctionChecks traceLen numSets columns →
          ∀ left right i j, left < right → right < numSets → i + 1 < traceLen →
            j + 1 < traceLen → (columns left i).IsUsed →
            (columns left i).address < (columns right j).address)) ∧
    ∀ records : Nat → List LazyInitAndTeardown,
      (∀ set < numSets, (records set).length < traceLen ∧
        ((records set).map LazyInitAndTeardown.address).Pairwise (· < ·)) →
      ∃ columns : Nat → Nat → InitAndTeardownRow, ∀ set < numSets,
        InitAndTeardownColumn traceLen (columns set) ∧
        ∀ i, i + 1 < traceLen →
          processLazyInitWork traceLen (frontPadded traceLen (records set)) i =
              some (columns set i) ∧
            (columns set i).address = (frontPadded traceLen (records set) i).address.toNat := by
  refine ⟨?_, ?_⟩
  · intro columns satisfied
    refine ⟨?_, ?_⟩
    · intro set inSets
      have column := satisfied set inSets
      rcases column.exists_start with ⟨start, isPadding⟩
      refine ⟨start, ?_, ?_, ?_⟩
      · intro i inside
        exact ⟨(column.inRange i inside).address_lt, isPadding i inside⟩
      · intro i before inside
        have padding := (isPadding i inside).mpr before
        have constraint := column.padding i inside
        refine ⟨fun value member => constraint.eq_zero padding member, ?_⟩
        intro K _ _ challenges
        exact ⟨constraint.numerator_eq_denom padding challenges,
          fun previous accumulator nonzero =>
            constraint.accumulates_iff padding challenges previous accumulator nonzero⟩
      · intro i j after order inside
        have real : ¬ (columns set i).IsPadding := by
          intro padding
          have before := (isPadding i (by omega)).mp padding
          omega
        exact column.address_strictMono order inside real
    · intro checks left right i j order inSets insideLeft insideRight used
      exact checks.address_lt satisfied order inSets insideLeft insideRight used
  · intro records sorted
    have generated (set : Nat) : ∃ column, set < numSets →
        InitAndTeardownColumn traceLen column ∧ ∀ i, i + 1 < traceLen →
          processLazyInitWork traceLen (frontPadded traceLen (records set)) i =
            some (column i) := by
      by_cases inSets : set < numSets
      · rcases frontPadded_column (sorted set inSets).2 with ⟨column, satisfied⟩
        exact ⟨column, fun _ => satisfied⟩
      · exact ⟨fun _ => LazyInitAndTeardown.zero.memoryRow, fun inside => absurd inside inSets⟩
    choose columns satisfied using generated
    refine ⟨columns, ?_⟩
    intro set inSets
    refine ⟨(satisfied set inSets).1, ?_⟩
    intro i inside
    have work := (satisfied set inSets).2 i inside
    exact ⟨work, (processLazyInitWork_row work).2.2.address_eq⟩

/-! ### Two sets -/

/-- A column for a few records at its end. -/
theorem exists_column (traceLen : Nat) (records : List LazyInitAndTeardown)
    (sorted : (records.map LazyInitAndTeardown.address).Pairwise (· < ·)) :
    ∃ column, InitAndTeardownColumn traceLen column ∧ ∀ i, i + 1 < traceLen →
      (column i).address = (frontPadded traceLen records i).address.toNat := by
  rcases @frontPadded_column traceLen records sorted with ⟨column, satisfied, work⟩
  refine ⟨column, satisfied, ?_⟩
  intro i inside
  exact (processLazyInitWork_row (work i inside)).2.2.address_eq

/-- The record of a word that was never written. -/
def untouched (address : U32) : LazyInitAndTeardown where
  address := address
  teardownValue := 0
  teardownTimestamp := 0

/-- Two sets whose last rows both initialise the address 4: no constraint goes from one set to
the other. -/
theorem lazyInit_address_in_two_sets :
    ∃ columns : Nat → Nat → InitAndTeardownRow,
      (∀ set < 2, InitAndTeardownColumn 4 (columns set)) ∧
        ∀ set < 2, ¬ (columns set 2).IsPadding ∧ (columns set 2).address = 4 := by
  rcases exists_column 4 [untouched 4] (List.pairwise_singleton _ _)
    with ⟨column, satisfied, address⟩
  have last : (column 2).address = 4 := address 2 (by omega)
  refine ⟨fun _ => column, fun _ _ => satisfied, ?_⟩
  intro _ _
  have used : (column 2).IsUsed := InitAndTeardownRow.isUsed_of_address_pos (by omega)
  exact ⟨(satisfied.padding 2 (by omega)).real_of_isUsed used, last⟩

/-- A padded set and a full one that continues it. -/
theorem lazyInit_addresses_unique_twoSets :
    ∃ columns : Nat → Nat → InitAndTeardownRow,
      (∀ set < 2, InitAndTeardownColumn 4 (columns set)) ∧ JunctionChecks 4 2 columns ∧
        (columns 0 0).address = 0 ∧ (columns 0 1).address = 4 ∧ (columns 0 2).address = 8 ∧
        ∀ i j, 0 < i → i + 1 < 4 → j + 1 < 4 → (columns 0 i).address < (columns 1 j).address := by
  rcases exists_column 4 [untouched 4, untouched 8] (by decide)
    with ⟨first, firstSatisfied, firstAddress⟩
  rcases exists_column 4 [untouched 12, untouched 16, untouched 20] (by decide)
    with ⟨second, secondSatisfied, secondAddress⟩
  let columns (set : Nat) : Nat → InitAndTeardownRow := if set = 0 then first else second
  have satisfied : ∀ set < 2, InitAndTeardownColumn 4 (columns set) := by
    intro set _
    by_cases isFirst : set = 0
    · rw [show columns set = first from if_pos isFirst]
      exact firstSatisfied
    · rw [show columns set = second from if_neg isFirst]
      exact secondSatisfied
  have padding : (first 0).address = 0 := firstAddress 0 (by omega)
  have four : (first 1).address = 4 := firstAddress 1 (by omega)
  have eight : (first 2).address = 8 := firstAddress 2 (by omega)
  have twelve : (second 0).address = 12 := secondAddress 0 (by omega)
  have checks : JunctionChecks 4 2 columns := by
    intro set inSets
    obtain rfl : set = 0 := by omega
    left
    change (first 2).address < (second 0).address
    omega
  refine ⟨columns, satisfied, checks, padding, four, eight, ?_⟩
  intro i j positive insideLeft insideRight
  have used : (first i).IsUsed := by
    apply InitAndTeardownRow.isUsed_of_address_pos
    have atEnd : i = 1 ∨ i = 2 := by omega
    rcases atEnd with rfl | rfl
    · omega
    · omega
  exact ((lazyInit_addresses_unique 4 2).1 columns satisfied).2 checks 0 1 i j Nat.zero_lt_one
    Nat.one_lt_two insideLeft insideRight used

end Airbender.Circuit
