import Airbender.Fft.Worker
import Airbender.Lib.NestedList
import Airbender.Replayer.TracingData

/-!
# Chunks of initial and final memory words

Every core has collected the words it touched.  `chunk_lazy_init_and_teardown` cuts all of them
into rows for circuits of one size, from the end backwards, so that only the first chunk has
default rows, before all others.
-/

namespace Airbender.Prover

open Fft NestedList

/-- Address, timestamp of the last access and last value of a touched word. -/
abbrev TouchedWord := U32 × TimestampScalar × U32

structure LazyInitAndTeardown where
  address : U32
  teardownValue : U32
  teardownTimestamp : TimestampData
deriving DecidableEq

namespace LazyInitAndTeardown

/-- `Default::default()`. -/
def default : LazyInitAndTeardown where
  address := 0
  teardownValue := 0
  teardownTimestamp := ⟨0, 0, 0⟩

def ofTouchedWord (word : TouchedWord) : LazyInitAndTeardown where
  address := word.1
  teardownValue := word.2.2
  teardownTimestamp := TimestampData.fromScalar word.2.1

end LazyInitAndTeardown

structure ShuffleRamSetupAndTeardown where
  lazyInitData : List LazyInitAndTeardown
deriving DecidableEq

structure Chunk where
  startingIdx : Nat
  startingOffset : Nat
  endIdx : Nat
  endOffset : Nat
  prepadding : Nat
deriving DecidableEq

/-! ## Chunk points -/

/-- `usize::next_multiple_of`. -/
def nextMultipleOf (value factor : Nat) : Nat :=
  if value % factor = 0 then value else value + (factor - value % factor)

/-- The loop that moves the start of a chunk backwards until the chunk is full. -/
def fillBack (data : List (List TouchedWord)) (toFill : Nat) (chunk : Chunk) : Option Chunk :=
  if toFill = 0 then
    some chunk
  else if chunk.startingOffset ≠ 0 then
    if chunk.startingOffset ≤ toFill then
      fillBack data (toFill - chunk.startingOffset) { chunk with startingOffset := 0 }
    else
      some { chunk with startingOffset := chunk.startingOffset - toFill }
  else if chunk.startingIdx = 0 then
    -- the words are used up
    some { chunk with prepadding := toFill }
  else do
    let words ← data[chunk.startingIdx - 1]?
    fillBack data toFill
      { chunk with startingIdx := chunk.startingIdx - 1, startingOffset := words.length }
termination_by 2 * chunk.startingIdx + (if chunk.startingOffset = 0 then 0 else 1)
decreasing_by
  · rename_i some _
    rw [if_pos trivial, if_neg some]
    omega
  · rename_i zero more
    rw [if_pos (Decidable.not_not.mp zero)]
    split <;> omega

/-- The chunks in the order they are found, the last one first. -/
def chunkPoints (data : List (List TouchedWord)) (initsChunkSize : Nat) :
    Nat → Nat × Nat → Option (List Chunk)
  | 0, _ => some []
  | count + 1, (idx, pos) => do
      let chunk ← fillBack data initsChunkSize
        { startingIdx := idx, startingOffset := pos, endIdx := idx, endOffset := pos,
          prepadding := 0 }
      let chunks ← chunkPoints data initsChunkSize count (chunk.startingIdx, chunk.startingOffset)
      some (chunk :: chunks)

/-! ## Copying -/

/-- The rows of the words at the indices of a range. -/
def copyRows (words : List TouchedWord) (first last : Nat) : Option (List LazyInitAndTeardown) :=
  (List.range' first (last - first)).mapM fun idx =>
    words[idx]?.map LazyInitAndTeardown.ofTouchedWord

/-- The loop that goes forwards over the lists of a chunk. -/
def fillRows (data : List (List TouchedWord)) (chunk : Chunk) (rows : List LazyInitAndTeardown) :
    Option (List LazyInitAndTeardown) :=
  if _inside : chunk.startingIdx < data.length then
    let words := inner data chunk.startingIdx
    if chunk.startingIdx = chunk.endIdx then do
      let copied ← copyRows words chunk.startingOffset chunk.endOffset
      some (rows ++ copied)
    else do
      let copied ← copyRows words chunk.startingOffset words.length
      fillRows data { chunk with startingIdx := chunk.startingIdx + 1, startingOffset := 0 }
        (rows ++ copied)
  else
    none
termination_by data.length - chunk.startingIdx

/-- What one thread does for one chunk. -/
def materialize (data : List (List TouchedWord)) (initsChunkSize : Nat) (chunk : Chunk) :
    Option ShuffleRamSetupAndTeardown := do
  let rows ← fillRows data chunk (List.replicate chunk.prepadding .default)
  guard (rows.length = initsChunkSize)
  some { lazyInitData := rows }

/-- `chunk_lazy_init_and_teardown`: the number of empty chunks to assume, and the chunks.  Every
thread writes the places of its own range. -/
def chunkLazyInitAndTeardown (totalNumChunks initsChunkSize : Nat)
    (data : List (List TouchedWord)) (numCores : Nat) :
    Option (Nat × List ShuffleRamSetupAndTeardown) := do
  guard (0 < data.length)
  guard (initsChunkSize ≠ 0)
  let totalInputLen := (data.map List.length).sum
  let numNonEmptyOnes := nextMultipleOf totalInputLen initsChunkSize / initsChunkSize
  guard (numNonEmptyOnes ≤ totalNumChunks)
  let chunks ← chunkPoints data initsChunkSize numNonEmptyOnes
    (data.length - 1, (inner data (data.length - 1)).length)
  let chunks := chunks.reverse
  let ranges ← workChunks numCores numNonEmptyOnes
  let results ← ranges.mapM fun range =>
    ((chunks.drop range.1).take range.2).mapM (materialize data initsChunkSize)
  some (totalNumChunks - numNonEmptyOnes, results.flatten)

/-! ## Borders of chunks -/

variable {data : List (List TouchedWord)}

/-- Where a chunk starts among all words. -/
def Chunk.startPos (data : List (List TouchedWord)) (chunk : Chunk) : Nat :=
  start data chunk.startingIdx + chunk.startingOffset

def Chunk.endPos (data : List (List TouchedWord)) (chunk : Chunk) : Nat :=
  start data chunk.endIdx + chunk.endOffset

/-- A chunk whose borders are positions, in order. -/
structure Chunk.IsValid (data : List (List TouchedWord)) (chunk : Chunk) : Prop where
  starts : IsCursor data chunk.startingIdx chunk.startingOffset
  ends : IsCursor data chunk.endIdx chunk.endOffset
  idx_le : chunk.startingIdx ≤ chunk.endIdx
  pos_le : chunk.startPos data ≤ chunk.endPos data

/-- The start moves back by as many words as there are, up to the number that is asked for, and
the rest is padding. -/
theorem fillBack_spec (toFill : Nat) {chunk : Chunk} (valid : chunk.IsValid data)
    (unpadded : chunk.prepadding = 0) :
    ∃ filled, fillBack data toFill chunk = some filled ∧ filled.IsValid data ∧
      filled.endIdx = chunk.endIdx ∧ filled.endOffset = chunk.endOffset ∧
      filled.startPos data = chunk.startPos data - toFill ∧
      filled.prepadding = toFill - chunk.startPos data := by
  induction toFill, chunk using fillBack.induct with
  | case1 chunk =>
      refine ⟨chunk, ?_, valid, rfl, rfl, rfl, ?_⟩
      · rw [fillBack, if_pos rfl]
      · rw [unpadded, Nat.zero_sub]
  | case2 toFill chunk more some_ fits inductionHypothesis =>
      have position : chunk.startPos data = start data chunk.startingIdx + chunk.startingOffset :=
        rfl
      have moved : Chunk.startPos data { chunk with startingOffset := 0 } =
          start data chunk.startingIdx := rfl
      obtain ⟨filled, computed, filledValid, endIdx, endOffset, startPos, prepadding⟩ :=
        inductionHypothesis
          { starts := ⟨valid.starts.inside, Nat.zero_le _⟩
            ends := valid.ends
            idx_le := valid.idx_le
            pos_le := by
              have le := valid.pos_le
              rw [position] at le
              exact Nat.le_trans (Nat.le_add_right _ _) le }
          unpadded
      refine ⟨filled, ?_, filledValid, endIdx, endOffset, ?_, ?_⟩
      · rw [fillBack, if_neg more, if_pos some_, if_pos fits, computed]
      · rw [startPos, moved, position]
        omega
      · rw [prepadding, moved, position]
        omega
  | case3 toFill chunk more some_ less =>
      have position : chunk.startPos data = start data chunk.startingIdx + chunk.startingOffset :=
        rfl
      have moved : Chunk.startPos data
          { chunk with startingOffset := chunk.startingOffset - toFill } =
            start data chunk.startingIdx + (chunk.startingOffset - toFill) := rfl
      have bound := valid.starts.bound
      have le := valid.pos_le
      rw [position] at le
      refine ⟨{ chunk with startingOffset := chunk.startingOffset - toFill }, ?_, ?_, rfl, rfl,
        ?_, ?_⟩
      · rw [fillBack, if_neg more, if_pos some_, if_neg less]
      · exact
          { starts := ⟨valid.starts.inside, Nat.le_trans (Nat.sub_le _ _) bound⟩
            ends := valid.ends
            idx_le := valid.idx_le
            pos_le := by
              rw [moved]
              exact Nat.le_trans (Nat.add_le_add_left (Nat.sub_le _ _) _) le }
      · rw [moved, position]
        omega
      · change chunk.prepadding = _
        rw [unpadded, position]
        omega
  | case4 toFill chunk more none_ first =>
      have offset : chunk.startingOffset = 0 := Decidable.not_not.mp none_
      have position : chunk.startPos data = 0 := by
        rw [Chunk.startPos, first, start_zero, offset]
      refine ⟨{ chunk with prepadding := toFill }, ?_, ⟨valid.starts, valid.ends, valid.idx_le,
        valid.pos_le⟩, rfl, rfl, ?_, ?_⟩
      · rw [fillBack, if_neg more, if_neg none_, if_pos first]
      · change chunk.startPos data = _
        rw [position, Nat.zero_sub]
      · change toFill = _
        rw [position, Nat.sub_zero]
  | case5 toFill chunk more none_ later inductionHypothesis =>
      have offset : chunk.startingOffset = 0 := Decidable.not_not.mp none_
      have inside : chunk.startingIdx - 1 < data.length :=
        Nat.lt_of_le_of_lt (Nat.sub_le _ _) valid.starts.inside
      have next : chunk.startingIdx - 1 + 1 = chunk.startingIdx := by omega
      have words := inner_eq inside
      have position : chunk.startPos data =
          start data (chunk.startingIdx - 1) + (inner data (chunk.startingIdx - 1)).length := by
        rw [Chunk.startPos, offset, ← start_succ inside, next, Nat.add_zero]
      obtain ⟨filled, computed, filledValid, endIdx, endOffset, startPos, prepadding⟩ :=
        inductionHypothesis (inner data (chunk.startingIdx - 1))
          { starts := ⟨inside, Nat.le_refl _⟩
            ends := valid.ends
            idx_le := Nat.le_trans (Nat.sub_le _ _) valid.idx_le
            pos_le := by
              have le := valid.pos_le
              rwa [position] at le }
          unpadded
      refine ⟨filled, ?_, filledValid, endIdx, endOffset, ?_, ?_⟩
      · rw [fillBack, if_neg more, if_neg none_, if_neg later, words]
        exact computed
      · rw [startPos, position]
        rfl
      · rw [prepadding, position]
        rfl

/-! ## Rows of chunks -/

/-- All rows, in order. -/
def allRows (data : List (List TouchedWord)) : List LazyInitAndTeardown :=
  data.flatten.map LazyInitAndTeardown.ofTouchedWord

/-- The last `count` rows before a position; default rows stand before the first word. -/
def rowsBefore (data : List (List TouchedWord)) (pos count : Nat) : List LazyInitAndTeardown :=
  List.replicate (count - pos) .default ++ ((allRows data).take pos).drop (pos - count)

theorem length_rowsBefore {pos : Nat} (inside : pos ≤ (allRows data).length) (count : Nat) :
    (rowsBefore data pos count).length = count := by
  rw [rowsBefore, List.length_append, List.length_replicate, List.length_drop, List.length_take]
  omega

theorem rowsBefore_zero (data : List (List TouchedWord)) (pos : Nat) :
    rowsBefore data pos 0 = [] := by
  rw [rowsBefore, Nat.zero_sub, Nat.sub_zero, List.replicate_zero, List.nil_append]
  exact List.drop_eq_nil_of_le (List.length_take_le _ _)

/-- Rows of two neighbouring ranges. -/
theorem rowsBefore_add (data : List (List TouchedWord)) (pos few many : Nat) :
    rowsBefore data (pos - few) many ++ rowsBefore data pos few =
      rowsBefore data pos (many + few) := by
  rw [rowsBefore, rowsBefore, rowsBefore]
  rcases Nat.le_total few pos with inside | outside
  · have pad : few - pos = 0 := Nat.sub_eq_zero_of_le inside
    have padAll : many + few - pos = many - (pos - few) := by omega
    have first : pos - (many + few) = pos - few - many := by omega
    have split : ((allRows data).take pos).drop (pos - few - many) =
        ((allRows data).take (pos - few)).drop (pos - few - many) ++
          ((allRows data).take pos).drop (pos - few) := by
      conv_lhs => rw [← List.take_append_drop (pos - few) ((allRows data).take pos)]
      rw [List.take_take, Nat.min_eq_left (Nat.sub_le _ _)]
      rcases Nat.le_total pos (allRows data).length with short | long
      · exact List.drop_append_of_le_length (by
          rw [List.length_take]
          omega)
      · rcases Nat.le_total (pos - few) (allRows data).length with within | beyond
        · exact List.drop_append_of_le_length (by
            rw [List.length_take]
            omega)
        · have nothing : ((allRows data).take pos).drop (pos - few) = [] :=
            List.drop_eq_nil_of_le (by
              rw [List.length_take]
              omega)
          rw [nothing, List.append_nil, List.append_nil]
    rw [pad, List.replicate_zero, List.nil_append, padAll, first, split, List.append_assoc]
  · have start : pos - few = 0 := Nat.sub_eq_zero_of_le outside
    have all : pos - (many + few) = 0 := by omega
    have pads : List.replicate many LazyInitAndTeardown.default ++
        List.replicate (few - pos) .default = List.replicate (many + few - pos) .default := by
      rw [List.replicate_append_replicate]
      congr 1
      omega
    rw [start, all, List.take_zero, List.drop_nil, List.append_nil, Nat.sub_zero,
      ← List.append_assoc, pads]

theorem copyRows_eq {words : List TouchedWord} {first last : Nat} (inside : last ≤ words.length) :
    copyRows words first last =
      some (((words.drop first).take (last - first)).map LazyInitAndTeardown.ofTouchedWord) := by
  rw [copyRows]
  have bound : first + (last - first) ≤ words.length ∨ last - first = 0 := by omega
  generalize last - first = count at bound ⊢
  clear inside
  induction count generalizing first with
  | zero => rfl
  | succ count inductionHypothesis =>
      have within : first < words.length := by omega
      have rest := @inductionHypothesis (first + 1) (by omega)
      rw [List.range'_succ, List.mapM_cons, List.getElem?_eq_getElem within, rest,
        List.drop_eq_getElem_cons within, List.take_succ_cons, List.map_cons]
      rfl

/-- The words from the start of a chunk to its end. -/
def Chunk.words (data : List (List TouchedWord)) (chunk : Chunk) : List TouchedWord :=
  (data.flatten.drop (chunk.startPos data)).take (chunk.endPos data - chunk.startPos data)

theorem fillRows_eq {chunk : Chunk} (valid : chunk.IsValid data)
    (rows : List LazyInitAndTeardown) :
    fillRows data chunk rows =
      some (rows ++ (chunk.words data).map LazyInitAndTeardown.ofTouchedWord) := by
  induction chunk, rows using fillRows.induct data with
  | case1 chunk rows inside last =>
      have rest := drop_flatten valid.starts
      have size : chunk.endPos data - chunk.startPos data =
          chunk.endOffset - chunk.startingOffset := by
        rw [Chunk.endPos, Chunk.startPos, ← last]
        omega
      have bound : chunk.endOffset ≤ (inner data chunk.startingIdx).length := by
        rw [last]
        exact valid.ends.bound
      rw [fillRows, dif_pos inside, if_pos last, copyRows_eq bound, Chunk.words, size,
        Chunk.startPos, rest, List.take_append_of_le_length (by
          rw [List.length_drop]
          omega)]
      rfl
  | case2 chunk rows inside more inductionHypothesis =>
      have le := valid.idx_le
      have before : chunk.startingIdx + 1 ≤ chunk.endIdx := by omega
      have rest := drop_flatten valid.starts
      have bound := valid.starts.bound
      have nextStart := start_succ valid.starts.inside
      have nextPos : Chunk.startPos data
          { chunk with startingIdx := chunk.startingIdx + 1, startingOffset := 0 } =
            start data (chunk.startingIdx + 1) := rfl
      have nextEnd : start data (chunk.startingIdx + 1) ≤ chunk.endPos data :=
        Nat.le_trans (start_mono data before) (Nat.le_add_right _ _)
      have nextValid : Chunk.IsValid data
          { chunk with startingIdx := chunk.startingIdx + 1, startingOffset := 0 } :=
        { starts := ⟨Nat.lt_of_le_of_lt before valid.ends.inside, Nat.zero_le _⟩
          ends := valid.ends
          idx_le := before
          pos_le := nextEnd }
      have copied := @copyRows_eq (inner data chunk.startingIdx) chunk.startingOffset _
        (Nat.le_refl _)
      have length : ((inner data chunk.startingIdx).drop chunk.startingOffset).length =
          (inner data chunk.startingIdx).length - chunk.startingOffset := List.length_drop
      rw [← length, List.take_length] at copied
      have size : chunk.endPos data - chunk.startPos data =
          ((inner data chunk.startingIdx).drop chunk.startingOffset).length +
            (chunk.endPos data - start data (chunk.startingIdx + 1)) := by
        rw [length, Chunk.startPos]
        omega
      have words : chunk.words data =
          (inner data chunk.startingIdx).drop chunk.startingOffset ++
            Chunk.words data
              { chunk with startingIdx := chunk.startingIdx + 1, startingOffset := 0 } := by
        rw [Chunk.words, size, Chunk.startPos, rest, List.take_length_add_append]
        rfl
      rw [fillRows, dif_pos inside, if_neg more, copied, Option.bind_eq_bind, Option.bind_some,
        inductionHypothesis _ nextValid, words, List.map_append, List.append_assoc]
  | case3 chunk rows outside => exact absurd valid.starts.inside outside

theorem length_allRows (data : List (List TouchedWord)) :
    (allRows data).length = data.flatten.length := List.length_map _

/-- A chunk with the right padding becomes the rows before its end. -/
theorem materialize_eq {initsChunkSize : Nat} {chunk : Chunk} (valid : chunk.IsValid data)
    (startPos : chunk.startPos data = chunk.endPos data - initsChunkSize)
    (prepadding : chunk.prepadding = initsChunkSize - chunk.endPos data)
    (inside : chunk.endPos data ≤ data.flatten.length) :
    materialize data initsChunkSize chunk =
      some ⟨rowsBefore data (chunk.endPos data) initsChunkSize⟩ := by
  have rows : List.replicate chunk.prepadding LazyInitAndTeardown.default ++
      (chunk.words data).map LazyInitAndTeardown.ofTouchedWord =
        rowsBefore data (chunk.endPos data) initsChunkSize := by
    rw [rowsBefore, prepadding, Chunk.words, startPos, allRows, ← List.map_take, ← List.map_drop,
      List.drop_take]
  have length := length_rowsBefore (length_allRows data ▸ inside) initsChunkSize
  rw [materialize, fillRows_eq valid, Option.bind_eq_bind, Option.bind_some, rows,
    guard_of length]
  rfl

/-- The chunks that are found from a position backwards.  The induction is on their number: a new
chunk ends where the one before it starts. -/
theorem chunkPoints_spec {initsChunkSize : Nat} (count : Nat) {idx offset : Nat}
    (cursor : IsCursor data idx offset) (inside : start data idx + offset ≤ data.flatten.length) :
    ∃ chunks results,
      chunkPoints data initsChunkSize count (idx, offset) = some chunks ∧
      chunks.reverse.mapM (materialize data initsChunkSize) = some results ∧
      results.length = count ∧
      (∀ result ∈ results, result.lazyInitData.length = initsChunkSize) ∧
      (results.map ShuffleRamSetupAndTeardown.lazyInitData).flatten =
        rowsBefore data (start data idx + offset) (count * initsChunkSize) := by
  induction count generalizing idx offset with
  | zero =>
      refine ⟨[], [], rfl, rfl, rfl, ?_, ?_⟩
      · intro result member
        cases member
      · rw [Nat.zero_mul, rowsBefore_zero]
        rfl
  | succ count inductionHypothesis =>
      obtain ⟨chunk, computed, valid, endIdx, endOffset, startPos, prepadding⟩ :=
        @fillBack_spec data initsChunkSize
          { startingIdx := idx, startingOffset := offset, endIdx := idx, endOffset := offset,
            prepadding := 0 }
          ⟨cursor, cursor, Nat.le_refl _, Nat.le_refl _⟩ rfl
      have endPos : chunk.endPos data = start data idx + offset := by
        rw [Chunk.endPos, endIdx, endOffset]
      have startPos' : chunk.startPos data = chunk.endPos data - initsChunkSize := by
        rw [startPos, endPos]
        rfl
      have rows := materialize_eq valid startPos' (by
        rw [prepadding, endPos]
        rfl) (by rwa [endPos])
      obtain ⟨chunks, results, found, materialized, length, sizes, together⟩ :=
        inductionHypothesis valid.starts (by
          change chunk.startPos data ≤ _
          rw [startPos', endPos]
          exact Nat.le_trans (Nat.sub_le _ _) inside)
      refine ⟨chunk :: chunks, results ++ [⟨rowsBefore data (start data idx + offset)
        initsChunkSize⟩], ?_, ?_, ?_, ?_, ?_⟩
      · rw [chunkPoints, computed, Option.bind_eq_bind, Option.bind_some, found]
        rfl
      · rw [List.reverse_cons, List.mapM_append, materialized, List.mapM_cons, rows, endPos]
        rfl
      · rw [List.length_append, length, List.length_singleton]
      · intro result member
        rcases List.mem_append.mp member with earlier | last
        · exact sizes result earlier
        · rw [List.mem_singleton.mp last]
          exact length_rowsBefore (by rwa [length_allRows]) initsChunkSize
      · have position : start data chunk.startingIdx + chunk.startingOffset =
            start data idx + offset - initsChunkSize := by
          change chunk.startPos data = _
          rw [startPos', endPos]
        rw [List.map_append, List.flatten_append, together, position, List.map_singleton,
          List.flatten_singleton, Nat.succ_mul, rowsBefore_add]

/-! ## Chunks of all words -/

theorem nextMultipleOf_div {value factor : Nat} (positive : 0 < factor) :
    nextMultipleOf value factor / factor = (value + factor - 1) / factor := by
  have division := Nat.div_add_mod value factor
  have small := Nat.mod_lt value positive
  rw [nextMultipleOf]
  by_cases whole : value % factor = 0
  · rw [if_pos whole]
    rw [whole, Nat.add_zero] at division
    have shifted : value + factor - 1 = factor - 1 + factor * (value / factor) := by omega
    have below : (factor - 1) / factor = 0 := Nat.div_eq_of_lt (Nat.sub_lt positive Nat.one_pos)
    rw [shifted, Nat.add_mul_div_left _ _ positive, below, Nat.zero_add]
  · rw [if_neg whole]
    have up : value + (factor - value % factor) = factor * (value / factor + 1) := by
      rw [Nat.mul_succ]
      omega
    have shifted : value + factor - 1 = value % factor - 1 + factor * (value / factor + 1) := by
      rw [Nat.mul_succ]
      omega
    have below : (value % factor - 1) / factor = 0 := Nat.div_eq_of_lt (by omega)
    rw [up, shifted, Nat.mul_div_cancel_left _ positive, Nat.add_mul_div_left _ _ positive,
      below, Nat.zero_add]

/-- Every row once: the chunks are full, and default rows stand before all others. -/
theorem chunkLazyInitAndTeardown_eq {totalNumChunks initsChunkSize numCores : Nat}
    (something : 0 < (data.map List.length).sum) (size : 1 ≤ initsChunkSize)
    (cores : numCores ≠ 0)
    (enough : ((data.map List.length).sum + initsChunkSize - 1) / initsChunkSize ≤
      totalNumChunks) :
    ∃ results,
      chunkLazyInitAndTeardown totalNumChunks initsChunkSize data numCores =
        some (totalNumChunks -
          ((data.map List.length).sum + initsChunkSize - 1) / initsChunkSize, results) ∧
      results.length = ((data.map List.length).sum + initsChunkSize - 1) / initsChunkSize ∧
      (∀ result ∈ results, result.lazyInitData.length = initsChunkSize) ∧
      (results.map ShuffleRamSetupAndTeardown.lazyInitData).flatten =
        List.replicate (((data.map List.length).sum + initsChunkSize - 1) / initsChunkSize *
          initsChunkSize - (data.map List.length).sum) .default ++ allRows data := by
  have nonempty : data ≠ [] := by
    intro nothing
    rw [nothing] at something
    exact absurd something (Nat.lt_irrefl 0)
  have total : (data.map List.length).sum = data.flatten.length := List.length_flatten.symm
  have needed := @nextMultipleOf_div (data.map List.length).sum initsChunkSize size
  obtain ⟨cursor, last⟩ := start_last nonempty
  obtain ⟨chunks, results, found, materialized, length, sizes, together⟩ :=
    @chunkPoints_spec data initsChunkSize
      (((data.map List.length).sum + initsChunkSize - 1) / initsChunkSize) _ _ cursor
      (Nat.le_of_eq last)
  have count : chunks.reverse.length =
      ((data.map List.length).sum + initsChunkSize - 1) / initsChunkSize := by
    rw [← length]
    exact (length_of_mapM materialized).symm
  have work : ((data.map List.length).sum + initsChunkSize - 1) / initsChunkSize ≠ 0 :=
    Nat.ne_of_gt (Nat.div_pos (by omega) size)
  obtain ⟨ranges, split, covered⟩ := workChunks_eq cores work
  rw [← count] at covered
  rw [← flatMap_slices covered] at materialized
  obtain ⟨parts, threads, joined⟩ := mapM_of_mapM_flatMap materialized
  refine ⟨results, ?_, length, sizes, ?_⟩
  · rw [chunkLazyInitAndTeardown, guard_of (List.length_pos_of_ne_nil nonempty),
      guard_of (Nat.ne_of_gt size)]
    simp only [Option.bind_eq_bind, Option.bind_some, needed, guard_of enough, found, split,
      threads, joined]
  · have all : ((data.map List.length).sum + initsChunkSize - 1) / initsChunkSize *
        initsChunkSize ≥ (data.map List.length).sum := by
      have division := Nat.div_add_mod ((data.map List.length).sum + initsChunkSize - 1)
        initsChunkSize
      have small := Nat.mod_lt ((data.map List.length).sum + initsChunkSize - 1) size
      rw [Nat.mul_comm initsChunkSize] at division
      omega
    rw [together, last, rowsBefore, ← total, Nat.sub_eq_zero_of_le all, List.drop_zero, total,
      ← length_allRows, List.take_length]

/-- The three limbs of a row hold 48 bits of a timestamp. -/
theorem asScalar_fromScalar {timestamp : TimestampScalar} (small : timestamp.toNat < 2 ^ 48) :
    (TimestampData.fromScalar timestamp).asScalar = timestamp := by
  apply BitVec.eq_of_getLsbD_eq
  intro i bound
  have high : 48 ≤ i → timestamp.getLsbD i = false := fun above =>
    Nat.testBit_lt_two_pow (Nat.lt_of_lt_of_le small (Nat.pow_le_pow_right (by decide) above))
  simp only [TimestampData.asScalar, TimestampData.fromScalar, BitVec.getLsbD_or,
    BitVec.getLsbD_setWidth, BitVec.getLsbD_shiftLeft, BitVec.getLsbD_ushiftRight]
  rcases Nat.lt_or_ge i 16 with first | first
  · simp only [bound, first, decide_true, Bool.true_and, Bool.not_true, Bool.false_and,
      Bool.and_false, Bool.or_false, Nat.lt_trans first (by decide : 16 < 32)]
  · rcases Nat.lt_or_ge i 32 with second | second
    · have shifted : 16 + (i - 16) = i := by omega
      have limb : i - 16 < 16 := by omega
      have inside : i - 16 < 64 := by omega
      simp only [bound, second, limb, inside, shifted, Nat.not_lt.mpr first, decide_true,
        decide_false, Bool.true_and, Bool.false_and, Bool.not_true, Bool.not_false,
        Bool.and_false, Bool.and_true, Bool.false_or, Bool.or_false]
    · have shifted : 32 + (i - 32) = i := by omega
      have above : ¬ i - 16 < 16 := by omega
      have inside : i - 32 < 64 := by omega
      rcases Nat.lt_or_ge i 48 with third | third
      · have limb : i - 32 < 16 := by omega
        simp only [bound, limb, above, inside, shifted, Nat.not_lt.mpr first,
          Nat.not_lt.mpr second, decide_true, decide_false, Bool.true_and, Bool.false_and,
          Bool.not_false, Bool.and_false, Bool.and_true, Bool.false_or]
      · have limb : ¬ i - 32 < 16 := by omega
        simp only [limb, above, high third, Nat.not_lt.mpr first, decide_false, Bool.false_and,
          Bool.and_false, Bool.or_false]

/-- The words of all cores are cut into full chunks: default rows, then every word once and in
order, with its address, its value and its timestamp. -/
theorem chunks_of_lazyInits {totalNumChunks initsChunkSize numCores : Nat}
    {data : List (List TouchedWord)} (something : 0 < (data.map List.length).sum)
    (size : 1 ≤ initsChunkSize) (cores : numCores ≠ 0)
    (enough : ((data.map List.length).sum + initsChunkSize - 1) / initsChunkSize ≤
      totalNumChunks) :
    (∃ results,
      chunkLazyInitAndTeardown totalNumChunks initsChunkSize data numCores =
        some (totalNumChunks -
          ((data.map List.length).sum + initsChunkSize - 1) / initsChunkSize, results) ∧
      results.length = ((data.map List.length).sum + initsChunkSize - 1) / initsChunkSize ∧
      (∀ result ∈ results, result.lazyInitData.length = initsChunkSize) ∧
      (results.map ShuffleRamSetupAndTeardown.lazyInitData).flatten =
        List.replicate (((data.map List.length).sum + initsChunkSize - 1) / initsChunkSize *
            initsChunkSize - (data.map List.length).sum) LazyInitAndTeardown.default ++
          data.flatten.map LazyInitAndTeardown.ofTouchedWord) ∧
    ∀ word : TouchedWord, (LazyInitAndTeardown.ofTouchedWord word).address = word.1 ∧
      (LazyInitAndTeardown.ofTouchedWord word).teardownValue = word.2.2 ∧
      (word.2.1.toNat < 2 ^ 48 →
        (LazyInitAndTeardown.ofTouchedWord word).teardownTimestamp.asScalar = word.2.1) := by
  refine ⟨chunkLazyInitAndTeardown_eq something size cores enough, ?_⟩
  intro word
  exact ⟨rfl, rfl, asScalar_fromScalar⟩

/-- Three words of four cores in chunks of two rows. -/
theorem chunks_of_lazyInits_threeWords :
    ∃ results,
      chunkLazyInitAndTeardown 5 2 [[], [(0, 4, 1), (4, 8, 2)], [], [(8, 12, 3)]] 2 =
        some (3, results) ∧
      (results.map ShuffleRamSetupAndTeardown.lazyInitData).flatten =
        LazyInitAndTeardown.default ::
          [(0, 4, 1), (4, 8, 2), (8, 12, 3)].map LazyInitAndTeardown.ofTouchedWord := by
  obtain ⟨results, computed, _, _, rows⟩ :=
    (@chunks_of_lazyInits 5 2 2 [[], [(0, 4, 1), (4, 8, 2)], [], [(8, 12, 3)]] (by decide)
      (by decide) (by decide) (by decide)).1
  exact ⟨results, computed, rows⟩

end Airbender.Prover
