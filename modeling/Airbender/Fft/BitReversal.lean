import Airbender.Fft.Precomputes
import Airbender.Lib.Exchanges

/-!
# Bit reversal in place

The routines go through the places and exchange each one with its reversal, which they put
together from table entries.  Which places are exchanged depends on the length of the slice alone,
so a routine is given by its calls of `swap_unchecked`.
-/

namespace Airbender.Fft

open Exchanges RadixTwo

/-! ## Tables and bytes -/

/-- A table of all indices of some bits in reverse order, kept in bytes. -/
def bitreverseLookupTable (log2Size : ℕ) : List ℕ :=
  (List.range (2 ^ log2Size)).map fun i => (reversed 64 i >>> (64 - log2Size)) % 2 ^ 8

def tinyBitreverseLookupTableLog2Size : ℕ := 3

def smallBitreverseLookupTableLog2Size : ℕ := 6

def mediumBitreverseLookupTableLog2Size : ℕ := 8

def tinyBitreverseLookupTable : List ℕ := bitreverseLookupTable tinyBitreverseLookupTableLog2Size

def smallBitreverseLookupTable : List ℕ := bitreverseLookupTable smallBitreverseLookupTableLog2Size

def mediumBitreverseLookupTable : List ℕ :=
  bitreverseLookupTable mediumBitreverseLookupTableLog2Size

/-- `u32::to_le_bytes`. -/
def toLeBytes (value : ℕ) : ℕ × ℕ × ℕ × ℕ :=
  (value % 2 ^ 8, value / 2 ^ 8 % 2 ^ 8, value / 2 ^ 16 % 2 ^ 8, value / 2 ^ 24 % 2 ^ 8)

/-- `u32::from_le_bytes`. -/
def fromLeBytes (bytes : ℕ × ℕ × ℕ × ℕ) : ℕ :=
  let (byte₀, byte₁, byte₂, byte₃) := bytes
  byte₀ + 2 ^ 8 * byte₁ + 2 ^ 16 * byte₂ + 2 ^ 24 * byte₃

/-- `u32::swap_bytes`. -/
def swapBytes (value : ℕ) : ℕ :=
  let (byte₀, byte₁, byte₂, byte₃) := toLeBytes value
  fromLeBytes (byte₃, byte₂, byte₁, byte₀)

/-- `bitreverse_index`. -/
def bitreverseIndex (index numBits : ℕ) : ℕ := reversed 64 ((index <<< (64 - numBits)) % 2 ^ 64)

/-! ## The loop bodies -/

/-- The swaps of a loop over an index range. -/
def loopSwaps (body : ℕ → Option (List (ℕ × ℕ))) (indices : List ℕ) :
    Option (List (ℕ × ℕ)) := do
  let swaps ← indices.mapM body
  return swaps.flatten

/-- The loop body of the routines that look a whole index up. -/
def lookupSwaps (table : List ℕ) (shiftToCleanup i : ℕ) : Option (List (ℕ × ℕ)) := do
  let j ← table[i]?
  let j := j >>> shiftToCleanup
  return if i < j then [(i, j)] else []

/-- The reversed index of the optimized routines, which know that the first byte is zero. -/
def optimizedReversedIndex (commonPartLogN i : ℕ) : Option ℕ := do
  let (_, byte₁, byte₂, byte₃) := toLeBytes (swapBytes (i % 2 ^ 32))
  let byte₁ ← mediumBitreverseLookupTable[byte₁]?
  let byte₂ ← mediumBitreverseLookupTable[byte₂]?
  let byte₃ ← mediumBitreverseLookupTable[byte₃]?
  return fromLeBytes (0, byte₁, byte₂, byte₃) >>> (32 - commonPartLogN)

/-- The inner loop body of the optimized routines, with the highest three bits of the place. -/
def optimizedSwap (commonPartLogN i reversedI j : ℕ) : Option (List (ℕ × ℕ)) := do
  let reversedJ ← tinyBitreverseLookupTable[j]?
  let dst := i ||| (j <<< commonPartLogN)
  let src := reversedJ ||| (reversedI <<< tinyBitreverseLookupTableLog2Size)
  return if dst < src then [(src, dst)] else []

/-- The loop body of the optimized routines. -/
def optimizedSwaps (commonPartLogN i : ℕ) : Option (List (ℕ × ℕ)) := do
  let reversedI ← optimizedReversedIndex commonPartLogN i
  loopSwaps (optimizedSwap commonPartLogN i reversedI) (List.range tinyBitreverseLookupTable.length)

/-- The reversed index of the simple routines. -/
def simpleReversedIndex (logN i : ℕ) : Option ℕ := do
  let (byte₀, byte₁, byte₂, byte₃) := toLeBytes (swapBytes (i % 2 ^ 32))
  let byte₀ ← mediumBitreverseLookupTable[byte₀]?
  let byte₁ ← mediumBitreverseLookupTable[byte₁]?
  let byte₂ ← mediumBitreverseLookupTable[byte₂]?
  let byte₃ ← mediumBitreverseLookupTable[byte₃]?
  return fromLeBytes (byte₀, byte₁, byte₂, byte₃) >>> (32 - logN)

/-- The loop body of the simple routines, which exchange from the larger index. -/
def simpleSwaps (logN i : ℕ) : Option (List (ℕ × ℕ)) := do
  let reversedI ← simpleReversedIndex logN i
  return if reversedI < i then [(i, reversedI)] else []

/-! ## The routines -/

/-- The swaps of the tasks that `worker.scope` gives a chunk of the work each. -/
def scopeSwaps (body : ℕ → Option (List (ℕ × ℕ))) (numCores workSize : ℕ) :
    Option (List (List (ℕ × ℕ))) := do
  let chunks ← workChunks numCores workSize
  chunks.mapM fun chunk => loopSwaps body (positions chunk)

/-- The routines with one table for the whole index. -/
def viaLookup (log2Size length : ℕ) : Option (List (ℕ × ℕ)) := do
  guard (Usize.isPowerOfTwo length)
  guard (length ≤ (bitreverseLookupTable log2Size).length)
  let shiftToCleanup := log2Size - length.log2
  loopSwaps (lookupSwaps (bitreverseLookupTable log2Size) shiftToCleanup) (List.range length)

def bitreverseEnumerationInplaceViaSmallLookup (length : ℕ) : Option (List (ℕ × ℕ)) :=
  viaLookup smallBitreverseLookupTableLog2Size length

def bitreverseEnumerationInplaceViaMediumLookup (length : ℕ) : Option (List (ℕ × ℕ)) :=
  viaLookup mediumBitreverseLookupTableLog2Size length

def optimizedBitreverseEnumerationInplace (length : ℕ) : Option (List (ℕ × ℕ)) := do
  guard (Usize.isPowerOfTwo length)
  guard (mediumBitreverseLookupTable.length < length)
  guard (length ≤ 2 ^ 27)
  let commonPartLogN := length.log2 - tinyBitreverseLookupTableLog2Size
  loopSwaps (optimizedSwaps commonPartLogN) (List.range (2 ^ commonPartLogN))

def simpleBitreverseEnumerationInplace (length : ℕ) : Option (List (ℕ × ℕ)) := do
  guard (Usize.isPowerOfTwo length)
  guard (mediumBitreverseLookupTable.length < length)
  guard (length ≤ 2 ^ 31)
  loopSwaps (simpleSwaps length.log2) (List.range length)

/-- The swaps of `bitreverse_enumeration_inplace`. -/
def bitreverseEnumerationInplaceSwaps (length : ℕ) : Option (List (ℕ × ℕ)) := do
  if length = 0 then
    return []
  guard (Usize.isPowerOfTwo length)
  if length ≤ smallBitreverseLookupTable.length then
    bitreverseEnumerationInplaceViaSmallLookup length
  else if length ≤ mediumBitreverseLookupTable.length then
    bitreverseEnumerationInplaceViaMediumLookup length
  else if length ≤ 2 ^ 27 then
    optimizedBitreverseEnumerationInplace length
  else
    simpleBitreverseEnumerationInplace length

/-- The parallel routine, whose assertion lets shorter slices pass than that of the serial one. -/
def parallelOptimizedBitreverseEnumerationInplace (numCores length : ℕ) :
    Option (List (List (ℕ × ℕ))) := do
  guard (Usize.isPowerOfTwo length)
  guard (tinyBitreverseLookupTable.length < length)
  guard (length ≤ 2 ^ 27)
  let commonPartLogN := length.log2 - tinyBitreverseLookupTableLog2Size
  scopeSwaps (optimizedSwaps commonPartLogN) numCores (2 ^ commonPartLogN)

def parallelSimpleBitreverseEnumerationInplace (numCores length : ℕ) :
    Option (List (List (ℕ × ℕ))) := do
  guard (Usize.isPowerOfTwo length)
  guard (mediumBitreverseLookupTable.length < length)
  guard (length ≤ 2 ^ 31)
  scopeSwaps (simpleSwaps length.log2) numCores length

/-- A routine that runs on the calling thread. -/
def asOneTask (swaps : Option (List (ℕ × ℕ))) : Option (List (List (ℕ × ℕ))) :=
  swaps.map fun swaps => [swaps]

def parallelBitreverseEnumerationInplace (numCores length : ℕ) :
    Option (List (List (ℕ × ℕ))) := do
  if length = 0 then
    return []
  guard (Usize.isPowerOfTwo length)
  if length ≤ smallBitreverseLookupTable.length then
    asOneTask (bitreverseEnumerationInplaceViaSmallLookup length)
  else if length ≤ mediumBitreverseLookupTable.length then
    asOneTask (bitreverseEnumerationInplaceViaMediumLookup length)
  else if length ≤ 2 ^ 27 then
    parallelOptimizedBitreverseEnumerationInplace numCores length
  else
    parallelSimpleBitreverseEnumerationInplace numCores length

/-- The routines that reverse the bits of the places. -/
inductive BitReversal where
  | viaSmallLookup
  | viaMediumLookup
  | optimized
  | simple
  | enumeration
  | parallelOptimized
  | parallelSimple
  | parallelEnumeration
deriving DecidableEq, Repr

namespace BitReversal

/-- The swaps that each task of a routine makes. -/
def tasks (numCores length : ℕ) : BitReversal → Option (List (List (ℕ × ℕ)))
  | viaSmallLookup => asOneTask (bitreverseEnumerationInplaceViaSmallLookup length)
  | viaMediumLookup => asOneTask (bitreverseEnumerationInplaceViaMediumLookup length)
  | optimized => asOneTask (optimizedBitreverseEnumerationInplace length)
  | simple => asOneTask (simpleBitreverseEnumerationInplace length)
  | enumeration => asOneTask (bitreverseEnumerationInplaceSwaps length)
  | parallelOptimized => parallelOptimizedBitreverseEnumerationInplace numCores length
  | parallelSimple => parallelSimpleBitreverseEnumerationInplace numCores length
  | parallelEnumeration => parallelBitreverseEnumerationInplace numCores length

/-- The assertions of a routine on a length that is a power of two. -/
def Accepts (length : ℕ) : BitReversal → Prop
  | viaSmallLookup => length ≤ 2 ^ 6
  | viaMediumLookup => length ≤ 2 ^ 8
  | optimized => 2 ^ 8 < length ∧ length ≤ 2 ^ 27
  | simple | parallelSimple => 2 ^ 8 < length ∧ length ≤ 2 ^ 31
  | parallelOptimized => 2 ^ 3 < length ∧ length ≤ 2 ^ 27
  | enumeration | parallelEnumeration => length ≤ 2 ^ 31

/-- The tasks touch different places, and every interleaving of them gives the output. -/
def Reverses {α : Type} (routine : BitReversal) (numCores : ℕ) (input output : List α) : Prop :=
  ∃ tasks, routine.tasks numCores input.length = some tasks ∧ DisjointTasks tasks ∧
    ∀ order, Interleaving tasks order → swapAll input order = some output

end BitReversal

/-! ## What the tables hold -/

theorem length_bitreverseLookupTable (log2Size : ℕ) :
    (bitreverseLookupTable log2Size).length = 2 ^ log2Size := by
  rw [bitreverseLookupTable, List.length_map, List.length_range]

theorem reversed_shiftRight {n width i : ℕ} (narrow : n ≤ width) (bound : i < 2 ^ n) :
    reversed width i >>> (width - n) = reversed n i := by
  have widened := reversed_add (width - n) bound
  rw [Nat.add_sub_cancel' narrow] at widened
  rw [widened, Nat.shiftRight_eq_div_pow, Nat.mul_div_cancel_left _ (Nat.two_pow_pos _)]

/-- An entry of a table fits into a byte. -/
theorem getElem?_bitreverseLookupTable {log2Size i : ℕ} (byte : log2Size ≤ 8)
    (bound : i < 2 ^ log2Size) :
    (bitreverseLookupTable log2Size)[i]? = some (reversed log2Size i) := by
  have small : reversed log2Size i < 2 ^ 8 :=
    (reversed_lt log2Size i).trans_le (Nat.pow_le_pow_right Nat.two_pos byte)
  rw [bitreverseLookupTable, List.getElem?_map, List.getElem?_range bound, Option.map_some,
    reversed_shiftRight (by omega) bound, Nat.mod_eq_of_lt small]

theorem bitreverseIndex_eq {n i : ℕ} (narrow : n ≤ 64) (bound : i < 2 ^ n) :
    bitreverseIndex i n = reversed n i := by
  have split : 64 - n + n = 64 := Nat.sub_add_cancel narrow
  have whole : 2 ^ n * 2 ^ (64 - n) = 2 ^ 64 := by rw [← pow_add, Nat.add_sub_cancel' narrow]
  have shifted : i <<< (64 - n) < 2 ^ 64 := by
    rw [Nat.shiftLeft_eq, ← whole]
    exact Nat.mul_lt_mul_of_pos_right bound (Nat.two_pow_pos _)
  have low : reversed (64 - n) (i * 2 ^ (64 - n)) = 0 := by
    rw [← reversed_mod, Nat.mul_mod_left, reversed_zero]
  have parts := reversed_parts (64 - n) n (i * 2 ^ (64 - n))
  rw [split, low, Nat.mul_zero, Nat.zero_add, Nat.mul_div_cancel _ (Nat.two_pow_pos _)] at parts
  rw [bitreverseIndex, Nat.mod_eq_of_lt shifted, Nat.shiftLeft_eq, parts]

/-! ## The reversed indices -/

/-- The bytes of a word in the other order, each of them reversed, are the reversed word. -/
theorem reversed_eq_fromLeBytes (i : ℕ) :
    reversed 32 i =
      fromLeBytes (reversed 8 (i / 2 ^ 24 % 2 ^ 8), reversed 8 (i / 2 ^ 16 % 2 ^ 8),
        reversed 8 (i / 2 ^ 8 % 2 ^ 8), reversed 8 (i % 2 ^ 8)) := by
  have first : reversed 32 i = 2 ^ 24 * reversed 8 i + reversed 24 (i / 2 ^ 8) :=
    reversed_parts 8 24 i
  have second : reversed 24 (i / 2 ^ 8) =
      2 ^ 16 * reversed 8 (i / 2 ^ 8) + reversed 16 (i / 2 ^ 16) := by
    have parts := reversed_parts 8 16 (i / 2 ^ 8)
    rwa [Nat.div_div_eq_div_mul, ← pow_add] at parts
  have third : reversed 16 (i / 2 ^ 16) =
      2 ^ 8 * reversed 8 (i / 2 ^ 16) + reversed 8 (i / 2 ^ 24) := by
    have parts := reversed_parts 8 8 (i / 2 ^ 16)
    rwa [Nat.div_div_eq_div_mul, ← pow_add] at parts
  rw [first, second, third, fromLeBytes]
  simp only [reversed_mod]
  omega

theorem toLeBytes_fromLeBytes {byte₀ byte₁ byte₂ byte₃ : ℕ} (bound₀ : byte₀ < 2 ^ 8)
    (bound₁ : byte₁ < 2 ^ 8) (bound₂ : byte₂ < 2 ^ 8) (bound₃ : byte₃ < 2 ^ 8) :
    toLeBytes (fromLeBytes (byte₀, byte₁, byte₂, byte₃)) = (byte₀, byte₁, byte₂, byte₃) := by
  simp only [toLeBytes, fromLeBytes, Prod.mk.injEq]
  refine ⟨?_, ?_, ?_, ?_⟩
  · omega
  · omega
  · omega
  · omega

/-- The bytes of a word whose bytes were swapped. -/
theorem toLeBytes_swapBytes (i : ℕ) :
    toLeBytes (swapBytes i) =
      (i / 2 ^ 24 % 2 ^ 8, i / 2 ^ 16 % 2 ^ 8, i / 2 ^ 8 % 2 ^ 8, i % 2 ^ 8) := by
  have byte : ∀ value, value % 2 ^ 8 < 2 ^ 8 := fun value => Nat.mod_lt value (Nat.two_pow_pos 8)
  exact toLeBytes_fromLeBytes (byte _) (byte _) (byte _) (byte _)

theorem getElem?_mediumBitreverseLookupTable (byte : ℕ) :
    mediumBitreverseLookupTable[byte % 2 ^ 8]? = some (reversed 8 (byte % 2 ^ 8)) :=
  getElem?_bitreverseLookupTable (Nat.le_refl 8) (Nat.mod_lt byte (Nat.two_pow_pos 8))

theorem simpleReversedIndex_eq {n i : ℕ} (narrow : n ≤ 32) (bound : i < 2 ^ n) :
    simpleReversedIndex n i = some (reversed n i) := by
  have word : i < 2 ^ 32 := bound.trans_le (Nat.pow_le_pow_right Nat.two_pos narrow)
  rw [simpleReversedIndex, Nat.mod_eq_of_lt word, toLeBytes_swapBytes]
  simp only [getElem?_mediumBitreverseLookupTable, Option.bind_eq_bind, Option.bind_some,
    Option.pure_def]
  rw [← reversed_eq_fromLeBytes, reversed_shiftRight narrow bound]

/-- Below `2^24` the byte that is skipped is zero. -/
theorem optimizedReversedIndex_eq {n i : ℕ} (narrow : n ≤ 24) (bound : i < 2 ^ n) :
    optimizedReversedIndex n i = some (reversed n i) := by
  have small : i < 2 ^ 24 := bound.trans_le (Nat.pow_le_pow_right Nat.two_pos narrow)
  have word : i < 2 ^ 32 := by omega
  have skipped : reversed 8 (i / 2 ^ 24 % 2 ^ 8) = 0 := by
    rw [Nat.div_eq_of_lt small, Nat.zero_mod, reversed_zero]
  rw [optimizedReversedIndex, Nat.mod_eq_of_lt word, toLeBytes_swapBytes]
  simp only [getElem?_mediumBitreverseLookupTable, Option.bind_eq_bind, Option.bind_some,
    Option.pure_def]
  rw [← skipped, ← reversed_eq_fromLeBytes, reversed_shiftRight (by omega) bound]

/-! ## The swaps of the loop bodies -/

/-- The swap of a place that is the smaller one of its pair. -/
def forwardSwap (n place : ℕ) : List (ℕ × ℕ) :=
  if place < reversed n place then [(place, reversed n place)] else []

/-- The same swap with the larger place first. -/
def turnedSwap (n place : ℕ) : List (ℕ × ℕ) :=
  if place < reversed n place then [(reversed n place, place)] else []

/-- The swap of a place that is the larger one of its pair. -/
def backwardSwap (n place : ℕ) : List (ℕ × ℕ) :=
  if reversed n place < place then [(place, reversed n place)] else []

theorem loopSwaps_eq {body : ℕ → Option (List (ℕ × ℕ))} {swapsOf : ℕ → List (ℕ × ℕ)}
    {indices : List ℕ} (all : ∀ i ∈ indices, body i = some (swapsOf i)) :
    loopSwaps body indices = some (indices.flatMap swapsOf) := by
  rw [loopSwaps, mapM_eq_some all, List.flatMap_def]
  rfl

theorem lookupSwaps_eq {log2Size n i : ℕ} (byte : log2Size ≤ 8) (narrow : n ≤ log2Size)
    (bound : i < 2 ^ n) :
    lookupSwaps (bitreverseLookupTable log2Size) (log2Size - n) i = some (forwardSwap n i) := by
  have entry : i < 2 ^ log2Size :=
    bound.trans_le (Nat.pow_le_pow_right Nat.two_pos narrow)
  rw [lookupSwaps, getElem?_bitreverseLookupTable byte entry]
  simp only [Option.bind_eq_bind, Option.bind_some, Option.pure_def,
    reversed_shiftRight narrow bound, forwardSwap]

theorem simpleSwaps_eq {n i : ℕ} (narrow : n ≤ 32) (bound : i < 2 ^ n) :
    simpleSwaps n i = some (backwardSwap n i) := by
  rw [simpleSwaps, simpleReversedIndex_eq narrow bound]
  rfl

/-- The place that is made of a low and a high part, and its reversal. -/
theorem reversed_of_parts {n i : ℕ} (j : ℕ) (bound : i < 2 ^ n) :
    i ||| (j <<< n) = i + 2 ^ n * j ∧
      reversed 3 j ||| (reversed n i <<< 3) = reversed (n + 3) (i + 2 ^ n * j) := by
  have low : i ||| (j <<< n) = i + 2 ^ n * j := by
    rw [Nat.shiftLeft_eq, Nat.mul_comm, Nat.or_comm, ← Nat.two_pow_add_eq_or_of_lt bound,
      Nat.add_comm]
  have lowPart : (i + 2 ^ n * j) % 2 ^ n = i := by
    rw [Nat.add_mul_mod_self_left, Nat.mod_eq_of_lt bound]
  have highPart : (i + 2 ^ n * j) / 2 ^ n = j := by
    rw [Nat.add_mul_div_left _ _ (Nat.two_pow_pos n), Nat.div_eq_of_lt bound, Nat.zero_add]
  refine ⟨low, ?_⟩
  rw [reversed_parts, ← reversed_mod n (i + 2 ^ n * j), lowPart, highPart, Nat.shiftLeft_eq,
    Nat.mul_comm, Nat.or_comm, ← Nat.two_pow_add_eq_or_of_lt (reversed_lt 3 j)]

theorem optimizedSwaps_eq {n i : ℕ} (narrow : n ≤ 24) (bound : i < 2 ^ n) :
    optimizedSwaps n i =
      some ((List.range (2 ^ 3)).flatMap fun j => turnedSwap (n + 3) (i + 2 ^ n * j)) := by
  have size : tinyBitreverseLookupTable.length = 2 ^ 3 := length_bitreverseLookupTable 3
  have body : ∀ j ∈ List.range (2 ^ 3), optimizedSwap n i (reversed n i) j =
      some (turnedSwap (n + 3) (i + 2 ^ n * j)) := by
    intro j member
    have entry := getElem?_bitreverseLookupTable (show 3 ≤ 8 by omega) (List.mem_range.mp member)
    have parts := reversed_of_parts j bound
    rw [optimizedSwap, tinyBitreverseLookupTable, tinyBitreverseLookupTableLog2Size, entry]
    simp only [Option.bind_eq_bind, Option.bind_some, Option.pure_def, parts.1, parts.2,
      turnedSwap]
  rw [optimizedSwaps, optimizedReversedIndex_eq narrow bound, Option.bind_eq_bind,
    Option.bind_some, size]
  exact loopSwaps_eq body

/-! ## Every routine transposes the places with their reversals -/

/-- The permutation of the places is an involution below `2^n`. -/
theorem reversed_ne {n place : ℕ} (below : place < 2 ^ n) (moved : reversed n place ≠ place) :
    place < reversed n place ∨ reversed n place < reversed n (reversed n place) := by
  rw [reversed_reversed below]
  omega

theorem forwardSwap_owned (n : ℕ) :
    Owned (2 ^ n) (reversed n) (fun place => place < reversed n place) (forwardSwap n) where
  bound place _ := reversed_lt n place
  involutive _ below := reversed_reversed below
  owner _ below moved := reversed_ne below moved
  single place below own := by
    rw [reversed_reversed below]
    omega
  pair _ _ own := Or.inl (if_pos own)
  empty _ _ foreign := if_neg foreign

theorem turnedSwap_owned (n : ℕ) :
    Owned (2 ^ n) (reversed n) (fun place => place < reversed n place) (turnedSwap n) where
  bound place _ := reversed_lt n place
  involutive _ below := reversed_reversed below
  owner _ below moved := reversed_ne below moved
  single place below own := by
    rw [reversed_reversed below]
    omega
  pair _ _ own := Or.inr (if_pos own)
  empty _ _ foreign := if_neg foreign

theorem backwardSwap_owned (n : ℕ) :
    Owned (2 ^ n) (reversed n) (fun place => reversed n place < place) (backwardSwap n) where
  bound place _ := reversed_lt n place
  involutive _ below := reversed_reversed below
  owner place below moved := by
    rw [reversed_reversed below]
    omega
  single place below own := by
    rw [reversed_reversed below]
    omega
  pair _ _ own := Or.inl (if_pos own)
  empty _ _ foreign := if_neg foreign

/-- The places in the order of the optimized routines. -/
theorem optimizedPlaces_perm (n : ℕ) :
    ((List.range (2 ^ n)).flatMap fun i => (List.range (2 ^ 3)).map fun j => i + 2 ^ n * j).Perm
      (List.range (2 ^ (n + 3))) := by
  have unique : ∀ i < 2 ^ n, ∀ j, (i + 2 ^ n * j) % 2 ^ n = i ∧ (i + 2 ^ n * j) / 2 ^ n = j := by
    intro i bound j
    rw [Nat.add_mul_mod_self_left, Nat.mod_eq_of_lt bound,
      Nat.add_mul_div_left _ _ (Nat.two_pow_pos n), Nat.div_eq_of_lt bound, Nat.zero_add]
    exact ⟨rfl, rfl⟩
  apply (List.perm_ext_iff_of_nodup ?_ List.nodup_range).mpr
  · intro place
    simp only [List.mem_flatMap, List.mem_map, List.mem_range]
    constructor
    · rintro ⟨i, below, j, small, rfl⟩
      rw [pow_add]
      calc i + 2 ^ n * j < 2 ^ n + 2 ^ n * j := Nat.add_lt_add_right below _
        _ = 2 ^ n * (j + 1) := by rw [Nat.mul_succ, Nat.add_comm]
        _ ≤ 2 ^ n * 2 ^ 3 := Nat.mul_le_mul_left _ small
    · intro below
      rw [pow_add] at below
      exact ⟨place % 2 ^ n, Nat.mod_lt _ (Nat.two_pow_pos n), place / 2 ^ n,
        Nat.div_lt_of_lt_mul below, Nat.mod_add_div place (2 ^ n)⟩
  · apply List.nodup_flatMap.mpr
    constructor
    · intro i member
      apply List.nodup_range.map_on
      intro j _ j' _ same
      have quotients := congrArg (· / 2 ^ n) same
      rwa [(unique i (List.mem_range.mp member) j).2, (unique i (List.mem_range.mp member) j').2]
        at quotients
    · refine List.nodup_range.imp_of_mem ?_
      intro i i' member member' different place inFirst inSecond
      rcases List.mem_map.mp inFirst with ⟨j, _, rfl⟩
      rcases List.mem_map.mp inSecond with ⟨j', _, same⟩
      have remainders := congrArg (· % 2 ^ n) same
      rw [(unique i (List.mem_range.mp member) j).1, (unique i' (List.mem_range.mp member') j').1]
        at remainders
      exact different remainders.symm

/-- The positions of a worker's chunks are the whole loop. -/
theorem scopeSwaps_eq {body : ℕ → Option (List (ℕ × ℕ))} {swapsOf : ℕ → List (ℕ × ℕ)}
    {numCores workSize : ℕ} (cores : numCores ≠ 0) (work : workSize ≠ 0)
    (all : ∀ i < workSize, body i = some (swapsOf i)) :
    ∃ tasks, scopeSwaps body numCores workSize = some tasks ∧
      tasks.flatten = (List.range workSize).flatMap swapsOf := by
  rcases workChunks_eq cores work with ⟨chunks, computed, positionsOf⟩
  refine ⟨chunks.map fun chunk => (positions chunk).flatMap swapsOf, ?_, ?_⟩
  · rw [scopeSwaps, computed]
    apply mapM_eq_some
    intro chunk member
    apply loopSwaps_eq
    intro i inChunk
    apply all i
    apply List.mem_range.mp
    rw [← positionsOf]
    exact List.mem_flatMap.mpr ⟨chunk, member, inChunk⟩
  · rw [← List.flatMap_def, ← positionsOf, List.flatMap_assoc]

/-- What a routine does with the places, whatever its tasks. -/
def TransposesReversals (n : ℕ) (tasks : Option (List (List (ℕ × ℕ)))) : Prop :=
  ∃ result, tasks = some result ∧ Transposes (2 ^ n) (reversed n) result.flatten

theorem asOneTask_transposes {n : ℕ} {swaps : Option (List (ℕ × ℕ))} {result : List (ℕ × ℕ)}
    (computed : swaps = some result) (transposes : Transposes (2 ^ n) (reversed n) result) :
    TransposesReversals n (asOneTask swaps) := by
  refine ⟨[result], ?_, ?_⟩
  · rw [computed]
    rfl
  · rw [List.flatten_singleton]
    exact transposes

section Routines

variable {n numCores : ℕ}

theorem viaLookup_transposes {log2Size : ℕ} (byte : log2Size ≤ 8) (narrow : n ≤ log2Size) :
    TransposesReversals n (asOneTask (viaLookup log2Size (2 ^ n))) := by
  have size : 2 ^ n ≤ (bitreverseLookupTable log2Size).length := by
    rw [length_bitreverseLookupTable]
    exact Nat.pow_le_pow_right Nat.two_pos narrow
  have loop := loopSwaps_eq fun i member =>
    lookupSwaps_eq byte narrow (List.mem_range.mp member)
  refine asOneTask_transposes ?_ ((forwardSwap_owned n).transposes (List.Perm.refl _))
  rw [viaLookup, guard_of (Usize.isPowerOfTwo_two_pow n), guard_of size, Nat.log2_two_pow]
  exact loop

/-- The swaps of both optimized routines. -/
def optimizedPairs (n : ℕ) : List (ℕ × ℕ) :=
  (List.range (2 ^ n)).flatMap fun i =>
    (List.range (2 ^ 3)).flatMap fun j => turnedSwap (n + 3) (i + 2 ^ n * j)

theorem optimizedPairs_transposes (n : ℕ) :
    Transposes (2 ^ (n + 3)) (reversed (n + 3)) (optimizedPairs n) := by
  have pairs := (turnedSwap_owned (n + 3)).transposes (optimizedPlaces_perm n)
  rw [List.flatMap_assoc] at pairs
  simp only [List.flatMap_map] at pairs
  exact pairs

theorem optimized_transposes (large : 8 < n + 3) (narrow : n ≤ 24) :
    TransposesReversals (n + 3)
      (asOneTask (optimizedBitreverseEnumerationInplace (2 ^ (n + 3)))) := by
  have lower : mediumBitreverseLookupTable.length < 2 ^ (n + 3) := by
    rw [mediumBitreverseLookupTable, length_bitreverseLookupTable]
    exact Nat.pow_lt_pow_right (by decide) large
  have upper : 2 ^ (n + 3) ≤ 2 ^ 27 := Nat.pow_le_pow_right Nat.two_pos (by omega)
  have common : n + 3 - tinyBitreverseLookupTableLog2Size = n := Nat.add_sub_cancel n 3
  have loop := loopSwaps_eq fun i member => optimizedSwaps_eq narrow (List.mem_range.mp member)
  refine asOneTask_transposes ?_ (optimizedPairs_transposes n)
  rw [optimizedBitreverseEnumerationInplace, guard_of (Usize.isPowerOfTwo_two_pow (n + 3)),
    guard_of lower, guard_of upper, Nat.log2_two_pow]
  simp only [Option.bind_eq_bind, Option.bind_some, common]
  exact loop

theorem parallelOptimized_transposes (cores : numCores ≠ 0) (large : 0 < n) (narrow : n ≤ 24) :
    TransposesReversals (n + 3)
      (parallelOptimizedBitreverseEnumerationInplace numCores (2 ^ (n + 3))) := by
  have lower : tinyBitreverseLookupTable.length < 2 ^ (n + 3) := by
    rw [tinyBitreverseLookupTable, length_bitreverseLookupTable]
    exact Nat.pow_lt_pow_right (by decide) (Nat.lt_add_of_pos_left large)
  have upper : 2 ^ (n + 3) ≤ 2 ^ 27 := Nat.pow_le_pow_right Nat.two_pos (by omega)
  have common : n + 3 - tinyBitreverseLookupTableLog2Size = n := Nat.add_sub_cancel n 3
  rcases scopeSwaps_eq cores (Nat.two_pow_pos n).ne' (fun i below => optimizedSwaps_eq narrow below)
    with ⟨tasks, computed, pairs⟩
  refine ⟨tasks, ?_, ?_⟩
  · rw [parallelOptimizedBitreverseEnumerationInplace,
      guard_of (Usize.isPowerOfTwo_two_pow (n + 3)), guard_of lower, guard_of upper,
      Nat.log2_two_pow]
    simp only [Option.bind_eq_bind, Option.bind_some, common]
    exact computed
  · rw [pairs]
    exact optimizedPairs_transposes n

theorem simple_transposes (large : 8 < n) (narrow : n ≤ 31) :
    TransposesReversals n (asOneTask (simpleBitreverseEnumerationInplace (2 ^ n))) := by
  have lower : mediumBitreverseLookupTable.length < 2 ^ n := by
    rw [mediumBitreverseLookupTable, length_bitreverseLookupTable]
    exact Nat.pow_lt_pow_right (by decide) large
  have upper : 2 ^ n ≤ 2 ^ 31 := Nat.pow_le_pow_right Nat.two_pos narrow
  have loop := loopSwaps_eq fun i member =>
    simpleSwaps_eq (show n ≤ 32 by omega) (List.mem_range.mp member)
  refine asOneTask_transposes ?_ ((backwardSwap_owned n).transposes (List.Perm.refl _))
  rw [simpleBitreverseEnumerationInplace, guard_of (Usize.isPowerOfTwo_two_pow n), guard_of lower,
    guard_of upper, Nat.log2_two_pow]
  exact loop

theorem parallelSimple_transposes (cores : numCores ≠ 0) (large : 8 < n) (narrow : n ≤ 31) :
    TransposesReversals n (parallelSimpleBitreverseEnumerationInplace numCores (2 ^ n)) := by
  have lower : mediumBitreverseLookupTable.length < 2 ^ n := by
    rw [mediumBitreverseLookupTable, length_bitreverseLookupTable]
    exact Nat.pow_lt_pow_right (by decide) large
  have upper : 2 ^ n ≤ 2 ^ 31 := Nat.pow_le_pow_right Nat.two_pos narrow
  rcases scopeSwaps_eq cores (Nat.two_pow_pos n).ne'
    (fun i below => simpleSwaps_eq (show n ≤ 32 by omega) below) with ⟨tasks, computed, pairs⟩
  refine ⟨tasks, ?_, ?_⟩
  · rw [parallelSimpleBitreverseEnumerationInplace, guard_of (Usize.isPowerOfTwo_two_pow n),
      guard_of lower, guard_of upper, Nat.log2_two_pow]
    exact computed
  · rw [pairs]
    exact (backwardSwap_owned n).transposes (List.Perm.refl _)

/-- The optimized routines at a length that is given by its logarithm. -/
theorem optimized_transposes_of_log (large : 8 < n) (narrow : n ≤ 27) :
    TransposesReversals n (asOneTask (optimizedBitreverseEnumerationInplace (2 ^ n))) := by
  have log : n - 3 + 3 = n := by omega
  rw [← log]
  exact optimized_transposes (by omega) (by omega)

theorem parallelOptimized_transposes_of_log (cores : numCores ≠ 0) (large : 3 < n)
    (narrow : n ≤ 27) :
    TransposesReversals n (parallelOptimizedBitreverseEnumerationInplace numCores (2 ^ n)) := by
  have log : n - 3 + 3 = n := by omega
  rw [← log]
  exact parallelOptimized_transposes cores (by omega) (by omega)

theorem two_pow_le_iff {m : ℕ} : 2 ^ n ≤ 2 ^ m ↔ n ≤ m :=
  Nat.pow_le_pow_iff_right (by decide)

theorem two_pow_le_lookupTable {log2Size : ℕ} :
    2 ^ n ≤ (bitreverseLookupTable log2Size).length ↔ n ≤ log2Size := by
  rw [length_bitreverseLookupTable, two_pow_le_iff]

theorem two_pow_le_small : 2 ^ n ≤ smallBitreverseLookupTable.length ↔ n ≤ 6 :=
  two_pow_le_lookupTable

theorem two_pow_le_medium : 2 ^ n ≤ mediumBitreverseLookupTable.length ↔ n ≤ 8 :=
  two_pow_le_lookupTable

/-- The choice between the routines by the length. -/
theorem enumeration_transposes (narrow : n ≤ 31) :
    TransposesReversals n (asOneTask (bitreverseEnumerationInplaceSwaps (2 ^ n))) := by
  rw [bitreverseEnumerationInplaceSwaps, if_neg (Nat.two_pow_pos n).ne',
    guard_of (Usize.isPowerOfTwo_two_pow n)]
  simp only [Option.bind_eq_bind, Option.bind_some]
  by_cases small : n ≤ 6
  · rw [if_pos (two_pow_le_small.mpr small)]
    exact viaLookup_transposes (by decide) small
  rw [if_neg (fun fits => small (two_pow_le_small.mp fits))]
  by_cases medium : n ≤ 8
  · rw [if_pos (two_pow_le_medium.mpr medium)]
    exact viaLookup_transposes (by decide) medium
  rw [if_neg (fun fits => medium (two_pow_le_medium.mp fits))]
  by_cases large : n ≤ 27
  · rw [if_pos (two_pow_le_iff.mpr large)]
    exact optimized_transposes_of_log (by omega) large
  · rw [if_neg (fun fits => large (two_pow_le_iff.mp fits))]
    exact simple_transposes (by omega) narrow

theorem parallelEnumeration_transposes (cores : numCores ≠ 0) (narrow : n ≤ 31) :
    TransposesReversals n (parallelBitreverseEnumerationInplace numCores (2 ^ n)) := by
  rw [parallelBitreverseEnumerationInplace, if_neg (Nat.two_pow_pos n).ne',
    guard_of (Usize.isPowerOfTwo_two_pow n)]
  simp only [Option.bind_eq_bind, Option.bind_some]
  by_cases small : n ≤ 6
  · rw [if_pos (two_pow_le_small.mpr small)]
    exact viaLookup_transposes (by decide) small
  rw [if_neg (fun fits => small (two_pow_le_small.mp fits))]
  by_cases medium : n ≤ 8
  · rw [if_pos (two_pow_le_medium.mpr medium)]
    exact viaLookup_transposes (by decide) medium
  rw [if_neg (fun fits => medium (two_pow_le_medium.mp fits))]
  by_cases large : n ≤ 27
  · rw [if_pos (two_pow_le_iff.mpr large)]
    exact parallelOptimized_transposes_of_log cores (by omega) large
  · rw [if_neg (fun fits => large (two_pow_le_iff.mp fits))]
    exact parallelSimple_transposes cores (by omega) narrow

/-- Every routine that passes its assertions. -/
theorem BitReversal.tasks_transposes {routine : BitReversal} (cores : numCores ≠ 0)
    (accepts : routine.Accepts (2 ^ n)) :
    TransposesReversals n (routine.tasks numCores (2 ^ n)) := by
  cases routine with
  | viaSmallLookup => exact viaLookup_transposes (by decide) (two_pow_le_iff.mp accepts)
  | viaMediumLookup => exact viaLookup_transposes (by decide) (two_pow_le_iff.mp accepts)
  | optimized =>
      exact optimized_transposes_of_log ((Nat.pow_lt_pow_iff_right (by decide)).mp accepts.1)
        (two_pow_le_iff.mp accepts.2)
  | simple =>
      exact simple_transposes ((Nat.pow_lt_pow_iff_right (by decide)).mp accepts.1)
        (two_pow_le_iff.mp accepts.2)
  | enumeration => exact enumeration_transposes (two_pow_le_iff.mp accepts)
  | parallelOptimized =>
      exact parallelOptimized_transposes_of_log cores
        ((Nat.pow_lt_pow_iff_right (by decide)).mp accepts.1) (two_pow_le_iff.mp accepts.2)
  | parallelSimple =>
      exact parallelSimple_transposes cores ((Nat.pow_lt_pow_iff_right (by decide)).mp accepts.1)
        (two_pow_le_iff.mp accepts.2)
  | parallelEnumeration => exact parallelEnumeration_transposes cores (two_pow_le_iff.mp accepts)

end Routines

/-! ## The reversed slice -/

section Results

variable {α : Type} {n : ℕ} {input : List α}

/-- The swaps of one task are apart from those of another. -/
theorem disjointTasks_of_transposes {tasks : List (List (ℕ × ℕ))}
    (transposes : Transposes (2 ^ n) (reversed n) tasks.flatten) : DisjointTasks tasks :=
  (List.pairwise_flatten.mp transposes.apart).2

theorem BitReversal.reverses {routine : BitReversal} {numCores : ℕ} (cores : numCores ≠ 0)
    (accepts : routine.Accepts (2 ^ n)) (size : input.length = 2 ^ n)
    {pairs : List (ℕ × ℕ)} {output : List α} (transposes : Transposes (2 ^ n) (reversed n) pairs)
    (run : swapAll input pairs = some output) : routine.Reverses numCores input output := by
  rcases routine.tasks_transposes cores accepts with ⟨tasks, computed, all⟩
  refine ⟨tasks, ?_, disjointTasks_of_transposes all, ?_⟩
  · rw [size]
    exact computed
  · intro order interleaving
    rw [(all.perm interleaving.perm).swapAll_unique transposes size]
    exact run

/-- The swaps of every place with its reversal undo themselves. -/
theorem swapAll_again {pairs : List (ℕ × ℕ)} (transposes : Transposes (2 ^ n) (reversed n) pairs)
    (size : input.length = 2 ^ n) :
    ∃ output, swapAll input pairs = some output ∧ output.length = 2 ^ n ∧
      (∀ i < 2 ^ n, output[i]? = input[reversed n i]?) ∧ swapAll output pairs = some input := by
  rcases transposes.swapAll_eq size with ⟨output, run, length, places⟩
  rcases transposes.swapAll_eq length with ⟨again, runAgain, lengthAgain, placesAgain⟩
  refine ⟨output, run, length, places, ?_⟩
  have same : again = input := by
    apply List.ext_getElem?
    intro i
    by_cases below : i < 2 ^ n
    · rw [placesAgain i below, places _ (reversed_lt n i), reversed_reversed below]
    · rw [List.getElem?_eq_none (by omega), List.getElem?_eq_none (by omega)]
  rw [runAgain, same]

/-- All routines leave the element of the reversed index at every place, in every interleaving of
tasks that touch different places, and a second routine gives the input back. -/
theorem bitReversal_exact (narrow : n ≤ 31) (size : input.length = 2 ^ n) :
    ∃ output, output.length = 2 ^ n ∧
      (∀ i < 2 ^ n, output[i]? = input[bitreverseIndex i n]?) ∧
        ∀ routine : BitReversal, routine.Accepts (2 ^ n) → ∀ numCores, numCores ≠ 0 →
          routine.Reverses numCores input output ∧ routine.Reverses numCores output input := by
  have pairs := (forwardSwap_owned n).transposes (List.Perm.refl _)
  rcases swapAll_again pairs size with ⟨output, run, length, places, back⟩
  refine ⟨output, length, ?_, ?_⟩
  · intro i below
    rw [bitreverseIndex_eq (by omega) below]
    exact places i below
  · intro routine accepts numCores cores
    exact ⟨BitReversal.reverses cores accepts size pairs run,
      BitReversal.reverses cores accepts length pairs back⟩

/-- A slice that no table covers, tiled and on four cores. -/
theorem bitReversal_exact_nine :
    ∃ output : List ℕ, output.length = 2 ^ 9 ∧
      (∀ i < 2 ^ 9, output[i]? = (List.range 512)[bitreverseIndex i 9]?) ∧
        BitReversal.optimized.Reverses 4 (List.range 512) output ∧
        BitReversal.parallelOptimized.Reverses 4 (List.range 512) output ∧
        BitReversal.parallelSimple.Reverses 4 (List.range 512) output ∧
        BitReversal.parallelEnumeration.Reverses 4 output (List.range 512) := by
  have length : (List.range 512).length = 2 ^ 9 := List.length_range
  rcases bitReversal_exact (by decide) length with ⟨output, size, places, reverses⟩
  have fits : 2 ^ 9 ≤ 2 ^ 27 := by
    decide
  have fitsSimple : 2 ^ 9 ≤ 2 ^ 31 := by
    decide
  have large : 2 ^ 8 < 2 ^ 9 := by
    decide
  have largeTiled : 2 ^ 3 < 2 ^ 9 := by
    decide
  exact ⟨output, size, places, (reverses .optimized ⟨large, fits⟩ 4 (by decide)).1,
    (reverses .parallelOptimized ⟨largeTiled, fits⟩ 4 (by decide)).1,
    (reverses .parallelSimple ⟨large, fitsSimple⟩ 4 (by decide)).1,
    (reverses .parallelEnumeration fitsSimple 4 (by decide)).2⟩

/-- The reversal of the twiddles and of the leaves is the one that `bitreverse_enumeration_inplace`
makes with its swaps. -/
theorem bitreverseEnumerationInplace_eq_swapAll (narrow : n ≤ 31) (size : input.length = 2 ^ n) :
    (bitreverseEnumerationInplaceSwaps (2 ^ n)).bind (swapAll input) =
      bitreverseEnumerationInplace input := by
  rcases enumeration_transposes narrow with ⟨tasks, computed, transposes⟩
  rcases Option.map_eq_some_iff.mp computed with ⟨pairs, chosen, rfl⟩
  rw [List.flatten_singleton] at transposes
  rcases transposes.swapAll_eq size with ⟨output, run, length, places⟩
  rcases reverse_invariant size (Nat.le_refl (2 ^ n)) with ⟨lengthStep, placesStep⟩
  have power := Usize.isPowerOfTwo_two_pow n
  have bound : 2 ^ n ≤ 2 ^ 31 := two_pow_le_iff.mpr narrow
  have same : output = reverseInPlace n input := by
    apply List.ext_getElem?
    intro i
    rw [reverseInPlace]
    by_cases below : i < 2 ^ n
    · rw [places i below, placesStep i below, if_pos (Or.inl below)]
    · rw [List.getElem?_eq_none (by omega), List.getElem?_eq_none (by omega)]
  rw [chosen, Option.bind_some, run, bitreverseEnumerationInplace, size,
    if_neg (Nat.two_pow_pos n).ne', guard_of power, guard_of bound, Nat.log2_two_pow, same]
  rfl

end Results

end Airbender.Fft
