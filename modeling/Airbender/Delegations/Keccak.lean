import Airbender.CommonConstants
import Mathlib.Data.Fin.VecNotation

/-!
# Keccak-f[1600] in special5 steps

The single step of the Keccak delegation, which touches six words of the state
at a time, and the permutation the executor runs in one go.
-/

namespace Airbender.Keccak

/-- The 25 lanes and the six scratch words behind them. -/
abbrev Words := Vector U64 31

/-! ## Precompiles -/

def precompileIotaColumnxor : U32 := 0

def precompileColumnmix1 : U32 := 1

def precompileColumnmix2 : U32 := 2

def precompileTheta : U32 := 3

def precompileRho : U32 := 4

def precompileChi1 : U32 := 5

def precompileChi2 : U32 := 6

/-! ## The control word -/

/-- The precompile, the iteration and the round a control word stands for. -/
def decodeControl (control : U32) : U32 × Nat × Nat :=
  let precompile := control &&& 0b111
  let iteration := ((control >>> 3) &&& 0b111).toNat
  let round := (control >>> 6).toNat
  (precompile, iteration, round)

/-- The control word of a precompile, an iteration and a round. -/
def encodeControl (precompile : U32) (iteration round : Nat) : U32 :=
  precompile ||| (BitVec.ofNat 32 iteration <<< 3) ||| (BitVec.ofNat 32 round <<< 6)

def bumpControl (precompile : U32) (iteration round : Nat) : Option U32 :=
  if precompile = precompileIotaColumnxor ∨ precompile = precompileTheta ∨
      precompile = precompileRho then
    let precompileNext := if iteration = 4 then precompile + 1 else precompile
    some (encodeControl precompileNext ((iteration + 1) % 5) round)
  else if precompile = precompileColumnmix1 ∨ precompile = precompileColumnmix2 ∨
      precompile = precompileChi1 then
    some (encodeControl (precompile + 1) iteration round)
  else if precompile = precompileChi2 then
    let precompileNext :=
      if iteration = 4 then precompileIotaColumnxor else precompile - 1
    let roundNext := if iteration = 4 then round + 1 else round
    some (encodeControl precompileNext ((iteration + 1) % 5) roundNext)
  else
    none

/-! ## Word indices -/

/-- Row `r` places lane `i` of the standard layout before round `r`. -/
def permutationsAdjusted : List (List Nat) :=
  [[0, 1, 2, 3, 4, 5, 6, 7, 8, 9, 10, 11, 12,
      13, 14, 15, 16, 17, 18, 19, 20, 21, 22, 23, 24],
    [0, 6, 12, 18, 24, 3, 9, 10, 16, 22, 1, 7, 13,
      19, 20, 4, 5, 11, 17, 23, 2, 8, 14, 15, 21],
    [0, 9, 13, 17, 21, 18, 22, 1, 5, 14, 6, 10, 19,
      23, 2, 24, 3, 7, 11, 15, 12, 16, 20, 4, 8],
    [0, 22, 19, 11, 8, 17, 14, 6, 3, 20, 9, 1, 23,
      15, 12, 21, 18, 10, 7, 4, 13, 5, 2, 24, 16],
    [0, 14, 23, 7, 16, 11, 20, 9, 18, 2, 22, 6, 15,
      4, 13, 8, 17, 1, 10, 24, 19, 3, 12, 21, 5],
    [0, 20, 15, 10, 5, 7, 2, 22, 17, 12, 14, 9, 4,
      24, 19, 16, 11, 6, 1, 21, 23, 18, 13, 8, 3],
    [0, 2, 4, 1, 3, 10, 12, 14, 11, 13, 20, 22, 24,
      21, 23, 5, 7, 9, 6, 8, 15, 17, 19, 16, 18],
    [0, 12, 24, 6, 18, 1, 13, 20, 7, 19, 2, 14, 21,
      8, 15, 3, 10, 22, 9, 16, 4, 11, 23, 5, 17],
    [0, 13, 21, 9, 17, 6, 19, 2, 10, 23, 12, 20, 8,
      16, 4, 18, 1, 14, 22, 5, 24, 7, 15, 3, 11],
    [0, 19, 8, 22, 11, 9, 23, 12, 1, 15, 13, 2, 16,
      5, 24, 17, 6, 20, 14, 3, 21, 10, 4, 18, 7],
    [0, 23, 16, 14, 7, 22, 15, 13, 6, 4, 19, 12, 5,
      3, 21, 11, 9, 2, 20, 18, 8, 1, 24, 17, 10],
    [0, 15, 5, 20, 10, 14, 4, 19, 9, 24, 23, 13, 3,
      18, 8, 7, 22, 12, 2, 17, 16, 6, 21, 11, 1],
    [0, 4, 3, 2, 1, 20, 24, 23, 22, 21, 15, 19, 18,
      17, 16, 10, 14, 13, 12, 11, 5, 9, 8, 7, 6],
    [0, 24, 18, 12, 6, 2, 21, 15, 14, 8, 4, 23, 17,
      11, 5, 1, 20, 19, 13, 7, 3, 22, 16, 10, 9],
    [0, 21, 17, 13, 9, 12, 8, 4, 20, 16, 24, 15, 11,
      7, 3, 6, 2, 23, 19, 10, 18, 14, 5, 1, 22],
    [0, 8, 11, 19, 22, 13, 16, 24, 2, 5, 21, 4, 7,
      10, 18, 9, 12, 15, 23, 1, 17, 20, 3, 6, 14],
    [0, 16, 7, 23, 14, 19, 5, 21, 12, 3, 8, 24, 10,
      1, 17, 22, 13, 4, 15, 6, 11, 2, 18, 9, 20],
    [0, 5, 10, 15, 20, 23, 3, 8, 13, 18, 16, 21, 1,
      6, 11, 14, 19, 24, 4, 9, 7, 12, 17, 22, 2],
    [0, 3, 1, 4, 2, 15, 18, 16, 19, 17, 5, 8, 6,
      9, 7, 20, 23, 21, 24, 22, 10, 13, 11, 14, 12],
    [0, 18, 6, 24, 12, 4, 17, 5, 23, 11, 3, 16, 9,
      22, 10, 2, 15, 8, 21, 14, 1, 19, 7, 20, 13],
    [0, 17, 9, 21, 13, 24, 11, 3, 15, 7, 18, 5, 22,
      14, 1, 12, 4, 16, 8, 20, 6, 23, 10, 2, 19],
    [0, 11, 22, 8, 19, 21, 7, 18, 4, 10, 17, 3, 14,
      20, 6, 13, 24, 5, 16, 2, 9, 15, 1, 12, 23],
    [0, 7, 14, 16, 23, 8, 10, 17, 24, 1, 11, 18, 20,
      2, 9, 19, 21, 3, 5, 12, 22, 4, 6, 13, 15],
    [0, 10, 20, 5, 15, 16, 1, 11, 21, 6, 7, 17, 2,
      12, 22, 23, 8, 18, 3, 13, 14, 24, 9, 19, 4],
    [0, 1, 2, 3, 4, 5, 6, 7, 8, 9, 10, 11, 12,
      13, 14, 15, 16, 17, 18, 19, 20, 21, 22, 23, 24]]

/-- Five lanes of one row of the permutation table, and a scratch word. -/
def lanesThenScratch
    (row : List Nat) (lanes : Fin 5 → Nat) (scratch : Nat) : Option (Fin 6 → Nat) := do
  let idx0 ← row[lanes 0]?
  let idx1 ← row[lanes 1]?
  let idx2 ← row[lanes 2]?
  let idx3 ← row[lanes 3]?
  let idx4 ← row[lanes 4]?
  some ![idx0, idx1, idx2, idx3, idx4, scratch]

def extractIndices (precompile : U32) (iteration round : Nat) : Option (Fin 6 → Nat) :=
  let column := ![iteration, iteration + 5, iteration + 10, iteration + 15, iteration + 20]
  if precompile = precompileIotaColumnxor then do
    -- indices before applying the round permutation
    let pi ← permutationsAdjusted[round]?
    lanesThenScratch pi column (25 + iteration)
  else if precompile = precompileColumnmix1 then
    some ![25, 26, 27, 28, 29, 30]
  else if precompile = precompileColumnmix2 then
    some ![25, 26, 27, 28, 29, 30]
  else if precompile = precompileTheta then do
    let pi ← permutationsAdjusted[round]?
    let idcol ← [29, 25, 26, 27, 28][iteration]?
    lanesThenScratch pi column idcol
  else if precompile = precompileRho then do
    let pi ← permutationsAdjusted[round]?
    lanesThenScratch pi column 25
  else if precompile = precompileChi1 then do
    -- indices after applying the round permutation
    let pi ← permutationsAdjusted[round + 1]?
    let idx := iteration * 5
    let _idx0 ← pi[idx]?
    let idx1 ← pi[idx + 1]?
    let idx2 ← pi[idx + 2]?
    let idx3 ← pi[idx + 3]?
    let idx4 ← pi[idx + 4]?
    some ![idx1, idx2, idx3, idx4, 25, 26]
  else if precompile = precompileChi2 then do
    let pi ← permutationsAdjusted[round + 1]?
    let idx := iteration * 5
    let idx0 ← pi[idx]?
    let _idx1 ← pi[idx + 1]?
    let _idx2 ← pi[idx + 2]?
    let idx3 ← pi[idx + 3]?
    let idx4 ← pi[idx + 4]?
    some ![idx0, idx3, idx4, 25, 26, 27]
  else
    none

/-! ## Outputs of a step -/

def roundConstantsAdjusted : List U64 :=
  [0, 1, 32898, 9223372036854808714,
    9223372039002292224, 32907, 2147483649, 9223372039002292353,
    9223372036854808585, 138, 136, 2147516425,
    2147483658, 2147516555, 9223372036854775947, 9223372036854808713,
    9223372036854808579, 9223372036854808578, 9223372036854775936, 32778,
    9223372039002259466, 9223372039002292353, 9223372036854808704, 2147483649,
    9223372039002292232]

/-- The rotations of the five lanes of a column. -/
def rhoRotations : List (Fin 5 → Nat) :=
  [![0, 36, 3, 41, 18],
    ![1, 44, 10, 45, 2],
    ![62, 6, 43, 15, 61],
    ![28, 55, 25, 21, 56],
    ![27, 20, 39, 8, 14]]

def computeOutputs
    (precompile : U32) (iteration round : Nat) (stateInputs : Fin 6 → U64) :
    Option (Fin 6 → U64) :=
  if precompile = precompileIotaColumnxor then do
    let roundIfIter0 := if iteration = 0 then round else 0
    let chosenRoundConstant ← roundConstantsAdjusted[roundIfIter0]?
    let idx0 := stateInputs 0 ^^^ chosenRoundConstant
    let idx5 := stateInputs 1
    let idx10 := stateInputs 2
    let idx15 := stateInputs 3
    let idx20 := stateInputs 4
    some ![idx0, idx5, idx10, idx15, idx20, idx0 ^^^ idx5 ^^^ idx10 ^^^ idx15 ^^^ idx20]
  else if precompile = precompileColumnmix1 then
    let i25 := stateInputs 0
    let i26 := stateInputs 1
    let i27 := stateInputs 2
    let i28 := stateInputs 3
    let i29 := stateInputs 4
    some ![i25 ^^^ i27.rotateLeft 1, i26, i27 ^^^ i29.rotateLeft 1, i28, i29,
      i25.rotateLeft 1]
  else if precompile = precompileColumnmix2 then
    let i25 := stateInputs 0
    let i26 := stateInputs 1
    let i27 := stateInputs 2
    let i28 := stateInputs 3
    let i29 := stateInputs 4
    let i30 := stateInputs 5
    some ![i25, i26 ^^^ i28.rotateLeft 1, i27, i28 ^^^ i30, i29 ^^^ i26.rotateLeft 1, i30]
  else if precompile = precompileTheta then
    let idcol := stateInputs 5
    some ![stateInputs 0 ^^^ idcol, stateInputs 1 ^^^ idcol, stateInputs 2 ^^^ idcol,
      stateInputs 3 ^^^ idcol, stateInputs 4 ^^^ idcol, idcol]
  else if precompile = precompileRho then do
    let rotations ← rhoRotations[iteration]?
    some ![(stateInputs 0).rotateLeft (rotations 0), (stateInputs 1).rotateLeft (rotations 1),
      (stateInputs 2).rotateLeft (rotations 2), (stateInputs 3).rotateLeft (rotations 3),
      (stateInputs 4).rotateLeft (rotations 4), stateInputs 5]
  else if precompile = precompileChi1 then
    let idx1 := stateInputs 0
    let idx2 := stateInputs 1
    let idx3 := stateInputs 2
    let idx4 := stateInputs 3
    some ![idx1 ^^^ (~~~idx2 &&& idx3), idx2 ^^^ (~~~idx3 &&& idx4), idx3, idx4,
      ~~~idx1 &&& idx2, idx1]
  else if precompile = precompileChi2 then
    let idx0 := stateInputs 0
    let idx3 := stateInputs 1
    let idx4 := stateInputs 2
    let i25 := stateInputs 3
    let i26 := stateInputs 4
    let i27 := stateInputs 5
    some ![idx0 ^^^ i25, idx3 ^^^ (~~~idx4 &&& idx0), idx4 ^^^ (~~~idx0 &&& i26),
      i25, i26, i27]
  else
    none

/-! ## One step -/

/-- The six indices as positions of the 31-word array. -/
def boundsCheck (indices : Fin 6 → Nat) : Option (Fin 6 → Fin 31) :=
  if inBounds : ∀ j, indices j < 31 then
    some fun j => ⟨indices j, inBounds j⟩
  else
    none

/-- Write six words back, in order. -/
def scatter (words : Words) (positions : Fin 6 → Fin 31) (outputs : Fin 6 → U64) : Words :=
  (List.finRange 6).foldl (fun words j => words.set (positions j) (outputs j)) words

/-- The words and the next control word after one special5 step. -/
def singleStep (control : U32) (words : Words) : Option (U32 × Words) := do
  let (precompile, iteration, round) := decodeControl control
  let nextControl ← bumpControl precompile iteration round
  let stateIndexes ← extractIndices precompile iteration round
  let positions ← boundsCheck stateIndexes
  let stateInputs := fun j => words[positions j]
  let stateOutputs ← computeOutputs precompile iteration round stateInputs
  some (nextControl, scatter words positions stateOutputs)

/-! ## Timestamp offsets -/

/-- The `while` loop that records the offset of the latest step at each word. -/
def timestampOffsetsFrom :
    Nat → Nat → U32 → Vector U64 31 → Option (U32 × Vector U64 31)
  | 0, _, control, result => some (control, result)
  | remaining + 1, callRound, control, result => do
      let tsOffset := BitVec.ofNat 64 callRound * timestampStep
      let (precompile, iteration, round) := decodeControl control
      let controlNext ← bumpControl precompile iteration round
      let stateIndexes ← extractIndices precompile iteration round
      let positions ← boundsCheck stateIndexes
      timestampOffsetsFrom remaining (callRound + 1) controlNext
        (scatter result positions fun _ => tsOffset)

/-- `KECCAK_FINAL_TIMESTAMP_OFFSETS`. -/
def finalTimestampOffsets : Vector U64 31 :=
  let loop :=
    timestampOffsetsFrom numDelegationCallsForKeccakF1600 0
      initialKeccakF1600ControlValue (Vector.replicate 31 0)
  (loop.map Prod.snd).getD (Vector.replicate 31 0)

/-! ## The permutation -/

def rho : Vector Nat 24 :=
  #v[1, 3, 6, 10, 15, 21, 28, 36, 45, 55, 2, 14, 27, 41, 56, 8, 25, 43, 62, 18, 39, 61,
    20, 44]

def pi : Vector (Fin 31) 24 :=
  #v[10, 7, 11, 17, 18, 3, 5, 16, 8, 21, 24, 4, 15, 23, 19, 13, 12, 2, 20, 14, 22,
    9, 6, 1]

def rc : Vector U64 24 :=
  #v[0x0000000000000001, 0x0000000000008082, 0x800000000000808a, 0x8000000080008000,
    0x000000000000808b, 0x0000000080000001, 0x8000000080008081, 0x8000000000008009,
    0x000000000000008a, 0x0000000000000088, 0x0000000080008009, 0x000000008000000a,
    0x000000008000808b, 0x800000000000008b, 0x8000000000008089, 0x8000000000008003,
    0x8000000000008002, 0x8000000000000080, 0x000000000000800a, 0x800000008000000a,
    0x8000000080008081, 0x8000000000008080, 0x0000000080000001, 0x8000000080008008]

/-- The xor of column `x`. -/
def columnParity (words : Words) (x : Fin 5) : U64 :=
  (List.finRange 5).foldl (fun parity y => parity ^^^ words[5 * y.val + x.val]) 0

/-- What theta adds to column `x`. -/
def thetaTerm (words : Words) (x : Fin 5) : U64 :=
  columnParity words (x + 4) ^^^ (columnParity words (x + 1)).rotateLeft 1

def applyTheta (words : Words) : Words :=
  Vector.ofFn fun i : Fin 31 =>
    if i.val < 25 then words[i] ^^^ thetaTerm words (Fin.ofNat 5 i.val) else words[i]

/-- Rotate every lane while moving it to its next place. -/
def applyRhoPi (words : Words) : Words :=
  ((List.finRange 24).foldl
    (fun (current : Words × U64) x =>
      let target : Fin 31 := pi[x]
      (current.1.set target (current.2.rotateLeft rho[x]), current.1[target]))
    (words, words[1])).1

def applyChi (words : Words) : Words :=
  Vector.ofFn fun i : Fin 31 =>
    if i.val < 25 then
      let y := 5 * (i.val / 5)
      let next1 := words[Fin.ofNat 31 (y + (i.val % 5 + 1) % 5)]
      let next2 := words[Fin.ofNat 31 (y + (i.val % 5 + 2) % 5)]
      words[i] ^^^ (~~~next1 &&& next2)
    else
      words[i]

def applyIota (constant : U64) (words : Words) : Words :=
  words.set 0 (words[0] ^^^ constant)

def keccakRound (round : Fin 24) (words : Words) : Words :=
  applyIota rc[round] (applyChi (applyRhoPi (applyTheta words)))

/-- The last round also leaves in the scratch words what the steps leave there. -/
def finalRound (words : Words) : Words :=
  let lanes := applyTheta words
  let lanes := lanes.set 29 (thetaTerm words 0)
  let lanes := lanes.set 27 (thetaTerm words 3)
  let lanes := lanes.set 28 (thetaTerm words 4)
  let lanes := lanes.set 30 ((columnParity words 0).rotateLeft 1)
  let lanes := applyRhoPi lanes
  let lanes := lanes.set 26 lanes[21]
  let lanes := applyIota rc[23] (applyChi lanes)
  lanes.set 25 (lanes[0] ^^^ lanes[5] ^^^ lanes[10] ^^^ lanes[15] ^^^ lanes[20])

def keccakF1600ImplExt (words : Words) : Words :=
  finalRound
    ((List.finRange 23).foldl (fun words round => keccakRound round.castSucc words) words)

end Airbender.Keccak
